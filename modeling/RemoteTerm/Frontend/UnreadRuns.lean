import Mathlib
import RemoteTerm.Frontend.UnreadServer
import RemoteTerm.Library.Machine

/-!
# The shown unread state over whole runs

In every run whose steps keep the browser in step, what it shows is what the
server would answer, whenever nothing is under way.

## Implementation notes

The invariant follows each conversation: what the browser counts, with the events
under way, are the messages that the server has unread.
-/

namespace RemoteTerm

open Library

section Runs

variable {settings : UnreadSettings} {s : UnreadTraffic} {c : Conversation} {m : MessageRow}

namespace UnreadTables

/-- A counted channel is not muted. -/
theorem isMutedChannel_of_counted {db : UnreadTables}
    (h : db.Counted m.type m.conversationKey) : db.isMutedChannel m = false := by
  rw [Bool.eq_false_iff]
  intro hmuted
  simp only [isMutedChannel, Bool.and_eq_true, decide_eq_true_eq, List.any_eq_true] at hmuted
  obtain ⟨⟨htype, -⟩, ch, hch, hkey, hne⟩ := hmuted
  rw [htype] at h
  obtain ⟨ch', hch', hkey', hzero⟩ := h
  have heq : ch = ch' :=
    List.inj_on_of_nodup_map db.channelKeys hch hch' (hkey.trans hkey'.symm)
  rw [heq] at hne
  exact hne hzero

end UnreadTables

namespace UnreadTraffic

/-- The messages of a count are those that it should stand for: none of a conversation that is
open or being marked, and otherwise, with the events under way, what the server has unread. -/
def Expected (settings : UnreadSettings) (s : UnreadTraffic) (c : Conversation)
    (l : List MessageRow) : Prop :=
  if s.openConversation = some c then l = []
  else if c ∈ s.marks then l = [] ∧ s.pendingOf settings c = []
  else s.loaded = true → (l ++ s.pendingOf settings c).Perm (settings.unread s.db c)

/-- What holds in every state of a run in step. -/
structure Settled (settings : UnreadSettings) (s : UnreadTraffic) : Prop where
  active : s.client.activeKey = s.openConversation.map stateKeyOf
  alike : ∀ m ∈ s.events, s.TreatedAlike settings m
  stored : ∀ m ∈ s.events, m ∈ s.db.messages
  made : ∀ t, some t ∈ s.answers → ∀ c : Conversation,
    t.Counted c.1 c.2 ↔ s.db.Counted c.1 c.2
  tallied : ∀ c, s.db.Counted c.1 c.2 →
    ∃ l, Tallied settings s.client (stateKeyOf c) l ∧ s.Expected settings c l
  timed : ∀ c, s.client.lastMessageTimes (stateKeyOf c) ≠ none →
    UnreadTables.shownTime settings s.db c ≠ none
  pendingTime : ∀ c m, (s.shownOf settings c).getLast? = some m →
    UnreadTables.shownTime settings s.db c = some m.receivedAt
  lastTime : s.loaded = true → ∀ c, s.shownOf settings c = [] →
    s.client.lastMessageTimes (stateKeyOf c) = UnreadTables.shownTime settings s.db c
  waiting : s.loaded = false → s.answers ≠ []

theorem TreatedAlike.congr (h : s.TreatedAlike settings m) {t : UnreadTraffic}
    (hcounted : ∀ c : Conversation, s.db.Counted c.1 c.2 → t.db.Counted c.1 c.2) :
    t.TreatedAlike settings m :=
  ⟨h.blocked, fun hshown => hcounted m.conversation (h.counted hshown), h.keyed, h.stamped,
    h.mention⟩

namespace Settled

/-- Before anything happens, the browser waits for its first answer. -/
theorem initial (settings : UnreadSettings) (db : UnreadTables) :
    Settled settings { db := db } where
  active := rfl
  alike _ h := absurd h List.not_mem_nil
  stored _ h := absurd h List.not_mem_nil
  made t h := by simp at h
  tallied c _ := by
    refine ⟨[], Tallied.initial, ?_⟩
    rw [Expected, if_neg (by simp), if_neg (by simp)]
    intro hloaded
    cases hloaded
  timed c h := absurd rfl h
  pendingTime c m h := by simp [shownOf] at h
  lastTime h := by cases h
  waiting _ := by simp

/-- What is stored is under way to the browser. -/
theorem store (h : s.Settled settings) (hok : s.InStep settings (.store m)) :
    (s.apply settings (.store m)).Settled settings := by
  rw [apply]
  split_ifs with hid
  · exact h
  obtain ⟨halike, hlast, hfresh⟩ := hok
  have hpending : ∀ c, ({ s with db := s.db.insert m hid, events := s.events ++ [m] } :
      UnreadTraffic).pendingOf settings c = s.pendingOf settings c ++
        if m.conversation = c ∧ settings.Incoming m then [m] else [] := by
    intro c
    rw [pendingOf, pendingOf, List.filter_append]
    congr 1
    exact filter_message decide_eq_true_iff
  have hshown : ∀ c, ({ s with db := s.db.insert m hid, events := s.events ++ [m] } :
      UnreadTraffic).shownOf settings c = s.shownOf settings c ++
        if m.conversation = c ∧ settings.Shown m then [m] else [] := by
    intro c
    rw [shownOf, shownOf, List.filter_append]
    congr 1
    exact filter_message decide_eq_true_iff
  constructor
  case active => exact h.active
  case alike =>
    intro n hn
    rcases List.mem_append.mp hn with hn | hn
    · exact (h.alike n hn).congr fun _ hc => hc
    · rw [List.mem_singleton.mp hn]
      exact halike.congr fun _ hc => hc
  case stored =>
    intro n hn
    rcases List.mem_append.mp hn with hn | hn
    · exact List.mem_append_left _ (h.stored n hn)
    · exact List.mem_append_right _ hn
  case made => exact h.made
  case tallied =>
    intro c hcounted
    obtain ⟨l, htallied, hexpected⟩ := h.tallied c hcounted
    refine ⟨l, htallied, ?_⟩
    rw [Expected] at hexpected ⊢
    rw [hpending]
    dsimp only
    split_ifs at hexpected ⊢ with hopen hmarks hm hm
    · exact hexpected
    · obtain ⟨rfl, hincoming⟩ := hm
      exact absurd hmarks (hfresh hincoming hopen).1
    · rw [List.append_nil]
      exact hexpected
    · intro hloaded
      obtain ⟨rfl, hincoming⟩ := hm
      rw [UnreadTables.unread_insert, if_pos ⟨rfl, hincoming, (hfresh hincoming hopen).2⟩,
        ← List.append_assoc]
      exact (hexpected hloaded).append_right [m]
    · intro hloaded
      rw [UnreadTables.unread_insert, if_neg fun hall => hm ⟨hall.1, hall.2.1⟩, List.append_nil,
        List.append_nil]
      exact hexpected hloaded
  case timed =>
    intro c hne
    dsimp only
    rw [UnreadTables.shownTime_insert hid hlast]
    split_ifs
    · exact Option.some_ne_none _
    · exact h.timed c hne
  case pendingTime =>
    intro c n hn
    rw [hshown] at hn
    dsimp only
    rw [UnreadTables.shownTime_insert hid hlast]
    split_ifs at hn ⊢
    · rw [List.getLast?_append, List.getLast?_singleton, Option.some_or,
        Option.some.injEq] at hn
      rw [hn]
    · rw [List.append_nil] at hn
      exact h.pendingTime c n hn
  case lastTime =>
    intro hloaded c hnone
    rw [hshown, List.append_eq_nil_iff] at hnone
    dsimp only
    rw [UnreadTables.shownTime_insert hid hlast]
    split_ifs at hnone ⊢
    · cases hnone.2
    · exact h.lastTime hloaded c hnone.1
  case waiting => exact h.waiting

end Settled

/-- A message of a conversation that is shown gives it a last time. -/
theorem shownTime_ne_none {db : UnreadTables} (hmem : m ∈ db.messages)
    (hshown : settings.Shown m) :
    UnreadTables.shownTime settings db m.conversation ≠ none := by
  rw [UnreadTables.shownTime, ne_eq, List.max?_eq_none_iff, List.map_eq_nil_iff]
  refine List.ne_nil_of_mem (a := m) (List.mem_filter.mpr ⟨List.mem_filter.mpr ⟨hmem, ?_⟩, ?_⟩)
  · exact decide_eq_true ⟨rfl, rfl⟩
  · exact decide_eq_true (UnreadSettings.shown_iff.mp hshown)

/-- The next event is one of a conversation or not. -/
theorem pendingOf_cons {rest : List MessageRow} (hevents : s.events = m :: rest)
    (u : UnreadState) :
    s.pendingOf settings c = (if m.conversation = c ∧ settings.Incoming m then [m] else []) ++
      ({ s with client := u, events := rest } : UnreadTraffic).pendingOf settings c := by
  rw [pendingOf, pendingOf, hevents, ← List.singleton_append, List.filter_append]
  congr 1
  exact filter_message decide_eq_true_iff

theorem shownOf_cons {rest : List MessageRow} (hevents : s.events = m :: rest)
    (u : UnreadState) :
    s.shownOf settings c = (if m.conversation = c ∧ settings.Shown m then [m] else []) ++
      ({ s with client := u, events := rest } : UnreadTraffic).shownOf settings c := by
  rw [shownOf, shownOf, hevents, ← List.singleton_append, List.filter_append]
  congr 1
  exact filter_message decide_eq_true_iff

namespace Settled

/-- What the browser does with a message that is not shown, and with one that is. -/
theorem onMessage_eq (h : s.Settled settings) (hm : m ∈ s.events) (isNewMessage : Bool)
    (now : Int) :
    s.onMessage settings m isNewMessage now =
      if settings.Shown m then
        s.client.recordMessageEvent m isNewMessage (settings.messageContainsMention m.text) now
      else s.client := by
  have halike := h.alike m hm
  rw [onMessage]
  by_cases hshown : settings.Shown m
  · rw [if_pos hshown, if_neg (by rw [halike.blocked.mpr hshown]; decide),
      if_neg (by rw [UnreadTables.isMutedChannel_of_counted (halike.counted hshown)]; decide)]
  · rw [if_neg hshown, if_pos (by
      by_contra hfalse
      exact hshown (halike.blocked.mp (Bool.eq_false_iff.mpr hfalse)))]

/-- A message is counted if its conversation is not open. -/
theorem counts_iff (h : s.Settled settings) {isNewMessage : Bool} :
    s.client.counts (stateKeyOf m.conversation) m isNewMessage = true ↔
      s.openConversation ≠ some m.conversation ∧ m.outgoing = false ∧ isNewMessage = true := by
  have hopen : s.client.activeKey = some (stateKeyOf m.conversation) ↔
      s.openConversation = some m.conversation := by
    rw [h.active, Option.map_eq_some_iff]
    constructor
    · rintro ⟨c, hc, heq⟩
      rw [hc, stateKeyOf_inj.mp heq]
    · intro hc
      exact ⟨_, hc, rfl⟩
  simp [UnreadState.counts, hopen, and_assoc]

/-- A shown message is the last one of its conversation. -/
theorem lastMessageTimes_onMessage (h : s.Settled settings) (hm : m ∈ s.events)
    (isNewMessage : Bool) (now : Int) (c : Conversation) :
    (s.onMessage settings m isNewMessage now).lastMessageTimes (stateKeyOf c) =
      if m.conversation = c ∧ settings.Shown m then some m.receivedAt
      else s.client.lastMessageTimes (stateKeyOf c) := by
  have halike := h.alike m hm
  rw [h.onMessage_eq hm]
  by_cases hshown : settings.Shown m
  · rw [if_pos hshown, lastMessageTimes_recordMessageEvent
      (MessageRow.stateKey_conversation (halike.keyed hshown)) (halike.stamped hshown)]
    by_cases hc : m.conversation = c
    · rw [if_pos ⟨hc, hshown⟩, hc, Function.update_self]
    · rw [if_neg fun hboth => hc hboth.1,
        Function.update_of_ne fun heq => hc (stateKeyOf_inj.mp heq).symm]
  · rw [if_neg hshown, if_neg fun hboth => hshown hboth.2]

/-- A shown message that is counted joins the tally of its conversation. -/
theorem tallied_onMessage (h : s.Settled settings) (hm : m ∈ s.events) (isNewMessage : Bool)
    (now : Int) {c : Conversation} {l : List MessageRow}
    (htallied : Tallied settings s.client (stateKeyOf c) l) :
    Tallied settings (s.onMessage settings m isNewMessage now) (stateKeyOf c)
      (if m.conversation = c ∧ settings.Shown m ∧
        s.client.counts (stateKeyOf m.conversation) m isNewMessage = true then l ++ [m]
      else l) := by
  have halike := h.alike m hm
  rw [h.onMessage_eq hm]
  by_cases hshown : settings.Shown m
  · have hkey : m.stateKey = some (stateKeyOf m.conversation) :=
      MessageRow.stateKey_conversation (halike.keyed hshown)
    have hmention : s.client.counts (stateKeyOf m.conversation) m isNewMessage = true → _ :=
      fun hcounts => halike.mention ⟨(h.counts_iff.mp hcounts).2.1, hshown⟩
    have hrecorded := htallied.recordMessageEvent hkey now hmention
    rw [if_pos hshown]
    simpa only [stateKeyOf_inj, eq_comm (a := c), hshown, true_and] using hrecorded
  · rw [if_neg hshown, if_neg fun hall => hshown hall.2.1]
    exact htallied

/-- A delivered message moves from the events to its count. -/
theorem deliver (h : s.Settled settings) {isNewMessage : Bool} {now : Int}
    (hok : s.InStep settings (.deliver isNewMessage now)) :
    (s.apply settings (.deliver isNewMessage now)).Settled settings := by
  rw [apply]
  split
  next => exact h
  next m rest hevents =>
  have hm : m ∈ s.events := by
    rw [hevents]
    exact List.mem_cons_self
  have hrest : ∀ n ∈ rest, n ∈ s.events := by
    intro n hn
    rw [hevents]
    exact List.mem_cons_of_mem _ hn
  have hnew : settings.Incoming m → s.openConversation ≠ some m.conversation →
      isNewMessage = true := hok m (by rw [hevents]; rfl)
  have htimes := h.lastMessageTimes_onMessage hm isNewMessage now
  constructor
  case active =>
    refine Eq.trans ?_ h.active
    dsimp only
    rw [h.onMessage_eq hm]
    split_ifs
    · exact UnreadState.recordMessageEvent_activeKey ..
    · rfl
  case alike => exact fun n hn => (h.alike n (hrest n hn)).congr fun _ hc => hc
  case stored => exact fun n hn => h.stored n (hrest n hn)
  case made => exact h.made
  case tallied =>
    intro c hcounted
    obtain ⟨l, htallied, hexpected⟩ := h.tallied c hcounted
    have hpending : s.pendingOf settings c = _ :=
      pendingOf_cons hevents (s.onMessage settings m isNewMessage now)
    have hrecorded := h.tallied_onMessage hm isNewMessage now htallied
    by_cases htaken : m.conversation = c ∧ settings.Incoming m ∧ s.openConversation ≠ some c
    · obtain ⟨rfl, hincoming, hopen⟩ := htaken
      have hcounts := h.counts_iff.mpr ⟨hopen, hincoming.1, hnew hincoming hopen⟩
      rw [if_pos ⟨rfl, hincoming.2, hcounts⟩] at hrecorded
      refine ⟨l ++ [m], hrecorded, ?_⟩
      have hmine : m.conversation = m.conversation ∧ settings.Incoming m := ⟨rfl, hincoming⟩
      rw [Expected, if_neg hopen] at hexpected ⊢
      rw [hpending, if_pos hmine] at hexpected
      dsimp only
      by_cases hmarks : m.conversation ∈ s.marks
      · rw [if_pos hmarks] at hexpected
        exact absurd hexpected.2 (List.cons_ne_nil _ _)
      · rw [if_neg hmarks] at hexpected ⊢
        rw [List.append_assoc]
        exact hexpected
    · have hother : ¬ (m.conversation = c ∧ settings.Shown m ∧
          s.client.counts (stateKeyOf m.conversation) m isNewMessage = true) := by
        rintro ⟨rfl, hshown, hcounts⟩
        obtain ⟨hopen, hout, -⟩ := h.counts_iff.mp hcounts
        exact htaken ⟨rfl, ⟨hout, hshown⟩, hopen⟩
      rw [if_neg hother] at hrecorded
      refine ⟨l, hrecorded, ?_⟩
      rw [Expected] at hexpected ⊢
      dsimp only
      by_cases hopen : s.openConversation = some c
      · rw [if_pos hopen] at hexpected ⊢
        exact hexpected
      · have hnotmine : ¬ (m.conversation = c ∧ settings.Incoming m) :=
          fun hboth => htaken ⟨hboth.1, hboth.2, hopen⟩
        rw [hpending, if_neg hnotmine, List.nil_append] at hexpected
        exact hexpected
  case timed =>
    intro c hne
    dsimp only at hne ⊢
    rw [htimes] at hne
    split_ifs at hne with hc
    · obtain ⟨rfl, hshown⟩ := hc
      exact shownTime_ne_none (h.stored m hm) hshown
    · exact h.timed c hne
  case pendingTime =>
    intro c n hn
    refine h.pendingTime c n ?_
    rw [shownOf_cons hevents (s.onMessage settings m isNewMessage now), List.getLast?_append, hn,
      Option.some_or]
  case lastTime =>
    intro hloaded c hnone
    have hshownOf : s.shownOf settings c = _ :=
      shownOf_cons hevents (s.onMessage settings m isNewMessage now)
    rw [hnone, List.append_nil] at hshownOf
    dsimp only
    rw [htimes]
    split_ifs at hshownOf ⊢ with hc
    · refine (h.pendingTime c m ?_).symm
      rw [hshownOf, List.getLast?_singleton]
    · exact h.lastTime hloaded c hshownOf
  case waiting => exact h.waiting

/-- A conversation that is left is expected to count what it would if it had not been open. -/
theorem expected_left (hleft : s.LeftRead settings) {l : List MessageRow}
    (h : s.Expected settings c l) :
    if c ∈ s.marks then l = [] ∧ s.pendingOf settings c = []
    else s.loaded = true → (l ++ s.pendingOf settings c).Perm (settings.unread s.db c) := by
  rw [Expected] at h
  by_cases hopen : s.openConversation = some c
  · rw [if_pos hopen] at h
    obtain ⟨hpending, hread⟩ := hleft c hopen
    rw [h, hpending]
    split_ifs with hmarks
    · exact ⟨rfl, rfl⟩
    · intro _
      rw [hread.resolve_left hmarks]
      exact List.Perm.nil
  · rw [if_neg hopen] at h
    exact h

/-- The conversation that is opened counts nothing, and the one that is left is read. -/
theorem openConversation (h : s.Settled settings)
    (hok : s.InStep settings (.openConversation c)) :
    (s.apply settings (.openConversation c)).Settled settings := by
  rw [apply]
  split_ifs with hsame
  · exact h
  have hleft : s.LeftRead settings := hok hsame
  constructor
  case active => rfl
  case alike => exact fun n hn => (h.alike n hn).congr fun _ hc => hc
  case stored => exact h.stored
  case made => exact h.made
  case tallied =>
    intro d hcounted
    obtain ⟨l, htallied, hexpected⟩ := h.tallied d hcounted
    refine ⟨_, htallied.markRead, ?_⟩
    rw [Expected]
    dsimp only
    by_cases hd : c = d
    · rw [if_pos (by rw [hd]), if_pos (by rw [hd])]
    · have hkey : ¬ stateKeyOf d = stateKeyOf c := fun heq => hd (stateKeyOf_inj.mp heq).symm
      have hmarks : d ∈ s.marks ++ [c] ↔ d ∈ s.marks := by simp [Ne.symm hd]
      rw [if_neg hkey, if_neg (by simpa using hd)]
      simp only [hmarks]
      exact expected_left hleft hexpected
  case timed => exact h.timed
  case pendingTime => exact h.pendingTime
  case lastTime => exact h.lastTime
  case waiting => exact h.waiting

theorem leave (h : s.Settled settings) (hok : s.InStep settings .leave) :
    (s.apply settings .leave).Settled settings := by
  rw [apply]
  constructor
  case active => rfl
  case alike => exact fun n hn => (h.alike n hn).congr fun _ hc => hc
  case stored => exact h.stored
  case made => exact h.made
  case tallied =>
    intro d hcounted
    obtain ⟨l, htallied, hexpected⟩ := h.tallied d hcounted
    refine ⟨l, htallied.congr rfl rfl rfl, ?_⟩
    rw [Expected, if_neg (by simp)]
    exact expected_left hok hexpected
  case timed => exact h.timed
  case pendingTime => exact h.pendingTime
  case lastTime => exact h.lastTime
  case waiting => exact h.waiting

/-- A mark that takes effect after its conversation was left leaves nothing unread in it. -/
theorem markRead (h : s.Settled settings) {i : Nat} {now : Int}
    (hok : s.InStep settings (.markRead i now)) :
    (s.apply settings (.markRead i now)).Settled settings := by
  rw [apply]
  split
  next => exact h
  next c hc =>
  obtain ⟨htarget, hread⟩ := hok c hc
  constructor
  case active => exact h.active
  case alike =>
    exact fun n hn => (h.alike n hn).congr fun _ hd => (UnreadTables.counted_markRead now).mpr hd
  case stored =>
    intro n hn
    dsimp only
    rw [UnreadTables.markRead_messages]
    exact h.stored n hn
  case made => exact fun t ht d => (h.made t ht d).trans (UnreadTables.counted_markRead now).symm
  case tallied =>
    intro d hcounted
    obtain ⟨l, htallied, hexpected⟩ := h.tallied d ((UnreadTables.counted_markRead now).mp hcounted)
    refine ⟨l, htallied, ?_⟩
    rw [Expected] at hexpected ⊢
    dsimp only
    by_cases hopen : s.openConversation = some d
    · rw [if_pos hopen] at hexpected ⊢
      exact hexpected
    · rw [if_neg hopen] at hexpected ⊢
      by_cases hleft : d ∈ s.marks.eraseIdx i
      · rw [if_pos (List.mem_of_mem_eraseIdx hleft)] at hexpected
        rw [if_pos hleft]
        exact hexpected
      · rw [if_neg hleft]
        intro hloaded
        by_cases hd : d = c
        · subst hd
          obtain ⟨hmark, hrow, hnow⟩ := hread hopen
          rw [if_pos (List.mem_of_getElem? hc)] at hexpected
          have hpending := hexpected.2
          rw [UnreadTables.unread_markRead now hmark hrow hnow, hexpected.1]
          exact (List.perm_nil.mpr hpending)
        · have hmarks : d ∉ s.marks := by
            intro hmem
            obtain ⟨j, hj⟩ := List.mem_iff_getElem?.mp hmem
            refine hleft (List.mem_eraseIdx_iff_getElem?.mpr ⟨j, fun hij => hd ?_, hj⟩)
            rw [hij, hc] at hj
            exact (Option.some.inj hj).symm
          rw [if_neg hmarks] at hexpected
          rw [UnreadTables.unread_markRead_of_ne now htarget hd]
          exact hexpected hloaded
  case timed =>
    intro d hne
    dsimp only
    rw [UnreadTables.shownTime_markRead]
    exact h.timed d hne
  case pendingTime =>
    intro d n hn
    dsimp only
    rw [UnreadTables.shownTime_markRead]
    exact h.pendingTime d n hn
  case lastTime =>
    intro hloaded d hnone
    dsimp only
    rw [UnreadTables.shownTime_markRead]
    exact h.lastTime hloaded d hnone
  case waiting => exact h.waiting

/-- The requests and answers under way are exchanged. -/
theorem answersChanged (h : s.Settled settings) {answers : List (Option UnreadTables)}
    (hmade : ∀ t, some t ∈ answers → some t ∈ s.answers ∨ t = s.db) (hne : answers ≠ []) :
    ({ s with answers } : UnreadTraffic).Settled settings where
  active := h.active
  alike n hn := (h.alike n hn).congr fun _ hc => hc
  stored := h.stored
  made t ht c := by
    rcases hmade t ht with ht | rfl
    · exact h.made t ht c
    · exact Iff.rfl
  tallied := h.tallied
  timed := h.timed
  pendingTime := h.pendingTime
  lastTime := h.lastTime
  waiting _ := hne

theorem answer (h : s.Settled settings) (i : Nat) :
    (s.apply settings (.answer i)).Settled settings := by
  rw [apply]
  split
  next hi =>
    refine h.answersChanged (fun t ht => ?_) ?_
    · rcases List.mem_or_eq_of_mem_set ht with ht | ht
      · exact Or.inl ht
      · exact Or.inr (Option.some.inj ht)
    · intro hnil
      rw [List.set_eq_nil_iff] at hnil
      rw [hnil] at hi
      cases hi
  next => exact h

/-- An event that is shown is of a stored message. -/
theorem shownTime_of_shownOf (h : s.Settled settings) (hne : s.shownOf settings c ≠ []) :
    UnreadTables.shownTime settings s.db c ≠ none := by
  obtain ⟨m, hm⟩ := List.exists_mem_of_ne_nil _ hne
  obtain ⟨hmem, hm⟩ := List.mem_filter.mp hm
  obtain ⟨rfl, hshown⟩ := of_decide_eq_true hm
  exact shownTime_ne_none (h.stored m hmem) hshown

/-- An answer that is up to date brings the browser in step. -/
theorem receive (h : s.Settled settings) {i : Nat} {markOpen : Bool}
    (hok : s.InStep settings (.receive i markOpen)) :
    (s.apply settings (.receive i markOpen)).Settled settings := by
  rw [apply]
  split
  next t hi =>
    obtain ⟨hunread, htimes⟩ := hok t hi
    have hmade := h.made t (List.mem_of_getElem? hi)
    have hreceived : ∀ c, s.shownOf settings c = [] →
        (s.client.applyUnreads (t.snapshot settings.name settings.blockedKeys
          settings.blockedNames)).lastMessageTimes (stateKeyOf c) =
          (UnreadTables.shownTime settings s.db c).or
            (s.client.lastMessageTimes (stateKeyOf c)) := by
      intro c hshown
      have htime := htimes c hshown
      rw [UnreadTables.answer_lastMessageTimes settings s.db] at htime
      rw [← htime]
      rfl
    constructor
    case active => exact h.active
    case alike => exact fun n hn => (h.alike n hn).congr fun _ hc => hc
    case stored => exact h.stored
    case made => exact fun u hu c => h.made u (List.mem_of_mem_eraseIdx hu) c
    case tallied =>
      intro c hcounted
      refine ⟨_, Tallied.applyUnreads ((hmade c).mpr hcounted), ?_⟩
      rw [Expected, h.active]
      dsimp only
      by_cases hopen : s.openConversation = some c
      · rw [if_pos hopen, if_pos (by rw [hopen]; rfl)]
      · have hkey : ¬ s.openConversation.map stateKeyOf = some (stateKeyOf c) := by
          rw [Option.map_eq_some_iff]
          rintro ⟨d, hd, heq⟩
          rw [hd, stateKeyOf_inj.mp heq] at hopen
          exact hopen rfl
        obtain ⟨hperm, hmarked⟩ := hunread c hcounted hopen
        have hmarks : (c ∈ if markOpen then s.marks ++ s.openConversation.toList else s.marks) →
            c ∈ s.marks := by
          intro hmem
          split_ifs at hmem
          · rcases List.mem_append.mp hmem with hmem | hmem
            · exact hmem
            · exact absurd (Option.mem_toList.mp hmem) hopen
          · exact hmem
        rw [if_neg hopen, if_neg hkey]
        by_cases hc : c ∈ if markOpen then s.marks ++ s.openConversation.toList else s.marks
        · rw [if_pos hc]
          exact hmarked (hmarks hc)
        · rw [if_neg hc]
          exact fun _ => hperm
    case timed =>
      intro c hne
      by_cases hshown : s.shownOf settings c = []
      · intro hnone
        rw [hreceived c hshown, hnone, Option.none_or] at hne
        exact h.timed c hne hnone
      · exact h.shownTime_of_shownOf hshown
    case pendingTime => exact h.pendingTime
    case lastTime =>
      intro _ c hshown
      refine (hreceived c hshown).trans ?_
      cases htime : UnreadTables.shownTime settings s.db c with
      | some time => rfl
      | none =>
          rw [Option.none_or]
          by_contra hne
          exact h.timed c hne htime
    case waiting =>
      intro hloaded
      cases hloaded
  next => exact h

/-- Every step that keeps the browser in step keeps the invariant. -/
theorem apply (h : s.Settled settings) {e : UnreadAction} (hok : s.InStep settings e) :
    (s.apply settings e).Settled settings := by
  cases e with
  | store m => exact h.store hok
  | deliver isNewMessage now => exact h.deliver hok
  | openConversation c => exact h.openConversation hok
  | leave => exact h.leave hok
  | markRead i now => exact h.markRead hok
  | request =>
      exact h.answersChanged
        (fun t ht => Or.inl ((List.mem_append.mp ht).resolve_right (by simp))) (by simp)
  | answer i => exact h.answer i
  | receive i markOpen => exact h.receive hok

/-- When nothing is under way, the browser shows what the server would answer. -/
theorem agrees (h : s.Settled settings) (hquiet : s.Quiet) : s.AgreesWithServer settings := by
  have hloaded : s.loaded = true := by
    by_contra hfalse
    exact h.waiting (Bool.eq_false_iff.mpr hfalse) hquiet.answers
  have hcounts : ∀ c : Conversation, s.db.Counted c.1 c.2 → s.openConversation ≠ some c →
      ∃ l, Tallied settings s.client (stateKeyOf c) l ∧ l.Perm (settings.unread s.db c) := by
    intro c hcounted hopen
    obtain ⟨l, htallied, hexpected⟩ := h.tallied c hcounted
    rw [Expected, if_neg hopen, hquiet.marks, if_neg List.not_mem_nil, pendingOf, hquiet.events,
      List.filter_nil, List.append_nil] at hexpected
    exact ⟨l, htallied, hexpected hloaded⟩
  constructor
  case count =>
    intro c hcounted hopen
    obtain ⟨l, htallied, hperm⟩ := hcounts c hcounted hopen
    rw [htallied.count, hperm.length_eq]
    exact ((UnreadTables.getUnreadCounts_counted settings.name (stateKeyOf c)).trans
      (congrArg List.length (UnreadTables.unreadUnder_of_counted hcounted))).symm
  case mention =>
    intro c hcounted hopen
    obtain ⟨l, htallied, hperm⟩ := hcounts c hcounted hopen
    rw [htallied.mention, UnreadTables.answer_mentions hcounted]
    exact hperm.any_eq
  case once =>
    intro c hcounted hopen
    obtain ⟨l, htallied, hperm⟩ := hcounts c hcounted hopen
    rw [htallied.messages]
    exact hperm
  case lastTime =>
    intro c
    rw [UnreadTables.answer_lastMessageTimes]
    refine h.lastTime hloaded c ?_
    rw [shownOf, hquiet.events, List.filter_nil]

end Settled

/-- A run under a condition on its steps. -/
abbrev Run (settings : UnreadSettings) (ok : UnreadTraffic → UnreadAction → Prop) :
    UnreadTraffic → UnreadTraffic → Prop :=
  Machine (UnreadTraffic.apply settings) ok

end UnreadTraffic

/-- **The browser's unread state agrees with the server**: in every run whose steps keep the
browser in step, it shows what the server would answer whenever nothing is under way. -/
theorem unread_state_agrees {settings : UnreadSettings} {db : UnreadTables} {s : UnreadTraffic}
    (run : UnreadTraffic.Run settings (UnreadTraffic.InStep settings) { db := db } s)
    (hquiet : s.Quiet) : s.AgreesWithServer settings := by
  have hsettled : s.Settled settings :=
    run.invariant (P := UnreadTraffic.Settled settings) (fun _ _ hok h => h.apply hok)
      (UnreadTraffic.Settled.initial settings db)
  exact hsettled.agrees hquiet

end Runs

section Example

/-- A direct message of a contact that the server does not know. -/
def hello : MessageRow :=
  NewMessage.toRow
    { msgType := .priv
      text := "hello".toList
      receivedAt := 100
      conversationKey := "ab".toList
      senderTimestamp := some 100 } 1

/-- Nobody is blocked, and the radio has no name. -/
def plainSettings : UnreadSettings where
  name := none
  blockedKeys := []
  blockedNames := []
  canonicalize := lowerChar

/-- A server without messages, and a browser that waits for its first answer. -/
def freshTraffic : UnreadTraffic where
  db :=
    { messages := []
      channels := []
      contacts := []
      messageIds := List.nodup_nil
      channelKeys := List.nodup_nil
      contactKeys := List.nodup_nil }

/-- The browser loads its unread state, and a message arrives. -/
theorem unread_state_agrees_hello :
    ∃ s, UnreadTraffic.Run plainSettings (UnreadTraffic.InStep plainSettings) freshTraffic s ∧
      s.AgreesWithServer plainSettings ∧
      s.client.count (getStateKey .contact "ab".toList) = 1 := by
  have hanswered : UnreadTraffic.Run plainSettings (UnreadTraffic.InStep plainSettings)
      freshTraffic _ := Machine.single (UnreadAction.answer 0) trivial
  have hreceived := hanswered.tail (.receive 0 false) (by
    intro t ht
    obtain rfl : freshTraffic.db = t := by simpa [UnreadTraffic.apply, freshTraffic] using ht
    exact ⟨fun c _ _ => ⟨.refl _, fun hmem => absurd hmem List.not_mem_nil⟩, fun c _ => rfl⟩)
  have hstored := hreceived.tail (.store hello) (by
    refine ⟨⟨?_, fun _ => trivial, fun _ => ?_, fun _ => ?_, fun _ => ?_⟩, fun _ n hn => ?_,
      fun _ _ => ⟨List.not_mem_nil, ?_⟩⟩
    · decide +kernel
    · decide +kernel
    · decide +kernel
    · decide +kernel
    · cases hn
    · decide +kernel)
  have hdelivered := hstored.tail (.deliver true 100) fun _ _ _ _ => rfl
  exact ⟨_, hdelivered, unread_state_agrees hdelivered ⟨rfl, rfl, rfl⟩, by decide +kernel⟩

/-- The first answer already counts a message whose event is on its way. -/
def overlappingLoad : List UnreadAction :=
  [.store hello, .answer 0, .receive 0 false, .deliver true 100]

/-- The message is counted by the answer, and again by its event. -/
theorem unread_counted_twice :
    ∃ s, UnreadTraffic.Run plainSettings (fun _ _ => True) freshTraffic s ∧ s.Quiet ∧
      s.openConversation = none ∧
      s.client.count (getStateKey .contact "ab".toList) = 2 ∧
      (plainSettings.answer s.db).counts (getStateKey .contact "ab".toList) = some 1 ∧
      ¬ s.AgreesWithServer plainSettings := by
  refine ⟨overlappingLoad.foldl (UnreadTraffic.apply plainSettings) freshTraffic,
    Machine.foldl .., ⟨by decide +kernel, rfl, rfl⟩, rfl, by decide +kernel, by decide +kernel,
    fun hagrees => ?_⟩
  have hcount := hagrees.count (.priv, "ab".toList) trivial (by decide +kernel)
  revert hcount
  decide +kernel

end Example

end RemoteTerm
