import Mathlib
import RemoteTerm.Frontend.UnreadTraffic

/-!
# Unread messages on both sides

What storing a message and setting a read mark do to the unread messages of the
server, and what an event or an answer does to the messages that the browser
counts.
-/

namespace RemoteTerm

open Library

section Server

variable {settings : UnreadSettings} {db : UnreadTables} {m : MessageRow} {c : Conversation}

theorem stateKeyOf_inj {c d : Conversation} : stateKeyOf c = stateKeyOf d ↔ c = d :=
  UnreadTables.conversationStateKey_inj.trans Prod.ext_iff.symm

theorem MessageRow.stateKey_conversation (h : m.conversationKey ≠ []) :
    m.stateKey = some (stateKeyOf m.conversation) :=
  m.stateKey_eq h

theorem UnreadSettings.shown_iff :
    settings.Shown m ↔ m.outgoing = true ∨
      ¬ IsBlocked settings.blockedKeys settings.blockedNames m :=
  UnreadTables.blockedIncomingClause_iff

theorem UnreadSettings.incoming_iff :
    settings.Incoming m ↔ m.outgoing = false ∧
      ¬ IsBlocked settings.blockedKeys settings.blockedNames m := by
  rw [UnreadSettings.Incoming, UnreadSettings.shown_iff]
  refine and_congr_right fun hout => ?_
  rw [hout]
  simp

/-- A filter keeps a message or not. -/
theorem filter_message {p : MessageRow → Bool} {P : Prop} [Decidable P] (h : p m = true ↔ P) :
    [m].filter p = if P then [m] else [] := by
  by_cases hP : P
  · rw [if_pos hP, List.filter_cons_of_pos (h.mpr hP), List.filter_nil]
  · rw [if_neg hP, List.filter_cons_of_neg fun hp => hP (h.mp hp), List.filter_nil]

namespace UnreadTables

/-- The stored message is unread in its conversation if it adds to a count and is newer than the
read mark. -/
theorem unread_insert (h : m.id ∉ db.messages.map MessageRow.id) :
    settings.unread (db.insert m h) c =
      settings.unread db c ++ if m.conversation = c ∧ settings.Incoming m ∧
        db.lastReadMark c.1 c.2 < m.receivedAt then [m] else [] := by
  unfold UnreadSettings.unread unreadMessages messagesOf
  rw [show (db.insert m h).messages = db.messages ++ [m] from rfl, List.filter_append,
    List.filter_append]
  congr 1
  rw [List.filter_filter]
  apply filter_message
  simp only [Bool.and_eq_true, decide_eq_true_eq, UnreadSettings.incoming_iff,
    MessageRow.conversation, Prod.ext_iff]
  constructor
  · rintro ⟨⟨hout, hblocked, hnew⟩, htype, hkey⟩
    exact ⟨⟨htype, hkey⟩, ⟨hout, hblocked⟩, hnew⟩
  · rintro ⟨⟨htype, hkey⟩, ⟨hout, hblocked⟩, hnew⟩
    exact ⟨⟨hout, hblocked, hnew⟩, htype, hkey⟩

/-- The time of the last shown message of a conversation. -/
def shownTime (settings : UnreadSettings) (db : UnreadTables) (c : Conversation) : Option Int :=
  ((db.shownMessages settings.blockedKeys settings.blockedNames c.1 c.2).map
    MessageRow.receivedAt).max?

theorem answer_lastMessageTimes (settings : UnreadSettings) (db : UnreadTables)
    (c : Conversation) :
    (settings.answer db).lastMessageTimes (stateKeyOf c) = shownTime settings db c := by
  apply Option.ext
  intro time
  refine ((unread_query_eq_plain db settings.name settings.blockedKeys settings.blockedNames
    (stateKeyOf c)).1 time).trans ?_
  constructor
  · rintro ⟨type, key, heq, htime⟩
    obtain rfl : c = (type, key) := stateKeyOf_inj.mp heq
    exact htime
  · intro htime
    exact ⟨c.1, c.2, rfl, htime⟩

theorem shownMessages_insert (h : m.id ∉ db.messages.map MessageRow.id) :
    (db.insert m h).shownMessages settings.blockedKeys settings.blockedNames c.1 c.2 =
      db.shownMessages settings.blockedKeys settings.blockedNames c.1 c.2 ++
        if m.conversation = c ∧ settings.Shown m then [m] else [] := by
  unfold shownMessages messagesOf
  rw [show (db.insert m h).messages = db.messages ++ [m] from rfl, List.filter_append,
    List.filter_append]
  congr 1
  rw [List.filter_filter]
  apply filter_message
  simp only [Bool.and_eq_true, decide_eq_true_eq, UnreadSettings.shown_iff,
    MessageRow.conversation, Prod.ext_iff]
  exact and_comm

/-- A shown message that is not older than the others is the last one. -/
theorem shownTime_insert (h : m.id ∉ db.messages.map MessageRow.id)
    (hlast : settings.Shown m → ∀ n ∈ db.shownMessages settings.blockedKeys settings.blockedNames
      m.type m.conversationKey, n.receivedAt ≤ m.receivedAt) :
    shownTime settings (db.insert m h) c =
      if m.conversation = c ∧ settings.Shown m then some m.receivedAt
      else shownTime settings db c := by
  rw [shownTime, shownMessages_insert h]
  split_ifs with hm
  · obtain ⟨rfl, hshown⟩ := hm
    rw [List.map_append, List.map_singleton, List.max?_eq_some_iff]
    constructor
    · exact List.mem_append_right _ (List.mem_singleton.mpr rfl)
    · intro t ht
      rcases List.mem_append.mp ht with ht | ht
      · obtain ⟨n, hn, rfl⟩ := List.mem_map.mp ht
        exact hlast hshown n hn
      · exact (List.mem_singleton.mp ht).le
  · rw [List.append_nil]
    rfl

theorem markRead_messages (now : Int) : (db.markRead c now).messages = db.messages := by
  unfold markRead
  split
  next => rfl
  next => cases c.1 <;> rfl

theorem shownTime_markRead {d : Conversation} (now : Int) :
    shownTime settings (db.markRead c now) d = shownTime settings db d := by
  unfold shownTime shownMessages messagesOf
  rw [markRead_messages]

theorem counted_updateLastReadAt (type : MessageType) (key : Text) (now : Int) :
    (db.updateLastReadAt type key now).Counted c.1 c.2 ↔ db.Counted c.1 c.2 := by
  cases hc : c.1 with
  | priv => exact Iff.rfl
  | chan =>
      cases type with
      | priv => exact Iff.rfl
      | chan => simp [Counted, updateLastReadAt]

theorem counted_markRead {d : Conversation} (now : Int) :
    (db.markRead c now).Counted d.1 d.2 ↔ db.Counted d.1 d.2 := by
  unfold markRead
  split
  next => exact Iff.rfl
  next => exact counted_updateLastReadAt ..

/-- A mark does not change which channel is found by its key. -/
theorem find?_markChannel (channels : List ChannelReadState) (key key' : Text) (now : Int) :
    (channels.map (markChannel key now)).find? (fun ch => ch.key = key') =
      (channels.find? fun ch => ch.key = key').map (markChannel key now) := by
  have hkey : ((fun ch : ChannelReadState => decide (ch.key = key')) ∘ markChannel key now) =
      fun ch => decide (ch.key = key') := by
    funext ch
    simp
  rw [List.find?_map, hkey]

/-- A mark does not change which contact is found by its key. -/
theorem find?_markContact (contacts : List ContactReadState) (key key' : Text) (now : Int) :
    (contacts.map (markContact key now)).find? (fun ct => ct.publicKey = key') =
      (contacts.find? fun ct => ct.publicKey = key').map (markContact key now) := by
  have hkey : ((fun ct : ContactReadState => decide (ct.publicKey = key')) ∘ markContact key now) =
      fun ct => decide (ct.publicKey = key') := by
    funext ct
    simp
  rw [List.find?_map, hkey]

/-- A read mark changes the mark of its row. -/
theorem lastReadMark_updateLastReadAt {type type' : MessageType} {key key' : Text} (now : Int)
    (hne : (type', key') ≠ (type, key)) :
    (db.updateLastReadAt type key now).lastReadMark type' key' = db.lastReadMark type' key' := by
  unfold lastReadMark lastReadAt updateLastReadAt
  cases type with
  | chan =>
      cases type' with
      | priv => rfl
      | chan =>
          have hkey : ¬ key' = key := fun heq => hne (by rw [heq])
          dsimp only
          rw [find?_markChannel]
          cases hch : db.channels.find? fun ch => ch.key = key' with
          | none => rfl
          | some ch =>
              have hkey' : ch.key = key' := by simpa using List.find?_some hch
              simp [markChannel, hkey', hkey]
  | priv =>
      cases type' with
      | chan => rfl
      | priv =>
          have hkey : ¬ key' = key := fun heq => hne (by rw [heq])
          dsimp only
          rw [find?_markContact]
          cases hct : db.contacts.find? fun ct => ct.publicKey = key' with
          | none => rfl
          | some ct =>
              have hkey' : ct.publicKey = key' := by simpa using List.find?_some hct
              simp [markContact, hkey', hkey]

/-- The messages that are unread depend on the mark. -/
theorem unread_markRead_of_ne {d : Conversation} (now : Int)
    (htarget : ∀ key ∈ db.markTarget c, key = c.2) (hne : d ≠ c) :
    settings.unread (db.markRead c now) d = settings.unread db d := by
  have hmark : (db.markRead c now).lastReadMark d.1 d.2 = db.lastReadMark d.1 d.2 := by
    unfold markRead
    split
    next => rfl
    next key hkey =>
      refine lastReadMark_updateLastReadAt now fun heq => hne ?_
      rw [htarget key hkey] at heq
      exact heq
  unfold UnreadSettings.unread unreadMessages messagesOf
  rw [hmark, markRead_messages]

/-- A mark that is set is read back. -/
theorem lastReadMark_markRead (now : Int) (htarget : db.markTarget c = some c.2)
    (hrow : db.HasRow c) : (db.markRead c now).lastReadMark c.1 c.2 = now := by
  obtain ⟨type, key⟩ := c
  rw [markRead, htarget]
  unfold lastReadMark lastReadAt updateLastReadAt
  cases type with
  | chan =>
      obtain ⟨ch, hmem, hkey⟩ := hrow
      dsimp only
      rw [find?_markChannel]
      obtain ⟨found, hfound⟩ : ∃ found, db.channels.find? (fun ch => ch.key = key) = some found :=
        Option.isSome_iff_exists.mp (List.find?_isSome.mpr ⟨ch, hmem, by simpa using hkey⟩)
      have hfoundKey : found.key = key := by simpa using List.find?_some hfound
      rw [hfound]
      simp [markChannel, hfoundKey]
  | priv =>
      obtain ⟨ct, hmem, hkey⟩ := hrow
      dsimp only
      rw [find?_markContact]
      obtain ⟨found, hfound⟩ :
          ∃ found, db.contacts.find? (fun ct => ct.publicKey = key) = some found :=
        Option.isSome_iff_exists.mp (List.find?_isSome.mpr ⟨ct, hmem, by simpa using hkey⟩)
      have hfoundKey : found.publicKey = key := by simpa using List.find?_some hfound
      rw [hfound]
      simp [markContact, hfoundKey]

/-- A mark that is not older than its messages leaves nothing unread. -/
theorem unread_markRead (now : Int) (htarget : db.markTarget c = some c.2) (hrow : db.HasRow c)
    (hnow : ∀ m ∈ db.messagesOf c.1 c.2, m.receivedAt ≤ now) :
    settings.unread (db.markRead c now) c = [] := by
  unfold UnreadSettings.unread unreadMessages
  rw [lastReadMark_markRead now htarget hrow, List.filter_eq_nil_iff]
  intro m hm hunread
  have hmem : m ∈ db.messagesOf c.1 c.2 := by
    unfold messagesOf at hm ⊢
    rwa [markRead_messages] at hm
  exact absurd (of_decide_eq_true hunread).2.2 (not_lt.mpr (hnow m hmem))

/-- The mention flag of a counted conversation. -/
theorem answer_mentions (hcounted : db.Counted c.1 c.2) :
    ((settings.answer db).mentions (stateKeyOf c)).getD false =
      (settings.unread db c).any (mentionClause settings.name) := by
  have hentry : ∀ b, (settings.answer db).mentions (stateKeyOf c) = some b ↔
      b = true ∧ (settings.unread db c).any (mentionClause settings.name) = true := by
    intro b
    change toDict (((db.unreadRows settings.name settings.blockedKeys
      settings.blockedNames).filter fun row =>
        (mentionToken settings.name).isSome && row.2.hasMention).map fun row => (row.1, true))
          (stateKeyOf c) = some b ↔ _
    have hkeys : ((((db.unreadRows settings.name settings.blockedKeys
        settings.blockedNames).filter fun row =>
          (mentionToken settings.name).isSome && row.2.hasMention).map
            fun row => (row.1, true)).map Prod.fst).Nodup := by
      rw [List.map_map]
      exact nodup_unreadRows.sublist (List.filter_sublist.map Prod.fst)
    rw [toDict_eq_some_iff hkeys, List.mem_map]
    constructor
    · rintro ⟨row, hrow, heq⟩
      obtain ⟨hrow, hmention⟩ := List.mem_filter.mp hrow
      obtain ⟨type, key, -, -, hk, hplain⟩ := mem_unreadRows.mp hrow
      obtain rfl : c = (type, key) :=
        stateKeyOf_inj.mp ((congrArg Prod.fst heq).symm.trans hk)
      rw [Bool.and_eq_true, hplain] at hmention
      exact ⟨(congrArg Prod.snd heq).symm, hmention.2⟩
    · rintro ⟨rfl, hany⟩
      obtain ⟨m, hm, hmention⟩ := List.any_eq_true.mp hany
      refine ⟨(_, _), List.mem_filter.mpr ⟨mem_unreadRows.mpr
        ⟨c.1, c.2, hcounted, List.ne_nil_of_mem hm, rfl, rfl⟩, ?_⟩, rfl⟩
      rw [Bool.and_eq_true]
      refine ⟨?_, hany⟩
      cases htoken : mentionToken settings.name with
      | some token => rfl
      | none =>
          rw [mentionClause, htoken] at hmention
          cases hmention
  cases hflag : (settings.answer db).mentions (stateKeyOf c) with
  | some b =>
      obtain ⟨rfl, hany⟩ := (hentry b).mp hflag
      exact hany.symm
  | none =>
      symm
      rw [Option.getD_none, Bool.eq_false_iff]
      intro hany
      rw [(hentry true).mpr ⟨rfl, hany⟩] at hflag
      cases hflag

end UnreadTables

end Server

section Browser

variable {settings : UnreadSettings} {u : UnreadState} {k key : Text} {l : List MessageRow}
  {m : MessageRow}

/-- What the browser shows of a conversation stands for these messages. -/
structure Tallied (settings : UnreadSettings) (u : UnreadState) (k : Text)
    (l : List MessageRow) : Prop where
  messages : u.countedMessages k = l
  count : u.count k = l.length
  mention : (u.mentions k).getD false = l.any (UnreadTables.mentionClause settings.name)

namespace Tallied

theorem initial : Tallied settings {} k [] := ⟨rfl, rfl, rfl⟩

/-- Nothing else of the state is read. -/
theorem congr (h : Tallied settings u k l) {u' : UnreadState}
    (hmessages : u'.countedMessages = u.countedMessages)
    (hcounts : u'.unreadCounts = u.unreadCounts) (hmentions : u'.mentions = u.mentions) :
    Tallied settings u' k l := by
  refine ⟨by rw [hmessages, h.messages], ?_, by rw [hmentions, h.mention]⟩
  rw [UnreadState.count, hcounts]
  exact h.count

theorem markRead (h : Tallied settings u k l) :
    Tallied settings (u.markRead key) k (if k = key then [] else l) := by
  refine ⟨?_, ?_, ?_⟩
  · unfold UnreadState.markRead
    dsimp only
    by_cases hk : k = key
    · rw [if_pos hk, hk, Function.update_self]
    · rw [if_neg hk, Function.update_of_ne hk, h.messages]
  · rw [UnreadState.count_markRead]
    by_cases hk : k = key
    · rw [if_pos hk, if_pos hk, List.length_nil]
    · rw [if_neg hk, if_neg hk, h.count]
  · unfold UnreadState.markRead UnreadState.without
    dsimp only
    by_cases hk : k = key
    · subst hk
      rw [if_pos rfl]
      split_ifs with hflag
      · rw [Function.update_self]
        rfl
      · rw [Bool.eq_false_iff.mpr hflag]
        rfl
    · rw [if_neg hk]
      split_ifs
      · rw [Function.update_of_ne hk, h.mention]
      · exact h.mention

theorem incrementUnread (h : Tallied settings u k l) {hasMention : Bool}
    (hmention : hasMention = UnreadTables.mentionClause settings.name m) :
    Tallied settings (u.incrementUnread key m hasMention) k (if k = key then l ++ [m] else l) := by
  by_cases hk : k = key
  · subst hk
    have hcount : (u.unreadCounts k).getD 0 = l.length := h.count
    rw [if_pos rfl]
    refine ⟨?_, ?_, ?_⟩
    · simp [UnreadState.incrementUnread, h.messages]
    · simp [UnreadState.count, UnreadState.incrementUnread, hcount]
    · rw [List.any_append, List.any_cons, List.any_nil, Bool.or_false, ← hmention, ← h.mention]
      cases hasMention
      · simp [UnreadState.incrementUnread]
      · simp [UnreadState.incrementUnread]
  · rw [if_neg hk]
    refine ⟨?_, ?_, ?_⟩
    · simp [UnreadState.incrementUnread, hk, h.messages]
    · simpa [UnreadState.count, UnreadState.incrementUnread, hk] using h.count
    · cases hasMention
      · simpa [UnreadState.incrementUnread] using h.mention
      · simpa [UnreadState.incrementUnread, hk] using h.mention

/-- A message event of another conversation, or one that is counted. -/
theorem recordMessageEvent (h : Tallied settings u k l) {isNewMessage hasMention : Bool}
    (hkey : m.stateKey = some key) (now : Int)
    (hmention : u.counts key m isNewMessage = true →
      hasMention = UnreadTables.mentionClause settings.name m) :
    Tallied settings (u.recordMessageEvent m isNewMessage hasMention now) k
      (if k = key ∧ u.counts key m isNewMessage = true then l ++ [m] else l) := by
  unfold UnreadState.recordMessageEvent
  rw [hkey]
  dsimp only
  have htimed : ∀ times, Tallied settings { u with lastMessageTimes := times } k l :=
    fun _ => h.congr rfl rfl rfl
  by_cases hcounts : u.counts key m isNewMessage = true
  · rw [if_pos hcounts]
    simpa [hcounts] using (htimed _).incrementUnread (hmention hcounts)
  · have hother : ¬ (k = key ∧ u.counts key m isNewMessage = true) := fun hboth => hcounts hboth.2
    rw [if_neg hcounts, if_neg hother]
    exact htimed _

/-- An answer shows the unread messages of its tables, but for the open conversation. -/
theorem applyUnreads {t : UnreadTables} {c : Conversation} (hcounted : t.Counted c.1 c.2) :
    Tallied settings
      (u.applyUnreads (t.snapshot settings.name settings.blockedKeys settings.blockedNames))
      (stateKeyOf c) (if u.activeKey = some (stateKeyOf c) then [] else settings.unread t c) := by
  have hunread : (t.snapshot settings.name settings.blockedKeys settings.blockedNames).unread
      (stateKeyOf c) = settings.unread t c := UnreadTables.unreadUnder_of_counted hcounted
  have hcount := (t.snapshot settings.name settings.blockedKeys settings.blockedNames).counted
    (stateKeyOf c)
  have hmention : ((t.snapshot settings.name settings.blockedKeys settings.blockedNames).mentions
      (stateKeyOf c)).getD false =
      (settings.unread t c).any (UnreadTables.mentionClause settings.name) :=
    UnreadTables.answer_mentions hcounted
  unfold UnreadState.applyUnreads
  cases hactive : u.activeKey with
  | none =>
      rw [if_neg (by simp)]
      refine ⟨hunread, ?_, hmention⟩
      rw [← hunread]
      exact hcount
  | some active =>
      by_cases hk : stateKeyOf c = active
      · rw [if_pos (by rw [hk])]
        subst hk
        refine ⟨Function.update_self .., ?_, ?_⟩
        · simp [UnreadState.count, UnreadState.without]
        · simp [UnreadState.without]
      · rw [if_neg (by simpa using Ne.symm hk)]
        refine ⟨?_, ?_, ?_⟩
        · exact (Function.update_of_ne hk ..).trans hunread
        · rw [← hunread]
          simpa [UnreadState.count, UnreadState.without, hk] using hcount
        · simpa [UnreadState.without, hk] using hmention

end Tallied

/-- A shown message with a time sets the last time of its conversation, and no other. -/
theorem lastMessageTimes_recordMessageEvent {isNewMessage hasMention : Bool}
    (hkey : m.stateKey = some key) (hstamped : m.receivedAt ≠ 0) (now : Int) :
    (u.recordMessageEvent m isNewMessage hasMention now).lastMessageTimes =
      Function.update u.lastMessageTimes key (some m.receivedAt) := by
  unfold UnreadState.recordMessageEvent
  rw [hkey]
  dsimp only
  rw [if_neg hstamped]
  split <;> rfl

/-- A message event leaves the open conversation as it is. -/
theorem UnreadState.recordMessageEvent_activeKey (u : UnreadState) (m : MessageRow)
    (isNewMessage hasMention : Bool) (now : Int) :
    (u.recordMessageEvent m isNewMessage hasMention now).activeKey = u.activeKey := by
  unfold UnreadState.recordMessageEvent
  split
  next => rfl
  next =>
    dsimp only
    split <;> rfl

end Browser

end RemoteTerm
