import Mathlib
import RemoteTerm.Frontend.MessageIdentity
import RemoteTerm.Library.Machine
import RemoteTerm.Repository.Pagination

/-!
# Unread counts in the browser

Per conversation the browser keeps the number of unread messages, whether one of
them mentions the user, the first unread message and the time of the last one.
The server's answer replaces them; live messages, reading, renaming and removing
update them.

## Implementation notes

A JavaScript record is a function to options here, and `none` is an absent key.
The state remembers which messages each count stands for; this is not visible to
the program. An answer of the server carries the messages that it counted, and
what the server promises about them.
-/

namespace RemoteTerm

open Library

/-- The conversation types that are tracked. -/
inductive TrackedType where
  | channel
  | contact
  deriving DecidableEq, Repr

/-- `getStateKey`. -/
def getStateKey (type : TrackedType) (id : Text) : Text :=
  match type with
  | .channel => "channel-".toList ++ id
  | .contact => "contact-".toList ++ id

/-- The state key of a message that has a conversation. -/
def MessageRow.stateKey (m : MessageRow) : Option Text :=
  if m.conversationKey = [] then none
  else
    match m.type with
    | .chan => some (getStateKey .channel m.conversationKey)
    | .priv => some (getStateKey .contact m.conversationKey)

/-- `UnreadCounts`: the answer of `/unreads`. -/
structure UnreadCounts where
  counts : Text → Option Nat
  mentions : Text → Option Bool
  lastMessageTimes : Text → Option Int
  lastReadAts : Text → Option Int
  firstUnreadIds : Text → Option Nat

/-- The older of two messages, in the order of the pages. -/
def older (a b : MessageRow) : MessageRow := if b.cursor < a.cursor then b else a

/-- The oldest of some messages. -/
def oldest? : List MessageRow → Option MessageRow
  | [] => none
  | m :: rest => some (rest.foldl older m)

/-- An answer with the messages that the server counted. -/
structure UnreadSnapshot extends UnreadCounts where
  unread : Text → List MessageRow
  counted : ∀ key, (counts key).getD 0 = (unread key).length
  first : ∀ key, unread key ≠ [] → firstUnreadIds key = (oldest? (unread key)).map MessageRow.id

/-- The state of `useUnreadCounts`, the open conversation, and the messages of each count. -/
structure UnreadState where
  unreadCounts : Text → Option Nat := fun _ => none
  mentions : Text → Option Bool := fun _ => none
  lastMessageTimes : Text → Option Int := fun _ => none
  unreadLastReadAts : Text → Option Int := fun _ => none
  firstUnreadIds : Text → Option Nat := fun _ => none
  activeKey : Option Text := none
  countedMessages : Text → List MessageRow := fun _ => []

/-- What happens to the unread state. -/
inductive UnreadEvent where
  | unreads (data : UnreadSnapshot)
  | message (m : MessageRow) (isNewMessage hasMention : Bool) (now : Int)
  | openConversation (type : TrackedType) (id : Text)
  | leave
  | markAllRead
  | rename (oldStateKey newStateKey : Text)
  | remove (stateKey : Text)

namespace UnreadState

/-- A key taken out of a record. -/
def without {α : Type} (record : Text → Option α) (key : Text) : Text → Option α :=
  Function.update record key none

variable (s : UnreadState)

/-- `applyUnreads`: all but the open conversation. -/
def applyUnreads (data : UnreadSnapshot) : UnreadState where
  unreadCounts := s.activeKey.elim data.counts (without data.counts)
  mentions := s.activeKey.elim data.mentions (without data.mentions)
  lastMessageTimes key := (data.lastMessageTimes key).or (s.lastMessageTimes key)
  unreadLastReadAts := data.lastReadAts
  firstUnreadIds := data.firstUnreadIds
  activeKey := s.activeKey
  countedMessages := s.activeKey.elim data.unread fun key => Function.update data.unread key []

/-- The effect of viewing a conversation. -/
def markRead (key : Text) : UnreadState :=
  { s with
    unreadCounts := if (s.unreadCounts key).getD 0 = 0 then s.unreadCounts
      else without s.unreadCounts key
    mentions := if (s.mentions key).getD false then without s.mentions key else s.mentions
    activeKey := some key
    countedMessages := Function.update s.countedMessages key [] }

/-- `incrementUnread`. -/
def incrementUnread (stateKey : Text) (m : MessageRow) (hasMention : Bool) : UnreadState :=
  { s with
    unreadCounts := Function.update s.unreadCounts stateKey
      (some ((s.unreadCounts stateKey).getD 0 + 1))
    firstUnreadIds := Function.update s.firstUnreadIds stateKey
      (some ((s.firstUnreadIds stateKey).getD m.id))
    mentions := if hasMention then Function.update s.mentions stateKey (some true) else s.mentions
    countedMessages := Function.update s.countedMessages stateKey
      (s.countedMessages stateKey ++ [m]) }

/-- The message is added to the count of its conversation. -/
def counts (stateKey : Text) (m : MessageRow) (isNewMessage : Bool) : Bool :=
  decide (s.activeKey ≠ some stateKey) && !m.outgoing && isNewMessage

/-- `recordMessageEvent`; a message without a time gets the current one. -/
def recordMessageEvent (m : MessageRow) (isNewMessage hasMention : Bool) (now : Int) :
    UnreadState :=
  match m.stateKey with
  | none => s
  | some stateKey =>
      let timestamp := if m.receivedAt = 0 then now else m.receivedAt
      let timed := { s with
        lastMessageTimes := Function.update s.lastMessageTimes stateKey (some timestamp) }
      if s.counts stateKey m isNewMessage then timed.incrementUnread stateKey m hasMention
      else timed

/-- Move an entry of a record to a new key, by a rule for keys that both have entries. -/
def renameKey {α : Type} (merge : Option α → α → Option α) (record : Text → Option α)
    (oldStateKey newStateKey : Text) : Text → Option α :=
  match record oldStateKey with
  | none => record
  | some old =>
      without (Function.update record newStateKey (merge (record newStateKey) old)) oldStateKey

/-- `renameConversationState`. -/
def renameConversationState (oldStateKey newStateKey : Text) : UnreadState :=
  if oldStateKey = newStateKey then s
  else
    { s with
      unreadCounts := renameKey (fun new old => some (new.getD 0 + old)) s.unreadCounts
        oldStateKey newStateKey
      mentions := renameKey (fun new old => some (new.getD false || old)) s.mentions
        oldStateKey newStateKey
      firstUnreadIds := renameKey (fun new old => new.or (some old)) s.firstUnreadIds
        oldStateKey newStateKey
      lastMessageTimes := renameKey (fun new old => some (new.elim old (max old)))
        s.lastMessageTimes oldStateKey newStateKey
      countedMessages := Function.update (Function.update s.countedMessages newStateKey
        (s.countedMessages newStateKey ++ s.countedMessages oldStateKey)) oldStateKey [] }

/-- `removeConversationState`. -/
def removeConversationState (stateKey : Text) : UnreadState :=
  { s with
    unreadCounts := without s.unreadCounts stateKey
    mentions := without s.mentions stateKey
    firstUnreadIds := without s.firstUnreadIds stateKey
    unreadLastReadAts := without s.unreadLastReadAts stateKey
    countedMessages := Function.update s.countedMessages stateKey [] }

/-- `markAllRead`. -/
def markAllRead : UnreadState :=
  { s with
    unreadCounts := fun _ => none
    mentions := fun _ => none
    unreadLastReadAts := fun _ => none
    firstUnreadIds := fun _ => none
    countedMessages := fun _ => [] }

/-- The state after an event. -/
def apply : UnreadEvent → UnreadState
  | .unreads data => s.applyUnreads data
  | .message m isNewMessage hasMention now => s.recordMessageEvent m isNewMessage hasMention now
  | .openConversation type id => s.markRead (getStateKey type id)
  | .leave => { s with activeKey := none }
  | .markAllRead => s.markAllRead
  | .rename oldStateKey newStateKey => s.renameConversationState oldStateKey newStateKey
  | .remove stateKey => s.removeConversationState stateKey

/-- The number of unread messages of a conversation. -/
def count (key : Text) : Nat := (s.unreadCounts key).getD 0

end UnreadState

section Boundary

variable {s : UnreadState} {e : UnreadEvent}

theorem UnreadState.count_without (record : Text → Option Nat) (key k : Text) :
    (without record key k).getD 0 = if k = key then 0 else (record k).getD 0 := by
  by_cases hk : k = key
  · simp [without, hk]
  · simp [without, hk]

/-- Viewing a conversation sets its count to zero. -/
theorem UnreadState.count_markRead (s : UnreadState) (key k : Text) :
    (s.markRead key).count k = if k = key then 0 else s.count k := by
  unfold markRead count
  by_cases hzero : (s.unreadCounts key).getD 0 = 0
  · rw [if_pos hzero]
    by_cases hk : k = key
    · rw [if_pos hk, hk, hzero]
    · rw [if_neg hk]
  · rw [if_neg hzero]
    exact count_without s.unreadCounts key k

/-- Messages that are not older than the oldest one do not change it. -/
theorem oldest?_append {l m : List MessageRow} {o : MessageRow} (ho : oldest? l = some o)
    (h : ∀ d ∈ m, ¬ d.cursor < o.cursor) : oldest? (l ++ m) = some o := by
  cases l with
  | nil => cases ho
  | cons first rest =>
      obtain rfl := Option.some.inj ho
      rw [List.cons_append, oldest?, List.foldl_append]
      congr 1
      generalize rest.foldl older first = a at h
      induction m with
      | nil => rfl
      | cons d m ih =>
          rw [List.foldl_cons, older, if_neg (h d List.mem_cons_self)]
          exact ih fun x hx => h x (List.mem_cons_of_mem _ hx)

theorem oldest?_isSome {l : List MessageRow} (h : l ≠ []) : ∃ o, oldest? l = some o := by
  cases l with
  | nil => exact absurd rfl h
  | cons first rest => exact ⟨_, rfl⟩

/-- Every count is that of its messages, and the boundary of a count is the oldest of them. -/
structure UnreadState.Bounded (s : UnreadState) : Prop where
  counted : ∀ key, s.count key = (s.countedMessages key).length
  first : ∀ key, s.countedMessages key ≠ [] →
    s.firstUnreadIds key = (oldest? (s.countedMessages key)).map MessageRow.id

/-- No boundary is left over where messages are counted anew: a conversation that has no count
has no boundary when a message is counted for it or another conversation is renamed to it; and
what is added to a count is not older than its oldest message. -/
def NoStaleBoundary (s : UnreadState) : UnreadEvent → Prop
  | .message m isNewMessage _ _ => ∀ key ∈ m.stateKey, s.counts key m isNewMessage = true →
      (s.count key = 0 → s.firstUnreadIds key = none) ∧
        ∀ o ∈ oldest? (s.countedMessages key), ¬ m.cursor < o.cursor
  | .rename oldStateKey newStateKey => oldStateKey ≠ newStateKey → 0 < s.count oldStateKey →
      (s.count newStateKey = 0 → s.firstUnreadIds newStateKey = none) ∧
        ∀ o ∈ oldest? (s.countedMessages newStateKey), ∀ d ∈ s.countedMessages oldStateKey,
          ¬ d.cursor < o.cursor
  | _ => True

namespace UnreadState.Bounded

theorem count_eq_zero_iff (h : s.Bounded) {key : Text} :
    s.count key = 0 ↔ s.countedMessages key = [] := by
  rw [h.counted, List.length_eq_zero_iff]

theorem initial : Bounded {} where
  counted _ := rfl
  first _ h := absurd rfl h

/-- A count that is dropped drops its messages, whatever happens to its boundary. -/
theorem drop (h : s.Bounded) {key : Text} {s' : UnreadState}
    (hcounts : ∀ k, s'.count k = if k = key then 0 else s.count k)
    (hmessages : s'.countedMessages = Function.update s.countedMessages key [])
    (hfirst : ∀ k, k ≠ key → s'.firstUnreadIds k = s.firstUnreadIds k) : s'.Bounded := by
  constructor
  · intro k
    rw [hcounts, hmessages]
    by_cases hk : k = key
    · simp [hk]
    · simpa [hk] using h.counted k
  · intro k hne
    rw [hmessages] at hne ⊢
    by_cases hk : k = key
    · subst hk
      simp at hne
    · rw [Function.update_of_ne hk] at hne ⊢
      rw [hfirst k hk]
      exact h.first k hne

theorem applyUnreads (data : UnreadSnapshot) : (s.applyUnreads data).Bounded := by
  have hdata : ∀ key, (data.counts key).getD 0 = (data.unread key).length := data.counted
  cases hactive : s.activeKey with
  | none =>
      constructor
      · intro key
        simpa [count, UnreadState.applyUnreads, hactive] using hdata key
      · intro key hne
        simp only [UnreadState.applyUnreads, hactive, Option.elim_none] at hne ⊢
        exact data.first key hne
  | some active =>
      constructor
      · intro key
        by_cases hk : key = active
        · subst hk
          simp [count, UnreadState.applyUnreads, hactive, without]
        · simpa [count, UnreadState.applyUnreads, hactive, without, hk] using hdata key
      · intro key hne
        simp only [UnreadState.applyUnreads, hactive, Option.elim_some] at hne ⊢
        by_cases hk : key = active
        · subst hk
          simp at hne
        · rw [Function.update_of_ne hk] at hne ⊢
          exact data.first key hne

/-- A message that is counted extends the count of its conversation. -/
theorem incrementUnread (h : s.Bounded) {key : Text} {m : MessageRow} (hasMention : Bool)
    (hfresh : s.count key = 0 → s.firstUnreadIds key = none)
    (hlater : ∀ o ∈ oldest? (s.countedMessages key), ¬ m.cursor < o.cursor) :
    (s.incrementUnread key m hasMention).Bounded := by
  constructor
  · intro k
    by_cases hk : k = key
    · subst hk
      have hcount : (s.unreadCounts k).getD 0 = (s.countedMessages k).length := h.counted k
      simp [count, UnreadState.incrementUnread, hcount]
    · simpa [count, UnreadState.incrementUnread, hk] using h.counted k
  · intro k hne
    by_cases hk : k = key
    · subst hk
      simp only [UnreadState.incrementUnread, Function.update_self]
      by_cases hempty : s.countedMessages k = []
      · rw [hfresh (h.count_eq_zero_iff.mpr hempty), hempty]
        rfl
      · obtain ⟨o, ho⟩ := oldest?_isSome hempty
        rw [oldest?_append ho (fun d hd => by
          rw [List.mem_singleton.mp hd]
          exact hlater o ho), h.first k hempty, ho]
        rfl
    · simp only [UnreadState.incrementUnread, Function.update_of_ne hk] at hne ⊢
      exact h.first k hne

/-- The count of a renamed conversation goes to its new key. -/
theorem renameKey_count {old new k : Text} (hne : ¬ old = new) :
    (renameKey (fun n o => some (n.getD 0 + o)) s.unreadCounts old new k).getD 0 =
      if k = old then 0 else if k = new then s.count new + s.count old else s.count k := by
  unfold renameKey
  cases hold : s.unreadCounts old with
  | none =>
      by_cases hk : k = old
      · simp [hk, hold]
      · by_cases hk' : k = new
        · simp [hk', count, hold, Ne.symm hne]
        · simp [hk, hk', count]
  | some n =>
      by_cases hk : k = old
      · simp [hk, without]
      · by_cases hk' : k = new
        · simp [hk', without, count, hold, Ne.symm hne]
        · simp [hk, hk', without, count]

/-- The boundary of a renamed conversation goes to its new key, unless that has one. -/
theorem renameKey_first {old new k : Text} (hne : ¬ old = new) (hk : k ≠ old) :
    renameKey (fun n o => n.or (some o)) s.firstUnreadIds old new k =
      if k = new then (s.firstUnreadIds new).or (s.firstUnreadIds old)
      else s.firstUnreadIds k := by
  unfold renameKey
  cases hold : s.firstUnreadIds old with
  | none => by_cases hk' : k = new <;> simp [hk']
  | some n => by_cases hk' : k = new <;> simp [hk, hk', without, Ne.symm hne]

theorem renameConversationState (h : s.Bounded) {old new : Text}
    (hstale : NoStaleBoundary s (.rename old new)) :
    (s.renameConversationState old new).Bounded := by
  unfold UnreadState.renameConversationState
  split
  next => exact h
  next hne =>
    constructor
    · intro k
      rw [count]
      dsimp only
      rw [renameKey_count hne]
      by_cases hk : k = old
      · simp [hk]
      · by_cases hk' : k = new
        · simp [hk', Ne.symm hne, h.counted]
        · simp [hk, hk', h.counted]
    · intro k hmessages
      dsimp only at hmessages ⊢
      by_cases hk : k = old
      · simp [hk] at hmessages
      · rw [Function.update_of_ne hk] at hmessages ⊢
        rw [renameKey_first hne hk]
        by_cases hk' : k = new
        · subst hk'
          rw [Function.update_self] at hmessages ⊢
          rw [if_pos rfl]
          by_cases hempty : s.countedMessages old = []
          · rw [hempty, List.append_nil] at hmessages ⊢
            obtain ⟨o, ho⟩ := oldest?_isSome hmessages
            rw [h.first k hmessages, ho]
            rfl
          · have hpos : 0 < s.count old :=
              Nat.pos_of_ne_zero fun hzero => hempty (h.count_eq_zero_iff.mp hzero)
            obtain ⟨hfresh, hlater⟩ := hstale hne hpos
            by_cases hnew : s.countedMessages k = []
            · rw [hfresh (h.count_eq_zero_iff.mpr hnew), hnew, h.first old hempty]
              rfl
            · obtain ⟨o, ho⟩ := oldest?_isSome hnew
              rw [oldest?_append ho (hlater o ho), h.first k hnew, ho]
              rfl
        · rw [if_neg hk']
          rw [Function.update_of_ne hk'] at hmessages ⊢
          exact h.first k hmessages

/-- An event that meets no stale boundary keeps the boundaries right. -/
theorem apply (h : s.Bounded) (hstale : NoStaleBoundary s e) : (s.apply e).Bounded := by
  cases e with
  | unreads data => exact applyUnreads data
  | message m isNewMessage hasMention now =>
      simp only [UnreadState.apply, UnreadState.recordMessageEvent]
      split
      next => exact h
      next key hkey =>
        split
        next hcounts =>
          have htimed : ∀ times, Bounded { s with lastMessageTimes := times } :=
            fun _ => ⟨h.counted, h.first⟩
          obtain ⟨hfresh, hlater⟩ := hstale key hkey hcounts
          exact (htimed _).incrementUnread hasMention hfresh hlater
        next => exact ⟨h.counted, h.first⟩
  | openConversation type id => exact h.drop (count_markRead s _) rfl fun _ _ => rfl
  | leave => exact ⟨h.counted, h.first⟩
  | markAllRead => exact ⟨fun _ => rfl, fun _ hne => absurd rfl hne⟩
  | rename old new => exact h.renameConversationState hstale
  | remove key =>
      exact h.drop (fun k => count_without s.unreadCounts key k) rfl
        fun k hk => Function.update_of_ne hk ..

end UnreadState.Bounded

end Boundary

/-- A run of the unread state under a condition. -/
abbrev UnreadRun (ok : UnreadState → UnreadEvent → Prop) : UnreadState → UnreadState → Prop :=
  Machine UnreadState.apply ok

/-- **The divider marks the first unread message**: in every run that meets no stale boundary,
the boundary of a conversation with unread messages is the oldest message of its count. -/
theorem divider_marks_first_unread {s : UnreadState} (run : UnreadRun NoStaleBoundary {} s)
    (key : Text) (hcount : 0 < s.count key) :
    s.count key = (s.countedMessages key).length ∧
      s.firstUnreadIds key = (oldest? (s.countedMessages key)).map MessageRow.id := by
  have hbounded : s.Bounded :=
    run.invariant (P := UnreadState.Bounded) (fun u e hok hu => hu.apply hok)
      UnreadState.Bounded.initial
  refine ⟨hbounded.counted key, hbounded.first key fun hempty => ?_⟩
  rw [hbounded.count_eq_zero_iff.mpr hempty] at hcount
  exact Nat.lt_irrefl 0 hcount

section Example

/-- A channel message. -/
def channelPost (id : Nat) (receivedAt : Int) : MessageRow :=
  NewMessage.toRow
    { msgType := .chan
      text := "hi".toList
      receivedAt := receivedAt
      conversationKey := "AB".toList
      senderTimestamp := some receivedAt } id

/-- A message arrives, the channel is opened and left, and a second message arrives. -/
def rereadChannel : List UnreadEvent :=
  [.message (channelPost 1 100) true false 100, .openConversation .channel "AB".toList, .leave,
    .message (channelPost 2 200) true false 200]

/-- The boundary of the second message is still the first one. -/
theorem divider_stays_behind :
    ∃ s key, UnreadRun (fun _ _ => True) {} s ∧ s.count key = 1 ∧
      (s.countedMessages key).map MessageRow.id = [2] ∧ s.firstUnreadIds key = some 1 ∧
      s.firstUnreadIds key ≠ (oldest? (s.countedMessages key)).map MessageRow.id := by
  refine ⟨rereadChannel.foldl UnreadState.apply {}, getStateKey .channel "AB".toList,
    Machine.foldl .., ?_⟩
  decide +kernel

/-- After the first message the boundary is right. -/
theorem divider_marks_first_unread_post :
    ∃ s, UnreadRun NoStaleBoundary {} s ∧
      s.firstUnreadIds (getStateKey .channel "AB".toList) = some 1 := by
  have run : UnreadRun NoStaleBoundary {}
      (UnreadState.apply {} (.message (channelPost 1 100) true false 100)) := by
    refine Machine.single _ ?_
    intro key hkey _
    refine ⟨fun _ => rfl, fun o ho => ?_⟩
    cases ho
  have hmarks := divider_marks_first_unread run (getStateKey .channel "AB".toList)
    (by decide +kernel)
  exact ⟨_, run, hmarks.2.trans (by decide +kernel)⟩

end Example

end RemoteTerm
