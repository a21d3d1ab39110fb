import Mathlib
import RemoteTerm.Frontend.UnreadCounts
import RemoteTerm.Repository.UnreadAgreement

/-!
# What the server's answer promises to the browser

The browser relies on two promises of an unread answer: each count is that of
some messages, and the boundary of a count is the oldest of them. The query
keeps both, for the unread messages of each counted conversation.
-/

namespace RemoteTerm

open Library

/-- The state keys of the browser are those of the server. -/
theorem MessageRow.stateKey_eq (m : MessageRow) (h : m.conversationKey ≠ []) :
    m.stateKey = some (conversationStateKey m.type m.conversationKey) := by
  rw [MessageRow.stateKey, if_neg h]
  cases m.type with
  | chan => rfl
  | priv => rfl

theorem older_le (a b : MessageRow) :
    (older a b = a ∨ older a b = b) ∧ (older a b).cursor ≤ a.cursor ∧
      (older a b).cursor ≤ b.cursor := by
  unfold older
  split
  next hlt => exact ⟨Or.inr rfl, hlt.le, le_rfl⟩
  next hlt => exact ⟨Or.inl rfl, le_rfl, not_lt.mp hlt⟩

/-- The oldest of some messages is one of them, and none is older. -/
theorem oldest?_spec {l : List MessageRow} {o : MessageRow} (h : oldest? l = some o) :
    o ∈ l ∧ ∀ m ∈ l, o.cursor ≤ m.cursor := by
  cases l with
  | nil => cases h
  | cons first rest =>
      obtain rfl := Option.some.inj h
      clear h
      induction rest generalizing first with
      | nil => simp
      | cons m rest ih =>
          obtain ⟨hmem, hleast⟩ := ih (older first m)
          obtain ⟨hone, hfirst, hm⟩ := older_le first m
          rw [List.foldl_cons]
          constructor
          · rcases List.mem_cons.mp hmem with heq | hrest
            · rw [heq]
              rcases hone with h | h
              · rw [h]
                exact List.mem_cons_self
              · rw [h]
                exact List.mem_cons_of_mem _ List.mem_cons_self
            · exact List.mem_cons_of_mem _ (List.mem_cons_of_mem _ hrest)
          · have hbound := hleast _ List.mem_cons_self
            intro x hx
            rcases List.mem_cons.mp hx with rfl | hx
            · exact hbound.trans hfirst
            · rcases List.mem_cons.mp hx with rfl | hx
              · exact hbound.trans hm
              · exact hleast x (List.mem_cons_of_mem _ hx)

namespace UnreadTables

variable (db : UnreadTables) (name : Option Text) (blockedKeys blockedNames : List Text)

instance (type : MessageType) (key : Text) : Decidable (db.Counted type key) :=
  match type with
  | .chan => inferInstanceAs (Decidable (∃ c ∈ db.channels, c.key = key ∧ c.muted.getD 0 = 0))
  | .priv => isTrue trivial

/-- The conversation of a state key that is counted. -/
def countedConversation (k : Text) : Option (MessageType × Text) :=
  db.conversations.find? fun c => conversationStateKey c.1 c.2 = k ∧ db.Counted c.1 c.2

/-- The messages that the count of a state key stands for. -/
def unreadUnder (k : Text) : List MessageRow :=
  (db.countedConversation k).elim [] fun c =>
    db.unreadMessages blockedKeys blockedNames c.1 c.2

variable {db name blockedKeys blockedNames} {k : Text}

theorem countedConversation_spec {c : MessageType × Text} (h : db.countedConversation k = some c) :
    conversationStateKey c.1 c.2 = k ∧ db.Counted c.1 c.2 := by
  simpa using List.find?_some h

/-- A counted conversation with unread messages is found by its key. -/
theorem countedConversation_of_unread {type : MessageType} {key : Text}
    (hcounted : db.Counted type key)
    (hunread : db.unreadMessages blockedKeys blockedNames type key ≠ []) :
    db.countedConversation (conversationStateKey type key) = some (type, key) := by
  have hmem : (type, key) ∈ db.conversations := by
    refine mem_conversations.mpr fun hnone => hunread ?_
    rw [unreadMessages, hnone]
    rfl
  cases hfind : db.countedConversation (conversationStateKey type key) with
  | none =>
      have hnone := List.find?_eq_none.mp hfind (type, key) hmem
      simp [hcounted] at hnone
  | some c =>
      obtain ⟨htype, hkey⟩ := conversationStateKey_inj.mp (countedConversation_spec hfind).1
      rw [← htype, ← hkey]

/-- An entry of the answer belongs to the counted conversation of its key. -/
theorem toDict_unreadUnder {ν : Type} (f : UnreadRow → ν) {v : ν}
    (hv : toDict ((db.unreadRows name blockedKeys blockedNames).map fun row => (row.1, f row.2)) k =
      some v) :
    ∃ type key, db.countedConversation k = some (type, key) ∧
      db.unreadMessages blockedKeys blockedNames type key ≠ [] ∧
        v = f (db.plainRow name blockedKeys blockedNames type key) := by
  obtain ⟨type, key, rfl, hcounted, hunread, hv⟩ := (toDict_unreadRows f).mp hv
  exact ⟨type, key, countedConversation_of_unread hcounted hunread, hunread, hv⟩

/-- A conversation with unread messages has an entry. -/
theorem toDict_of_unreadUnder {ν : Type} (f : UnreadRow → ν) {c : MessageType × Text}
    (hc : db.countedConversation k = some c)
    (hunread : db.unreadMessages blockedKeys blockedNames c.1 c.2 ≠ []) :
    toDict ((db.unreadRows name blockedKeys blockedNames).map fun row => (row.1, f row.2)) k =
      some (f (db.plainRow name blockedKeys blockedNames c.1 c.2)) := by
  obtain ⟨hkey, hcounted⟩ := countedConversation_spec hc
  exact (toDict_unreadRows f).mpr ⟨c.1, c.2, hkey.symm, hcounted, hunread, rfl⟩

theorem getUnreadCounts_counted (name : Option Text) (k : Text) :
    ((db.getUnreadCounts name blockedKeys blockedNames).counts k).getD 0 =
      (db.unreadUnder blockedKeys blockedNames k).length := by
  change (toDict ((db.unreadRows name blockedKeys blockedNames).map fun row =>
    (row.1, row.2.unreadCount)) k).getD 0 = _
  cases hcount : toDict ((db.unreadRows name blockedKeys blockedNames).map fun row =>
      (row.1, row.2.unreadCount)) k with
  | some n =>
      obtain ⟨type, key, hc, -, rfl⟩ := toDict_unreadUnder UnreadRow.unreadCount hcount
      rw [unreadUnder, hc]
      rfl
  | none =>
      rw [unreadUnder]
      cases hc : db.countedConversation k with
      | none => rfl
      | some c =>
          by_cases hunread : db.unreadMessages blockedKeys blockedNames c.1 c.2 = []
          · simp [hunread]
          · rw [toDict_of_unreadUnder UnreadRow.unreadCount hc hunread] at hcount
            cases hcount

theorem getUnreadCounts_first (name : Option Text) (k : Text)
    (hne : db.unreadUnder blockedKeys blockedNames k ≠ []) :
    ((db.getUnreadCounts name blockedKeys blockedNames).firstUnreadIds k).join =
      (oldest? (db.unreadUnder blockedKeys blockedNames k)).map MessageRow.id := by
  obtain ⟨o, ho⟩ := oldest?_isSome hne
  rw [ho]
  cases hc : db.countedConversation k with
  | none =>
      rw [unreadUnder, hc] at hne
      exact absurd rfl hne
  | some c =>
      have hunder : db.unreadUnder blockedKeys blockedNames k =
          db.unreadMessages blockedKeys blockedNames c.1 c.2 := by
        rw [unreadUnder, hc]
        rfl
      rw [hunder] at hne ho
      obtain ⟨hmem, hleast⟩ := oldest?_spec ho
      have hid : some o.id = (db.plainRow name blockedKeys blockedNames c.1 c.2).firstUnreadId :=
        (plainRow_firstUnreadId hne).mpr ⟨o, hmem, hleast, rfl⟩
      change (toDict ((db.unreadRows name blockedKeys blockedNames).map fun row =>
        (row.1, row.2.firstUnreadId)) k).join = _
      rw [toDict_of_unreadUnder UnreadRow.firstUnreadId hc hne, ← hid]
      rfl

/-- **The answer of the query is a snapshot** as the browser takes it. -/
def snapshot (db : UnreadTables) (name : Option Text) (blockedKeys blockedNames : List Text) :
    UnreadSnapshot where
  counts := (db.getUnreadCounts name blockedKeys blockedNames).counts
  mentions := (db.getUnreadCounts name blockedKeys blockedNames).mentions
  lastMessageTimes := (db.getUnreadCounts name blockedKeys blockedNames).lastMessageTimes
  lastReadAts k := ((db.getUnreadCounts name blockedKeys blockedNames).lastReadAts k).join
  firstUnreadIds k := ((db.getUnreadCounts name blockedKeys blockedNames).firstUnreadIds k).join
  unread := db.unreadUnder blockedKeys blockedNames
  counted := getUnreadCounts_counted name
  first := getUnreadCounts_first name

theorem unreadUnder_of_counted {type : MessageType} {key : Text} (hcounted : db.Counted type key) :
    db.unreadUnder blockedKeys blockedNames (conversationStateKey type key) =
      db.unreadMessages blockedKeys blockedNames type key := by
  by_cases hunread : db.unreadMessages blockedKeys blockedNames type key = []
  · rw [hunread, unreadUnder]
    cases hc : db.countedConversation (conversationStateKey type key) with
    | none => rfl
    | some c =>
        obtain ⟨htype, hkey⟩ := conversationStateKey_inj.mp (countedConversation_spec hc).1
        rw [Option.elim_some, htype, hkey, hunread]
  · rw [unreadUnder, countedConversation_of_unread hcounted hunread]
    rfl

/-- **A fetched answer** shows the number of unread messages of every counted conversation that is
not open, and its divider at the oldest of them. -/
theorem applyUnreads_snapshot (s : UnreadState) {type : MessageType} {key : Text}
    (hcounted : db.Counted type key)
    (hclosed : s.activeKey ≠ some (conversationStateKey type key)) :
    (s.applyUnreads (db.snapshot name blockedKeys blockedNames)).count
        (conversationStateKey type key) =
        (db.unreadMessages blockedKeys blockedNames type key).length ∧
      (db.unreadMessages blockedKeys blockedNames type key ≠ [] →
        (s.applyUnreads (db.snapshot name blockedKeys blockedNames)).firstUnreadIds
            (conversationStateKey type key) =
          (oldest? (db.unreadMessages blockedKeys blockedNames type key)).map MessageRow.id) := by
  have hmessages : (s.applyUnreads (db.snapshot name blockedKeys blockedNames)).countedMessages
      (conversationStateKey type key) =
      db.unreadMessages blockedKeys blockedNames type key := by
    rw [← unreadUnder_of_counted hcounted, UnreadState.applyUnreads]
    cases hactive : s.activeKey with
    | none => rfl
    | some active =>
        have hne : conversationStateKey type key ≠ active := by
          intro heq
          rw [hactive, heq] at hclosed
          exact hclosed rfl
        exact Function.update_of_ne hne ..
  have hbounded : (s.applyUnreads (db.snapshot name blockedKeys blockedNames)).Bounded :=
    UnreadState.Bounded.applyUnreads _
  rw [← hmessages]
  exact ⟨hbounded.counted _, hbounded.first _⟩

end UnreadTables

end RemoteTerm
