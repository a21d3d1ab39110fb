import Mathlib
import RemoteTerm.Frontend.AckDisplay

/-!
# Rows with bounded acks

Every row of the browser, shown or cached, is a row of the server but for its
acks. The acks lie between two bounds, which a report raises together with the
rows of its message.

## Implementation notes

The table has the parts of the server's rows that stay as they are.
-/

namespace RemoteTerm

open Library

section Rows

variable {f : Message → Message} {id : Nat} {l : List Message}

/-- The rows after one of them is replaced. -/
theorem mem_replaceMessage (hnodup : (l.map fun m => m.id).Nodup) {n : Message}
    (h : n ∈ replaceMessage l id f) :
    (n ∈ l ∧ n.id ≠ id) ∨ ∃ m ∈ l, m.id = id ∧ n = f m := by
  induction l with
  | nil => cases h
  | cons m rest ih =>
      rw [List.map_cons, List.nodup_cons] at hnodup
      unfold replaceMessage at h
      split at h
      next hid =>
        rcases List.mem_cons.mp h with rfl | hrest
        · exact Or.inr ⟨m, List.mem_cons_self, hid, rfl⟩
        · refine Or.inl ⟨List.mem_cons_of_mem _ hrest, fun heq => hnodup.1 ?_⟩
          rw [hid, ← heq]
          exact List.mem_map_of_mem hrest
      next hid =>
        rcases List.mem_cons.mp h with rfl | hrest
        · exact Or.inl ⟨List.mem_cons_self, hid⟩
        · rcases ih hnodup.2 hrest with ⟨hmem, hne⟩ | ⟨m', hmem, hid', rfl⟩
          · exact Or.inl ⟨List.mem_cons_of_mem _ hmem, hne⟩
          · exact Or.inr ⟨m', List.mem_cons_of_mem _ hmem, hid', rfl⟩

theorem eq_of_id_eq (hnodup : (l.map fun m => m.id).Nodup) {m n : Message} (hm : m ∈ l)
    (hn : n ∈ l) (hid : m.id = n.id) : m = n :=
  List.inj_on_of_nodup_map hnodup hm hn hid

end Rows

section Pending

variable {acks acks' : PendingAcks} {m : Message}

theorem applyPendingAck_id (acks : PendingAcks) (m : Message) :
    (acks.applyPendingAck m).1.id = m.id := by
  unfold PendingAcks.applyPendingAck
  split <;> rfl

theorem applyPendingAck_conversationKey (acks : PendingAcks) (m : Message) :
    (acks.applyPendingAck m).1.conversationKey = m.conversationKey := by
  unfold PendingAcks.applyPendingAck
  split <;> rfl

/-- A pending ack is applied once. -/
theorem applyPendingAck_twice (acks : PendingAcks) (m : Message) :
    (acks.applyPendingAck m).2.applyPendingAck (acks.applyPendingAck m).1 =
      acks.applyPendingAck m := by
  cases hget : acks.get? m.id with
  | none =>
      have honce : acks.applyPendingAck m = (m, acks) := by
        unfold PendingAcks.applyPendingAck
        rw [hget]
      rw [honce, honce]
  | some p =>
      have honce : acks.applyPendingAck m =
          (m.withAck p.ackCount p.paths p.packetId, acks.pop m.id) := by
        unfold PendingAcks.applyPendingAck
        rw [hget]
      rw [honce]
      unfold PendingAcks.applyPendingAck
      rw [Message.withAck_id, acks.get?_pop_self]

/-- Pending acks are used up or stay. -/
theorem applyPendingAck_get? {id : Nat} {p : PendingAckUpdate}
    (h : (acks.applyPendingAck m).2.get? id = some p) : acks.get? id = some p := by
  unfold PendingAcks.applyPendingAck at h
  split at h
  next => exact h
  next => exact ((acks.get?_pop_eq_some_iff).mp h).2

theorem applyPendingAck_acked_bound {bound : Nat} (hm : m.acked ≤ bound)
    (hacks : ∀ p, acks.get? m.id = some p → p.ackCount ≤ bound) :
    (acks.applyPendingAck m).1.acked ≤ bound := by
  unfold PendingAcks.applyPendingAck
  split
  next => exact hm
  next p hp => exact max_le hm (hacks p hp)

/-- A page takes its pending acks row by row. -/
theorem applyPendingAcks_spec (acks : PendingAcks) {rows : List Message}
    (hnodup : (rows.map fun m => m.id).Nodup) :
    (acks.applyPendingAcks rows).1 = rows.map (fun m => (acks.applyPendingAck m).1) ∧
      ∀ id p, (acks.applyPendingAcks rows).2.get? id = some p → acks.get? id = some p := by
  induction rows generalizing acks with
  | nil => exact ⟨rfl, fun _ _ h => h⟩
  | cons m rest ih =>
      rw [List.map_cons, List.nodup_cons] at hnodup
      obtain ⟨hrows, hget⟩ := ih (acks.applyPendingAck m).2 hnodup.2
      have hsame : ∀ n ∈ rest, ((acks.applyPendingAck m).2.applyPendingAck n).1 =
          (acks.applyPendingAck n).1 := by
        intro n hn
        have hne : n.id ≠ m.id := fun heq => hnodup.1 (heq ▸ List.mem_map_of_mem hn)
        unfold PendingAcks.applyPendingAck
        cases acks.get? m.id with
        | none => rfl
        | some p =>
            dsimp only
            rw [acks.get?_pop_of_ne hne]
            cases acks.get? n.id <;> rfl
      constructor
      · rw [PendingAcks.applyPendingAcks, List.map_cons]
        dsimp only
        rw [hrows]
        exact congrArg _ (List.map_congr_left hsame)
      · intro id p h
        exact applyPendingAck_get? (hget id p h)

/-- A merged pending ack counts one of the two. -/
theorem mergePendingAck_ackCount (existing : Option PendingAckUpdate) (ackCount : Nat)
    (paths : Option (List MessagePath)) (packetId : Option (Option Nat)) :
    (mergePendingAck existing ackCount paths packetId).ackCount = ackCount ∨
      ∃ p, existing = some p ∧
        (mergePendingAck existing ackCount paths packetId).ackCount = p.ackCount := by
  cases existing with
  | none => exact Or.inl rfl
  | some p =>
      have hone : (mergePendingAck (some p) ackCount paths packetId).ackCount = ackCount ∨
          (mergePendingAck (some p) ackCount paths packetId).ackCount = p.ackCount := by
        cases paths <;> unfold mergePendingAck <;> dsimp only <;> split_ifs <;> simp
      exact hone.imp_right fun heq => ⟨p, rfl, heq⟩

/-- A pending ack after a report is an old one or bounded by the report. -/
theorem setPendingAck_bound {bound : Nat → Nat} {messageId ackCount : Nat}
    {paths : Option (List MessagePath)} {packetId : Option (Option Nat)}
    (hacks : ∀ id p, acks.get? id = some p → p.ackCount ≤ bound id)
    (hnew : ackCount ≤ bound messageId) {id : Nat} {p : PendingAckUpdate}
    (h : (acks.setPendingAck messageId ackCount paths packetId).get? id = some p) :
    p.ackCount ≤ bound id := by
  have hmerged : (mergePendingAck (acks.get? messageId) ackCount paths packetId).ackCount ≤
      bound messageId := by
    rcases mergePendingAck_ackCount (acks.get? messageId) ackCount paths packetId with heq | hold
    · rw [heq]
      exact hnew
    · obtain ⟨q, hq, heq⟩ := hold
      rw [heq]
      exact hacks messageId q hq
  have hupdated : ∀ id p, ((acks.pop messageId).set messageId
      (mergePendingAck (acks.get? messageId) ackCount paths packetId)).get? id = some p →
      p.ackCount ≤ bound id := by
    intro id p hp
    rcases (OrderedMap.get?_set_eq_some_iff _).mp hp with ⟨rfl, rfl⟩ | ⟨-, hp⟩
    · exact hmerged
    · exact hacks id p ((acks.get?_pop_eq_some_iff).mp hp).2
  unfold PendingAcks.setPendingAck at h
  dsimp only at h
  split at h
  next =>
    split at h
    next => exact hupdated id p ((OrderedMap.get?_pop_eq_some_iff _).mp h).2
    next => exact hupdated id p h
  next => exact hupdated id p h

end Pending

theorem uniqueAdditions_spec (seenIds : List Nat) (seenContent : List Text)
    (incoming : List Message) :
    (∀ n ∈ uniqueAdditions seenIds seenContent incoming,
        n ∈ incoming ∧ n.id ∉ seenIds ∧ n.contentKey ∉ seenContent) ∧
      ((uniqueAdditions seenIds seenContent incoming).map fun m => m.id).Nodup := by
  induction incoming generalizing seenIds seenContent with
  | nil => exact ⟨fun _ hn => absurd hn List.not_mem_nil, List.nodup_nil⟩
  | cons m rest ih =>
      unfold uniqueAdditions
      split
      next =>
        obtain ⟨hmem, hnodup⟩ := ih seenIds seenContent
        exact ⟨fun n hn => ⟨List.mem_cons_of_mem _ (hmem n hn).1, (hmem n hn).2⟩, hnodup⟩
      next hkeep =>
        obtain ⟨hmem, hnodup⟩ := ih (m.id :: seenIds) (m.contentKey :: seenContent)
        constructor
        · intro n hn
          rcases List.mem_cons.mp hn with rfl | hn
          · exact ⟨List.mem_cons_self, not_or.mp hkeep⟩
          · obtain ⟨hin, hid, hkey⟩ := hmem n hn
            exact ⟨List.mem_cons_of_mem _ hin, fun hseen => hid (List.mem_cons_of_mem _ hseen),
              fun hseen => hkey (List.mem_cons_of_mem _ hseen)⟩
        · rw [List.map_cons, List.nodup_cons]
          refine ⟨fun hid => ?_, hnodup⟩
          obtain ⟨n, hn, heq⟩ := List.mem_map.mp hid
          exact (hmem n hn).2.1 (heq ▸ List.mem_cons_self)

/-- A row of a conversation, as the table has it but for its acks, which are within bounds. -/
structure RowWithin (table : Nat → Message) (lower upper : Nat → Nat) (k : Text) (m : Message) :
    Prop where
  inside : (table m.id).conversationKey = k
  keyed : m.contentKey = (table m.id).contentKey
  lower : lower m.id ≤ m.acked
  upper : m.acked ≤ upper m.id

/-- Rows of a conversation, each of them once. -/
structure RowsWithin (table : Nat → Message) (lower upper : Nat → Nat) (k : Text)
    (rows : List Message) : Prop where
  nodup : (rows.map fun m => m.id).Nodup
  within : ∀ m ∈ rows, RowWithin table lower upper k m

/-- The entries of the cache have rows of their conversations. -/
def CacheWithin (table : Nat → Message) (lower upper : Nat → Nat)
    (cache : ConversationMessageCache) : Prop :=
  ∀ k e, cache.get? k = some e → RowsWithin table lower upper k e.messages

section Within

variable {table : Nat → Message} {lower upper upper' : Nat → Nat} {k : Text} {m : Message}
  {rows rows' : List Message} {id n : Nat}

theorem RowWithin.mono (h : RowWithin table lower upper k m) (hle : ∀ id, upper id ≤ upper' id) :
    RowWithin table lower upper' k m :=
  ⟨h.inside, h.keyed, h.lower, h.upper.trans (hle m.id)⟩

/-- A report about another message. -/
theorem RowWithin.skip (h : RowWithin table lower upper k m) (hne : m.id ≠ id) :
    RowWithin table (Function.update lower id (max (lower id) n)) upper k m := by
  refine ⟨h.inside, h.keyed, ?_, h.upper⟩
  rw [Function.update_of_ne hne]
  exact h.lower

/-- A report about the message. -/
theorem RowWithin.ack (h : RowWithin table lower upper k m) (hid : m.id = id)
    (hn : n ≤ upper id) (paths : Option (List MessagePath)) (packetId : Option (Option Nat)) :
    RowWithin table (Function.update lower id (max (lower id) n)) upper k
      (m.withAck n paths packetId) := by
  subst hid
  refine ⟨h.inside, h.keyed, ?_, max_le h.upper hn⟩
  rw [Message.withAck_id, Function.update_self]
  exact max_le_max h.lower le_rfl

theorem RowsWithin.mono (h : RowsWithin table lower upper k rows)
    (hle : ∀ id, upper id ≤ upper' id) : RowsWithin table lower upper' k rows :=
  ⟨h.nodup, fun m hm => (h.within m hm).mono hle⟩

theorem RowsWithin.single (h : RowWithin table lower upper k m) :
    RowsWithin table lower upper k [m] :=
  ⟨List.pairwise_singleton _ _, List.forall_mem_singleton.mpr h⟩

theorem RowsWithin.subperm (h : RowsWithin table lower upper k rows) (hsub : rows'.Subperm rows) :
    RowsWithin table lower upper k rows' := by
  obtain ⟨kept, hperm, hkept⟩ := hsub
  refine ⟨(hperm.map _).nodup_iff.mp (h.nodup.sublist (hkept.map _)), fun m hm => ?_⟩
  exact h.within m (hkept.subset (hperm.mem_iff.mpr hm))

theorem RowsWithin.append (h : RowsWithin table lower upper k rows)
    (h' : RowsWithin table lower upper k rows')
    (hdisjoint : ∀ m ∈ rows', m.id ∉ rows.map fun m => m.id) :
    RowsWithin table lower upper k (rows ++ rows') := by
  constructor
  · rw [List.map_append, List.nodup_append]
    refine ⟨h.nodup, h'.nodup, fun a ha b hb heq => ?_⟩
    obtain ⟨m, hm, rfl⟩ := List.mem_map.mp hb
    exact hdisjoint m hm (heq ▸ ha)
  · intro m hm
    exact (List.mem_append.mp hm).elim (h.within m) (h'.within m)

theorem RowsWithin.skip (h : RowsWithin table lower upper k rows)
    (hout : id ∉ rows.map fun m => m.id) :
    RowsWithin table (Function.update lower id (max (lower id) n)) upper k rows :=
  ⟨h.nodup, fun m hm => (h.within m hm).skip fun heq => hout (heq ▸ List.mem_map_of_mem hm)⟩

/-- The report of an ack raises the row of its message. -/
theorem RowsWithin.ack (h : RowsWithin table lower upper k rows) (hn : n ≤ upper id)
    (paths : Message → Option (List MessagePath)) (packetId : Option (Option Nat)) :
    RowsWithin table (Function.update lower id (max (lower id) n)) upper k
      (replaceMessage rows id fun m => m.withAck n (paths m) packetId) := by
  constructor
  · rw [replaceMessage_map (fun m => m.withAck_id n (paths m) packetId)]
    exact h.nodup
  · intro m hm
    rcases mem_replaceMessage h.nodup hm with ⟨hold, hne⟩ | ⟨old, hold, hid, rfl⟩
    · exact (h.within m hold).skip hne
    · exact (h.within old hold).ack hid hn _ _

end Within


section Cache

variable {table : Nat → Message} {lower upper : Nat → Nat} {cache : ConversationMessageCache}
  {k : Text} {m : Message} {id n : Nat}

theorem CacheWithin.pop (h : CacheWithin table lower upper cache) (k : Text) :
    CacheWithin table lower upper (cache.pop k) :=
  fun k' e he => h k' e (cache.get?_pop_eq_some_iff.mp he).2

theorem CacheWithin.set (h : CacheWithin table lower upper cache)
    {e : InternalCachedConversationEntry} (he : RowsWithin table lower upper k e.messages) :
    CacheWithin table lower upper (cache.set k e) := by
  intro k' e' hget
  rcases (cache.get?_set_eq_some_iff).mp hget with ⟨rfl, rfl⟩ | ⟨-, hold⟩
  · exact he
  · exact h k' e' hold

theorem CacheWithin.evict (h : CacheWithin table lower upper cache) :
    CacheWithin table lower upper (ConversationMessageCache.evict cache) := by
  unfold ConversationMessageCache.evict
  split
  next =>
    split
    next => exact h.pop _
    next => exact h
  next => exact h

/-- A normalized entry keeps some of its messages. -/
theorem RowsWithin.normalized {entry : CachedConversationEntry}
    (h : RowsWithin table lower upper k entry.messages) :
    RowsWithin table lower upper k (ConversationMessageCache.normalizeEntry entry).messages := by
  unfold ConversationMessageCache.normalizeEntry
  split
  next =>
    exact h.subperm ((List.take_sublist _ _).subperm.trans (List.mergeSort_perm _ _).subperm)
  next => exact h

theorem CacheWithin.store (h : CacheWithin table lower upper cache)
    {entry : CachedConversationEntry} (he : RowsWithin table lower upper k entry.messages) :
    CacheWithin table lower upper (ConversationMessageCache.store cache k entry) :=
  ((h.pop k).set he.normalized).evict

/-- A message that its entry does not have is added. -/
theorem CacheWithin.addMessage (h : CacheWithin table lower upper cache)
    (hm : (∀ e, cache.get? k = some e →
      m.contentKey ∉ e.contentKeys ∧ m.id ∉ e.messages.map fun n => n.id) →
      RowWithin table lower upper k m) :
    CacheWithin table lower upper (ConversationMessageCache.addMessage cache k m).2 := by
  unfold ConversationMessageCache.addMessage
  split
  next hnone =>
    have hnew : RowWithin table lower upper k m := by
      refine hm fun e he => ?_
      rw [hnone] at he
      cases he
    exact (h.set (RowsWithin.single hnew)).evict
  next entry hentry =>
    split_ifs with hseen hid
    · exact h
    · exact h
    · have hnew : RowWithin table lower upper k m := by
        refine hm fun e he => ?_
        rw [hentry] at he
        rw [← Option.some.inj he]
        exact ⟨hseen, hid⟩
      refine (h.pop k).set (RowsWithin.normalized ?_)
      exact (h k entry hentry).append (RowsWithin.single hnew) (List.forall_mem_singleton.mpr hid)

/-- The report of an ack raises the cached row of its message. -/
theorem CacheWithin.updateAck (h : CacheWithin table lower upper cache) (hn : n ≤ upper id)
    (paths : Option (List MessagePath)) (packetId : Option (Option Nat)) :
    CacheWithin table (Function.update lower id (max (lower id) n)) upper
      (ConversationMessageCache.updateAck cache id n paths packetId) := by
  unfold ConversationMessageCache.updateAck
  split
  next hnone =>
    intro k e he
    refine (h k e he).skip fun hid => ?_
    obtain ⟨m, hm, heq⟩ := List.mem_map.mp hid
    have hnot := List.find?_eq_none.mp hnone (k, e) ((cache.get?_eq_some_iff).mp he)
    exact hnot (List.any_eq_true.mpr ⟨m, hm, decide_eq_true heq⟩)
  next holder entry hfound =>
    have hget : cache.get? holder = some entry :=
      (cache.get?_eq_some_iff).mpr (List.mem_of_find?_eq_some hfound)
    have hany : (entry.messages.any fun m => decide (m.id = id)) = true :=
      List.find?_some (p := fun e : Text × InternalCachedConversationEntry =>
        e.2.messages.any fun m => decide (m.id = id)) hfound
    obtain ⟨held, hheld, hid⟩ := List.any_eq_true.mp hany
    have hinside := ((h holder entry hget).within held hheld).inside
    rw [of_decide_eq_true hid] at hinside
    intro k e he
    rcases (cache.get?_set_eq_some_iff).mp he with ⟨rfl, rfl⟩ | ⟨hne, hold⟩
    · exact (h k entry hget).ack hn _ packetId
    · refine (h k e hold).skip fun hid => ?_
      obtain ⟨m, hm, heq⟩ := List.mem_map.mp hid
      have hk := ((h k e hold).within m hm).inside
      rw [heq, hinside] at hk
      exact hne hk.symm

end Cache

end RemoteTerm
