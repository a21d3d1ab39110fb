import RemoteTerm.Library.Lock
import RemoteTerm.Services.App

/-!
# What each call leaves unchanged

Which calls write a part of the process state; every other call leaves that part
as it was. The lock under which raw packets are stored is the one call that waits.
-/

namespace RemoteTerm

open Library

namespace Op

/-- The calls that write `messages`. -/
def writesMessages : Op → Bool
  | .createMessage _ | .addPath .. | .incrementAckCount _ | .claimPrefixMessages _ => true
  | _ => false

/-- The calls that write `raw_packets`. -/
def writesRawPackets : Op → Bool
  | .createRawPacket .. | .markDecrypted .. => true
  | _ => false

/-- The calls that write `contacts`. -/
def writesContacts : Op → Bool
  | .upsertContact _ | .deleteContact _ | .updateLastContacted .. | .touchLastSeen ..
  | .updateDirectPath .. => true
  | _ => false

/-- The calls that write the pending and buffered acknowledgements. -/
def writesAcks : Op → Bool
  | .claimAck _ | .registerAck .. => true
  | _ => false

/-- How a call uses the store lock. -/
def storeLockUse : Op → LockUse
  | .acquireStoreLock => .acquire
  | .releaseStoreLock => .release
  | _ => .neither

end Op

section Frames

variable {sha256 : Bytes → Bytes} {op : Op} {s s' : App} {x : op.Ans}

theorem process_messages (h : process sha256 op s x s') (hop : op.writesMessages = false) :
    s'.messages = s.messages := by
  obtain ⟨c, hc⟩ := h
  cases op <;> simp only [Op.writesMessages, reduceCtorEq] at hop <;>
    simp only [perform] at hc <;> grind

theorem process_rawPackets (h : process sha256 op s x s') (hop : op.writesRawPackets = false) :
    s'.rawPackets = s.rawPackets := by
  obtain ⟨c, hc⟩ := h
  cases op <;> simp only [Op.writesRawPackets, reduceCtorEq] at hop <;>
    simp only [perform] at hc <;> grind

theorem process_contacts (h : process sha256 op s x s') (hop : op.writesContacts = false) :
    s'.contacts = s.contacts := by
  obtain ⟨c, hc⟩ := h
  cases op <;> simp only [Op.writesContacts, reduceCtorEq] at hop <;>
    simp only [perform] at hc <;> grind

theorem process_acks (h : process sha256 op s x s') (hop : op.writesAcks = false) :
    s'.acks = s.acks := by
  obtain ⟨c, hc⟩ := h
  cases op <;> simp only [Op.writesAcks, reduceCtorEq] at hop <;>
    simp only [perform] at hc <;> grind

theorem process_storeLock (h : process sha256 op s x s') (hop : op.storeLockUse = .neither) :
    s'.storeLock = s.storeLock := by
  obtain ⟨c, hc⟩ := h
  cases op <;> simp only [Op.storeLockUse, reduceCtorEq] at hop <;>
    simp only [perform] at hc <;> grind

end Frames

namespace Op

/-- How often a call acknowledges a message. -/
def acks : Op → Nat → Nat
  | .incrementAckCount id, messageId => if messageId = id then 1 else 0
  | _, _ => 0

end Op

/-- What a call may do to a stored row: only a conversation keyed by a prefix is renamed. -/
structure RowKept (op : Op) (r r' : MessageRow) : Prop where
  id : r'.id = r.id
  type : r'.type = r.type
  text : r'.text = r.text
  senderTimestamp : r'.senderTimestamp = r.senderTimestamp
  outgoing : r'.outgoing = r.outgoing
  conversationKey : r.conversationKey.length = 64 → r'.conversationKey = r.conversationKey
  acked : r'.acked = r.acked + op.acks r.id

theorem RowKept.refl {op : Op} {r : MessageRow} (h : op.acks r.id = 0) : RowKept op r r :=
  ⟨rfl, rfl, rfl, rfl, rfl, fun _ => rfl, by omega⟩

theorem rowKept_appendPath (id : Nat) (p : MessagePath) (r : MessageRow) :
    RowKept (.addPath id p) r (if r.id = id then MessageRepository.appendPath p r else r) := by
  split
  · exact ⟨rfl, rfl, rfl, rfl, rfl, fun _ => rfl, rfl⟩
  · exact .refl rfl

theorem rowKept_bumpAck (id : Nat) (r : MessageRow) :
    RowKept (.incrementAckCount id) r
      (if r.id = id then MessageRepository.bumpAck r else r) := by
  split
  next h =>
    refine ⟨rfl, rfl, rfl, rfl, rfl, fun _ => rfl, ?_⟩
    simp [MessageRepository.bumpAck, Op.acks, h]
  next h => exact .refl (by simp [Op.acks, h])

theorem rowKept_afterClaim (contacts : ContactTable) (fullKey : Text) (r : MessageRow) :
    RowKept (.claimPrefixMessages fullKey) r
      (MessageRepository.afterClaim contacts (lower fullKey) r) := by
  unfold MessageRepository.afterClaim
  split
  next h =>
    refine ⟨rfl, rfl, rfl, rfl, rfl, fun hlen => ?_, rfl⟩
    have hlt := (MessageRepository.isClaimed_iff.mp h).2.1
    omega
  next => exact .refl rfl

/-- A call keeps the stored rows, in order, and only an insert adds one. -/
theorem process_rows {sha256 : Bytes → Bytes} {op : Op} {s s' : App} {x : op.Ans}
    (h : process sha256 op s x s') : ∃ f added,
      s'.messages.rows = s.messages.rows.map f ++ added ∧ (∀ r, RowKept op r (f r)) ∧
        (added = [] ∨ ∃ m id, op = .createMessage m ∧ added = [m.toRow id]) := by
  cases op with
  | createMessage m =>
      obtain ⟨-, rfl⟩ := process_createMessage.mp h
      cases hc : (MessageRepository.create s.messages m).1 with
      | none =>
          refine ⟨fun r => r, [], ?_, fun r => .refl rfl, .inl rfl⟩
          simp [MessageRepository.create_of_none hc]
      | some id =>
          obtain ⟨-, hrows, -⟩ := MessageRepository.create_of_some hc
          refine ⟨fun r => r, [m.toRow s.messages.nextId], ?_, fun r => .refl rfl,
            .inr ⟨m, _, rfl, rfl⟩⟩
          simp [hrows]
  | addPath id p =>
      obtain rfl := process_addPath.mp h
      exact ⟨_, [], by simpa using MessageRepository.addPath_rows _ _ _,
        fun r => rowKept_appendPath id p r, .inl rfl⟩
  | incrementAckCount id =>
      obtain ⟨-, rfl⟩ := process_incrementAckCount.mp h
      exact ⟨_, [], by simpa using MessageRepository.incrementAckCount_rows _ _,
        fun r => rowKept_bumpAck id r, .inl rfl⟩
  | claimPrefixMessages fullKey =>
      rw [process_claimPrefixMessages] at h
      split at h
      next =>
        obtain ⟨-, rfl⟩ := h
        exact ⟨fun r => r, [], by simp, fun r => .refl rfl, .inl rfl⟩
      next n t hclaim =>
        obtain ⟨-, rfl⟩ := h
        exact ⟨_, [], by simpa using (MessageRepository.claimPrefixMessages_rows hclaim).1,
          fun r => rowKept_afterClaim s.contacts fullKey r, .inl rfl⟩
  | _ =>
      refine ⟨fun r => r, [], ?_, fun r => .refl rfl, .inl rfl⟩
      rw [process_messages h rfl]
      simp

/-- `_decrypted_dm_store_lock`. -/
def storeLock (sha256 : Bytes → Bytes) : Lock (process sha256) where
  use := Op.storeLockUse
  held := App.storeLock
  acquire_iff := by
    intro op s huse
    cases op with
    | acquireStoreLock =>
        cases hl : s.storeLock <;> simp [process, Program.Semantics.ofFunction, perform, hl]
    | _ => simp [Op.storeLockUse] at huse
  acquire_held := by
    intro op s x s' huse h
    obtain ⟨c, hc⟩ := h
    cases op <;> simp only [Op.storeLockUse, reduceCtorEq] at huse
    simp only [perform] at hc
    grind
  release_held := by
    intro op s x s' huse h
    obtain ⟨c, hc⟩ := h
    cases op <;> simp only [Op.storeLockUse, reduceCtorEq] at huse
    simp only [perform] at hc
    grind
  frame := fun huse h => process_storeLock h huse
  answers := by
    intro op s huse
    apply process_answers
    cases op <;> simp_all [Op.storeLockUse, Op.Answers]

end RemoteTerm
