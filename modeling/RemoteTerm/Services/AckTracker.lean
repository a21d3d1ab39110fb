import RemoteTerm.Library.OrderedMap
import RemoteTerm.Library.Text

/-!
# Pending acknowledgements

`dm_ack_tracker`: expected ACK codes of outgoing direct messages, and ACK codes
that arrived before anybody expected them.

## Implementation notes

Times are milliseconds. Each definition is a stretch of code without an `await`
and so runs without interruption.
-/

namespace RemoteTerm

open Library

/-- `PendingAck`. -/
structure PendingAck where
  messageId : Nat
  createdAt : Int
  timeoutMs : Int
  deriving DecidableEq

/-- `BUFFERED_ACK_TTL_SECONDS`. -/
def bufferedAckTtlMs : Int := 30000

/-- `_pending_acks` and `_buffered_acks`. -/
structure AckTracker where
  pendingAcks : OrderedMap Text PendingAck
  bufferedAcks : OrderedMap Text Int

namespace AckTracker

/-- The tracker at start-up. -/
def empty : AckTracker := ⟨.empty, .empty⟩

/-- `track_pending_ack`: `true` when the code was already observed and buffered. -/
def trackPendingAck (a : AckTracker) (expectedAck : Text) (messageId : Nat) (timeoutMs now : Int) :
    Bool × AckTracker :=
  match a.bufferedAcks.get? expectedAck with
  | some _ => (true, { a with bufferedAcks := a.bufferedAcks.pop expectedAck })
  | none =>
      (false, { a with pendingAcks := a.pendingAcks.set expectedAck ⟨messageId, now, timeoutMs⟩ })

/-- `buffer_unmatched_ack`. -/
def bufferUnmatchedAck (a : AckTracker) (ackCode : Text) (now : Int) : AckTracker :=
  { a with bufferedAcks := a.bufferedAcks.set ackCode now }

/-- `cleanup_expired_acks`. -/
def cleanupExpiredAcks (a : AckTracker) (now : Int) : AckTracker where
  pendingAcks := a.pendingAcks.filter fun _ p => !decide (now - p.createdAt > p.timeoutMs * 2)
  bufferedAcks := a.bufferedAcks.filter fun _ at_ => !decide (now - at_ > bufferedAckTtlMs)

/-- `pop_pending_ack`. -/
def popPendingAck (a : AckTracker) (ackCode : Text) : Option Nat × AckTracker :=
  ((a.pendingAcks.get? ackCode).map PendingAck.messageId,
    { a with pendingAcks := a.pendingAcks.pop ackCode })

/-- `clear_pending_acks_for_message`. -/
def clearPendingAcksForMessage (a : AckTracker) (messageId : Nat) : AckTracker :=
  { a with pendingAcks := a.pendingAcks.filter fun _ p => p.messageId ≠ messageId }

/-- `apply_dm_ack_code` up to its `await`: the message whose ack is due, if any. -/
def claimAck (a : AckTracker) (ackCode : Text) (now : Int) : Option Nat × AckTracker :=
  match (a.cleanupExpiredAcks now).popPendingAck ackCode with
  | (none, a') => (none, a'.bufferUnmatchedAck ackCode now)
  | (some messageId, a') => (some messageId, a'.clearPendingAcksForMessage messageId)

/-- `_apply_direct_message_ack_tracking` up to its `await`: whether the ack is due. -/
def registerAck (a : AckTracker) (ackCode : Text) (messageId : Nat) (timeoutMs now : Int) :
    Bool × AckTracker :=
  match a.trackPendingAck ackCode messageId timeoutMs now with
  | (true, a') => (true, a'.clearPendingAcksForMessage messageId)
  | (false, a') => (false, a')

/-- Some code is still expected for a message. -/
def Expects (a : AckTracker) (messageId : Nat) : Prop :=
  ∃ code p, a.pendingAcks.get? code = some p ∧ p.messageId = messageId

theorem not_expects_clear (a : AckTracker) (messageId : Nat) :
    ¬ (a.clearPendingAcksForMessage messageId).Expects messageId := by
  rintro ⟨code, p, hp, hm⟩
  simp only [clearPendingAcksForMessage, OrderedMap.get?_filter, Option.filter_eq_some_iff] at hp
  simp [hm] at hp

/-- Forgetting codes makes no message expected. -/
theorem Expects.of_filter {a : AckTracker} {f : Text → PendingAck → Bool} {messageId : Nat}
    {buffered : OrderedMap Text Int}
    (h : Expects ⟨a.pendingAcks.filter f, buffered⟩ messageId) : a.Expects messageId := by
  obtain ⟨code, p, hp, hm⟩ := h
  simp only [OrderedMap.get?_filter, Option.filter_eq_some_iff] at hp
  exact ⟨code, p, hp.1, hm⟩

/-- Claiming an ack expects no new message; the message it is for was expected
before and is not any more. -/
theorem claimAck_spec {a a' : AckTracker} {ackCode : Text} {now : Int} {due : Option Nat}
    (h : a.claimAck ackCode now = (due, a')) :
    (∀ m, a'.Expects m → a.Expects m) ∧ ∀ m, due = some m → a.Expects m ∧ ¬ a'.Expects m := by
  simp only [claimAck, popPendingAck] at h
  cases hg : (a.cleanupExpiredAcks now).pendingAcks.get? ackCode with
  | none =>
      simp only [hg, Option.map_none, Prod.mk.injEq] at h
      obtain ⟨rfl, rfl⟩ := h
      refine ⟨fun m hm => ?_, by simp⟩
      exact Expects.of_filter (Expects.of_filter (a := a.cleanupExpiredAcks now) hm)
  | some p =>
      simp only [hg, Option.map_some, Prod.mk.injEq] at h
      obtain ⟨rfl, rfl⟩ := h
      refine ⟨fun m hm => ?_, ?_⟩
      · exact Expects.of_filter (Expects.of_filter (a := a.cleanupExpiredAcks now)
          (Expects.of_filter (a := ⟨(a.cleanupExpiredAcks now).pendingAcks.pop ackCode, _⟩) hm))
      · rintro m hm
        obtain rfl := Option.some.inj hm
        refine ⟨?_, not_expects_clear _ _⟩
        exact Expects.of_filter (a := a) ⟨ackCode, p, hg, rfl⟩

/-- Registering a code expects at most its own message, and none when the ack is due. -/
theorem registerAck_spec {a a' : AckTracker} {ackCode : Text} {messageId : Nat}
    {timeoutMs now : Int} {due : Bool}
    (h : a.registerAck ackCode messageId timeoutMs now = (due, a')) :
    (∀ m, m ≠ messageId → a'.Expects m → a.Expects m) ∧
      (due = true → ¬ a'.Expects messageId) := by
  simp only [registerAck, trackPendingAck] at h
  cases hg : a.bufferedAcks.get? ackCode with
  | some _ =>
      simp only [hg, Prod.mk.injEq] at h
      obtain ⟨rfl, rfl⟩ := h
      exact ⟨fun m _ hm => Expects.of_filter hm, fun _ => not_expects_clear _ _⟩
  | none =>
      simp only [hg, Prod.mk.injEq] at h
      obtain ⟨rfl, rfl⟩ := h
      refine ⟨?_, by simp⟩
      rintro m hne ⟨code, p, hp, rfl⟩
      by_cases hc : code = ackCode
      · subst hc
        simp only [OrderedMap.get?_set_self, Option.some.injEq] at hp
        exact absurd (hp ▸ rfl) hne
      · rw [OrderedMap.get?_set_of_ne _ _ hc] at hp
        exact ⟨code, p, hp, rfl⟩

end AckTracker

end RemoteTerm
