import RemoteTerm.Services.DmIngest
import RemoteTerm.Services.Frames

/-!
# The tasks that store direct messages take turns

Raw packets are stored one at a time under a lock. Every task that stores a
direct message takes the lock at most once and gives it back, so a pool of such
tasks never waits for a lock that nobody will release.
-/

namespace RemoteTerm

open Library

/-- The task neither takes nor releases the store lock. -/
abbrev LeavesLock {α : Type} (p : Task α) : Prop := p.Calls fun op => op.storeLockUse = .neither

/-- The task starts and ends without the store lock and uses it in turn. -/
abbrev TakesTurns {α : Type} (p : Task α) : Prop := Lock.Balanced Op.storeLockUse false false p

theorem LeavesLock.takesTurns {α : Type} {p : Task α} (h : LeavesLock p) : TakesTurns p :=
  Lock.balanced_of_calls h

theorem TakesTurns.bind {α β : Type} {p : Task α} {f : α → Task β} (hp : TakesTurns p)
    (hf : ∀ a, TakesTurns (f a)) : TakesTurns (p >>= f) :=
  Lock.Balanced.bind hp hf

theorem TakesTurns.await_bind {β : Type} {op : Op} {f : op.Ans → Task β}
    (hop : op.storeLockUse = .neither) (hf : ∀ x, TakesTurns (f x)) :
    TakesTurns (await op >>= f) :=
  TakesTurns.bind (LeavesLock.takesTurns (by simpa using hop)) hf

section Store

variable (d : DirectMessage)

theorem store_leavesLock : LeavesLock (store d) := by
  refine (store_calls d).mono fun op hop => ?_
  cases op <;> first | rfl | exact hop.elim

/-- Storing a direct message takes the lock around the whole of `store()` or not at all. -/
theorem storeDirectMessage_takesTurns : TakesTurns (storeDirectMessage d) := by
  unfold storeDirectMessage
  split
  · simp only [Program.await_bind]
    refine ⟨fun _ => rfl, by simp [Op.storeLockUse], fun _ => ?_⟩
    have hheld : Lock.Balanced Op.storeLockUse true true (store d) :=
      Lock.balanced_of_calls (store_leavesLock d)
    refine Lock.Balanced.bind hheld fun _ => ?_
    exact ⟨by simp [Op.storeLockUse], fun _ => rfl, fun _ => rfl⟩
  · exact (store_leavesLock d).takesTurns

end Store

theorem resolveDirectMessageSenderMetadata_leavesLock (senderPublicKey : Text) :
    LeavesLock (resolveDirectMessageSenderMetadata senderPublicKey) :=
  resolveDirectMessageSenderMetadata_calls rfl fun _ => rfl

theorem prepareResolvedContact_leavesLock (contact : Contact) :
    LeavesLock (prepareResolvedContact contact) :=
  prepareResolvedContact_calls rfl

theorem ingestDecryptedDirectMessage_takesTurns (d : DecryptedIngest) :
    TakesTurns (ingestDecryptedDirectMessage d) := by
  have hstore : ∀ key name sender signature,
      TakesTurns (storeDecrypted d key name sender signature) := fun _ _ _ _ =>
    TakesTurns.bind (storeDirectMessage_takesTurns _) fun _ => rfl
  unfold ingestDecryptedDirectMessage
  split
  · rfl
  · refine TakesTurns.await_bind rfl fun contact => ?_
    cases contact with
    | none => exact hstore _ _ _ _
    | some contact =>
        refine TakesTurns.bind (prepareResolvedContact_leavesLock contact).takesTurns ?_
        rintro (_ | ⟨key, _ | _⟩)
        · rfl
        · simp only
          split
          · exact hstore _ _ _ _
          · unfold storeIncoming
            split
            · refine TakesTurns.bind
                (resolveDirectMessageSenderMetadata_leavesLock _).takesTurns ?_
              rintro (_ | ⟨name, sender⟩)
              · rfl
              · exact hstore _ _ _ _
            · exact hstore _ _ _ _
        · rfl

theorem onContactMessage_takesTurns (e : ContactMessageEvent) :
    TakesTurns (onContactMessage e) := by
  have hstore : ∀ context name key, TakesTurns (do
      let msgId ← ingestFallbackDirectMessage e context name key
      pure (some msgId)) := fun _ _ _ =>
    TakesTurns.bind (storeDirectMessage_takesTurns _) fun _ => rfl
  have hcontext : LeavesLock (resolveFallbackDirectMessageContext e.sender e.now) := by
    refine Program.Calls.bind (by simp [Op.storeLockUse]) fun resolved => ?_
    have hplaceholder : ∀ f : Option Contact → Option FallbackDirectMessageContext,
        LeavesLock (createPlaceholder (lower e.sender) e.now >>= fun c => Program.pure (f c)) := by
      intro f
      refine Program.Calls.bind ?_ fun _ => by simp
      unfold createPlaceholder
      split <;> simp [Op.storeLockUse]
    cases resolved with
    | contact c =>
        refine Program.Calls.bind (prepareResolvedContact_leavesLock c) fun prepared => ?_
        cases prepared <;> simp
    | unknown => exact hplaceholder _
    | ambiguous => exact hplaceholder _
  unfold onContactMessage
  split
  · rfl
  · refine TakesTurns.bind hcontext.takesTurns fun context => ?_
    cases context with
    | none => rfl
    | some context =>
        simp only
        split
        · rfl
        · unfold storeContactMessage
          split
          · refine TakesTurns.bind
              (resolveDirectMessageSenderMetadata_leavesLock _).takesTurns ?_
            rintro (_ | ⟨name, sender⟩)
            · rfl
            · exact hstore _ _ _
          · exact hstore _ _ _

end RemoteTerm
