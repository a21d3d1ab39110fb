import RemoteTerm.Library.Protocol
import RemoteTerm.Fanout.Manager

/-!
# A removed integration stays removed

A removal takes no lock, so a start that is under way when it completes still
registers its instance, a restart that is under way starts its instance again, and
a late failure still writes its error. When none of these comes after a removal, no
instance runs and the id is not listed once a removal has completed and no load
has begun since.
-/

namespace RemoteTerm

open Library Library.Protocol

/-- What a task of the manager is at: nothing, the stop of a removal, or a part of what is done
under the restart lock. -/
inductive FanoutPhase where
  | idle
  | removing
  | locked
  | clearing
  | cleared
  | restarting (module : Nat)
  deriving DecidableEq

namespace FanoutPhase

/-- The phases under the restart lock. -/
def Holds : FanoutPhase → Prop
  | .idle | .removing => False
  | _ => True

/-- The calls of a task in each phase. -/
def Allows : FanoutPhase → FanoutOp → Prop
  | .idle, .matchingModule | .idle, .runHandler .. | .idle, .setModuleError _
  | .idle, .clearModuleError | .idle, .acquireRestartLock | .idle, .popModule
  | .idle, .disableBots
  | .removing, .finishRemoval
  | .locked, .stopActive _ | .locked, .popModule
  | .clearing, .finishRemoval
  | .cleared, .getConfig | .cleared, .beginLoad _ | .cleared, .awaitStart | .cleared, .register
  | .cleared, .setModuleError _
  | .restarting _, .awaitStart | .restarting _, .dropModule
  | .restarting _, .setModuleError _ => True
  | .restarting module, .restarted module' => module' = module
  | l, .releaseRestartLock => l.Holds
  | _, _ => False

/-- The phase after a call and its answer. -/
def after : FanoutPhase → (op : FanoutOp) → op.Ans → FanoutPhase
  | _, .acquireRestartLock, _ => .locked
  | _, .releaseRestartLock, _ => .idle
  | .locked, .stopActive module, stopEnd => if stopEnd = .notActive then .locked
      else .restarting module
  | .idle, .popModule, stopping => if stopping then .removing else .idle
  | .locked, .popModule, stopping => if stopping then .clearing else .cleared
  | .removing, .finishRemoval, _ => .idle
  | .clearing, .finishRemoval, _ => .cleared
  | .cleared, .register, _ => .locked
  | .restarting _, .restarted _, _ => .locked
  | l, _, _ => l

end FanoutPhase

/-- The protocol of the manager's tasks. -/
def fanoutProtocol : Protocol FanoutOp FanoutOp.Ans FanoutPhase :=
  ⟨FanoutPhase.Allows, FanoutPhase.after⟩

section Tasks

theorem removeConfig_follows :
    fanoutProtocol.Follows (fun _ l => l = .idle) removeConfig .idle := by
  refine follows_await_bind.mpr ⟨trivial, fun stopping => ?_⟩
  cases stopping with
  | false => rfl
  | true => exact ⟨trivial, fun _ => rfl⟩

/-- The removal at the start of a reload keeps the lock. -/
theorem removeConfig_follows_locked :
    fanoutProtocol.Follows (fun _ l => l = .cleared) removeConfig .locked := by
  refine follows_await_bind.mpr ⟨trivial, fun stopping => ?_⟩
  cases stopping with
  | false => rfl
  | true => exact ⟨trivial, fun _ => rfl⟩

theorem startModule_follows (config : FanoutConfig) :
    fanoutProtocol.Follows (fun _ l => l.Holds) (startModule config) .cleared := by
  refine follows_await_bind.mpr ⟨trivial, fun loads => ?_⟩
  cases loads with
  | false => trivial
  | true =>
      refine follows_await_bind.mpr ⟨trivial, fun startEnd => ?_⟩
      cases startEnd with
      | started => exact ⟨trivial, fun _ => trivial⟩
      | raised detail => exact ⟨trivial, fun _ => trivial⟩

/-- The lock is given back in every phase under it. -/
theorem release_follows {l : FanoutPhase} (hl : l.Holds) :
    fanoutProtocol.Follows (fun _ l => l = .idle) (onFanout .releaseRestartLock) l := by
  cases l with
  | idle => exact hl.elim
  | removing => exact hl.elim
  | _ => exact ⟨trivial, fun _ => rfl⟩

theorem reloadConfig_follows :
    fanoutProtocol.Follows (fun _ l => l = .idle) reloadConfig .idle := by
  refine follows_await_bind.mpr ⟨trivial, fun _ => ?_⟩
  refine Follows.bind (removeConfig_follows_locked.mono ?_)
  rintro _ _ rfl
  refine follows_await_bind.mpr ⟨trivial, fun config => ?_⟩
  cases config with
  | none => exact release_follows trivial
  | some config =>
      change fanoutProtocol.Follows _ (if config.enabled = true then
        startModule config >>= fun _ => onFanout .releaseRestartLock
        else onFanout .releaseRestartLock) _
      split
      · exact Follows.bind ((startModule_follows config).mono fun _ _ => release_follows)
      · exact release_follows trivial

theorem restartFailed_follows (module : Nat) :
    fanoutProtocol.Follows (fun _ l => l.Holds) restartFailed (.restarting module) :=
  ⟨trivial, fun _ => ⟨trivial, fun _ => trivial⟩⟩

theorem startAgain_follows (module : Nat) :
    fanoutProtocol.Follows (fun _ l => l.Holds) (startAgain module) (.restarting module) := by
  refine follows_await_bind.mpr ⟨trivial, fun startEnd => ?_⟩
  cases startEnd with
  | started => exact ⟨rfl, fun _ => trivial⟩
  | raised detail => exact restartFailed_follows module

theorem restartModule_follows (module : Nat) :
    fanoutProtocol.Follows (fun _ l => l = .idle) (restartModule module) .idle := by
  refine follows_await_bind.mpr ⟨trivial, fun _ => ?_⟩
  refine follows_await_bind.mpr ⟨trivial, fun stopEnd => ?_⟩
  cases stopEnd with
  | notActive => exact release_follows trivial
  | stopped => exact Follows.bind ((startAgain_follows module).mono fun _ _ => release_follows)
  | raised => exact Follows.bind ((restartFailed_follows module).mono fun _ _ => release_follows)

theorem runHandler_follows (module : Nat) (handlerName : HandlerName) :
    fanoutProtocol.Follows (fun _ l => l = .idle) (runHandler module handlerName) .idle := by
  refine follows_await_bind.mpr ⟨trivial, fun handled => ?_⟩
  cases handled with
  | done => exact ⟨trivial, fun _ => rfl⟩
  | timedOut => exact ⟨trivial, fun _ => restartModule_follows module⟩
  | raised detail => exact ⟨trivial, fun _ => rfl⟩
  | cancelled => rfl

theorem FanoutWork.task_follows (w : FanoutWork) :
    fanoutProtocol.Follows (fun _ l => l = .idle) w.task .idle := by
  cases w with
  | dispatch handlerName =>
      refine follows_await_bind.mpr ⟨trivial, fun module => ?_⟩
      cases module with
      | none => rfl
      | some module => exact runHandler_follows module handlerName
  | reload => exact reloadConfig_follows
  | remove => exact removeConfig_follows
  | disableBots =>
      refine follows_await_bind.mpr ⟨trivial, fun removes => ?_⟩
      cases removes with
      | false => rfl
      | true => exact removeConfig_follows

end Tasks

section Invariant

/-- What a task relies on in each phase. -/
def FanoutPhase.Ok (s : FanoutState) : FanoutPhase → Prop
  | .idle => True
  | .removing => s.module = none
  | .locked => s.restartLock = true
  | .clearing | .cleared => s.restartLock = true ∧ s.module = none
  | .restarting _ => s.restartLock = true ∧ s.running = []

/-- Only the registered instance runs, and a removed id has neither a module nor an error. -/
structure FanoutState.Settled (s : FanoutState) : Prop where
  registered : ∀ module ∈ s.running, s.module = some module
  removed : s.removed = true → s.module = none ∧ s.moduleError = none

/-- Every task has what it relies on, one at most has the restart lock, and the state is settled. -/
structure RemovalSafe (s : FanoutState) (ls : Nat → FanoutPhase) : Prop where
  ok : ∀ i, (ls i).Ok s
  unique : ∀ i j, (ls i).Holds → (ls j).Holds → i = j
  settled : s.Settled

variable {s s' : FanoutState} {ls : Nat → FanoutPhase} {i : Nat} {l : FanoutPhase}

theorem FanoutState.Settled.not_running (h : s.Settled) (hmodule : s.module = none) :
    s.running = [] := by
  rw [List.eq_nil_iff_forall_not_mem]
  intro module hrunning
  exact (nomatch hmodule.symm.trans (h.registered module hrunning))

/-- After the stop of the registered instance none runs. -/
theorem FanoutState.Settled.stop_running (h : s.Settled) {module : Nat}
    (hmodule : s.module = some module) : (s.stop module).running = [] := by
  apply List.filter_eq_nil_iff.mpr
  intro module' hrunning
  have heq := hmodule.symm.trans (h.registered module' hrunning)
  simp [Option.some.inj heq]

theorem FanoutPhase.Ok.locked (h : l.Ok s) (hl : l.Holds) : s.restartLock = true := by
  cases l with
  | idle => exact hl.elim
  | removing => exact hl.elim
  | locked => exact h
  | clearing => exact h.1
  | cleared => exact h.1
  | restarting module => exact h.1

/-- Nothing that a task relies on is taken away. -/
theorem FanoutPhase.Ok.frame (h : l.Ok s) (hlock : s.restartLock = true → s'.restartLock = true)
    (hmodule : s.module = none → s'.module = none)
    (hrunning : s.running = [] → s'.running = []) : l.Ok s' := by
  cases l with
  | idle => trivial
  | removing => exact hmodule h
  | locked => exact hlock h
  | clearing => exact ⟨hlock h.1, hmodule h.2⟩
  | cleared => exact ⟨hlock h.1, hmodule h.2⟩
  | restarting module => exact ⟨hlock h.1, hrunning h.2⟩

/-- A task without the lock relies on a removed module at most. -/
theorem FanoutPhase.Ok.outside (hl : ¬ l.Holds) (hremoving : l = .removing → s'.module = none) :
    l.Ok s' := by
  cases l with
  | idle => trivial
  | removing => exact hremoving rfl
  | _ => exact absurd trivial hl

/-- The moving task replaces its own part of the invariant. -/
theorem RemovalSafe.update (h : RemovalSafe s ls) (hmine : l.Ok s')
    (hothers : ∀ j, j ≠ i → (ls j).Ok s') (hholds : l.Holds → ∀ j, j ≠ i → ¬ (ls j).Holds)
    (hsettled : s'.Settled) : RemovalSafe s' (Function.update ls i l) where
  ok := (Function.forall_update_iff ls fun _ l => l.Ok s').mpr ⟨hmine, hothers⟩
  unique := unique_update h.unique hholds
  settled := hsettled

/-- A task that takes nothing away from the others moves. -/
theorem RemovalSafe.frame (h : RemovalSafe s ls) (hmine : l.Ok s') (hl : l.Holds → (ls i).Holds)
    (hsettled : s'.Settled) (hlock : s.restartLock = true → s'.restartLock = true)
    (hmodule : s.module = none → s'.module = none)
    (hrunning : s.running = [] → s'.running = []) :
    RemovalSafe s' (Function.update ls i l) :=
  h.update hmine (fun j _ => (h.ok j).frame hlock hmodule hrunning)
    (fun hheld j hj hother => hj (h.unique j i hother (hl hheld))) hsettled

/-- A task that keeps or gives up its place moves without a change of the state. -/
theorem RemovalSafe.stay (h : RemovalSafe s ls) (hmine : l.Ok s) (hl : l.Holds → (ls i).Holds) :
    RemovalSafe s (Function.update ls i l) :=
  h.frame hmine hl h.settled id id id

/-- The restart lock is taken while nobody has it. -/
theorem RemovalSafe.acquire (h : RemovalSafe s ls) (hfree : s.restartLock = false) :
    RemovalSafe { s with restartLock := true } (Function.update ls i .locked) := by
  have hnone : ∀ j, ¬ (ls j).Holds := by
    intro j hj
    exact absurd ((h.ok j).locked hj) (by simp [hfree])
  exact h.update rfl (fun j _ => (h.ok j).frame (fun _ => rfl) id id) (fun _ j _ => hnone j)
    ⟨h.settled.registered, h.settled.removed⟩

/-- A holder of the lock changes what only it may change, and perhaps gives the lock back. -/
theorem RemovalSafe.move (h : RemovalSafe s ls) (hl : (ls i).Holds) (hmine : l.Ok s')
    (hremoving : ∀ j, ls j = .removing → s'.module = none) (hsettled : s'.Settled) :
    RemovalSafe s' (Function.update ls i l) := by
  have hothers : ∀ j, j ≠ i → ¬ (ls j).Holds := fun j hj hother => hj (h.unique j i hother hl)
  exact h.update hmine (fun j hj => .outside (hothers j hj) (hremoving j)) (fun _ => hothers)
    hsettled

/-- The restart lock is given back. -/
theorem RemovalSafe.release (h : RemovalSafe s ls) (hl : (ls i).Holds) :
    RemovalSafe { s with restartLock := false } (Function.update ls i .idle) := by
  refine h.move hl trivial (fun j hj => ?_) ⟨h.settled.registered, h.settled.removed⟩
  have hj' := h.ok j
  rw [hj] at hj'
  exact hj'

/-- An error is recorded of an id that is not removed. -/
theorem RemovalSafe.setModuleError (h : RemovalSafe s ls) (hremoved : s.removed = false)
    (error : Text) (hmine : l.Ok s) (hl : l.Holds → (ls i).Holds) :
    RemovalSafe { s with moduleError := some error } (Function.update ls i l) := by
  refine h.frame (hmine.frame id id id) hl ⟨h.settled.registered, fun htrue => ?_⟩ id id id
  exact (nomatch hremoved.symm.trans htrue)

/-- A removal ends. -/
theorem RemovalSafe.finishRemoval (h : RemovalSafe s ls) (hmodule : s.module = none)
    (hmine : l.Ok s) (hl : l.Holds → (ls i).Holds) :
    RemovalSafe s.finishRemoval (Function.update ls i l) :=
  h.frame (hmine.frame id id id) hl ⟨h.settled.registered, fun _ => ⟨hmodule, rfl⟩⟩ id id id

/-- The module is taken out of the table, and told to stop if there is one. -/
theorem RemovalSafe.popModule (h : RemovalSafe s ls) {c : FanoutChoice} {stopping : Bool}
    (hc : performFanout c .popModule s = some (stopping, s'))
    (hmine : s'.module = none → s'.restartLock = s.restartLock → l.Ok s')
    (hl : l.Holds → (ls i).Holds) : RemovalSafe s' (Function.update ls i l) := by
  cases hmodule : s.module with
  | none =>
      simp only [performFanout, hmodule, Option.some.injEq, Prod.mk.injEq] at hc
      obtain ⟨-, rfl⟩ := hc
      exact h.frame (hmine hmodule rfl) hl ⟨h.settled.registered, fun _ => ⟨hmodule, rfl⟩⟩
        id id id
  | some module =>
      simp only [performFanout, hmodule, Option.some.injEq, Prod.mk.injEq] at hc
      obtain ⟨-, rfl⟩ := hc
      have hnone : (s.stop module).running = [] := h.settled.stop_running hmodule
      refine h.frame (hmine rfl rfl) hl ⟨fun m hm => ?_, fun hremoved => ?_⟩ id (fun _ => rfl)
        fun _ => hnone
      · exact absurd (hnone ▸ hm) List.not_mem_nil
      · exact ⟨rfl, (h.settled.removed hremoved).2⟩

/-- What the step of a call must respect for a removal to be final. -/
def FanoutOp.Timely (removing : Prop) (s : FanoutState) : FanoutOp → Prop
  | .register => s.removed = false ∧ ¬ removing
  | .restarted module => s.module = some module
  | .setModuleError _ => s.removed = false
  | _ => True

/-- A call of a task that is at nothing. -/
theorem removalSafe_idle {op : FanoutOp} {x : op.Ans} (h : RemovalSafe s ls)
    (hphase : ls i = .idle) (hallowed : (ls i).Allows op) (hx : fanningOut op s x s')
    (htimely : op.Timely (∃ j, ls j = .removing) s) :
    RemovalSafe s' (Function.update ls i ((ls i).after op x)) := by
  obtain ⟨c, hc⟩ := hx
  rw [hphase]
  cases op with
  | matchingModule =>
      simp only [performFanout, Option.some.injEq, Prod.mk.injEq] at hc
      obtain ⟨-, rfl⟩ := hc
      exact h.stay trivial fun hl => hl.elim
  | runHandler module handlerName =>
      simp only [performFanout, Option.some.injEq, Prod.mk.injEq] at hc
      obtain ⟨-, rfl⟩ := hc
      exact h.stay trivial fun hl => hl.elim
  | setModuleError error =>
      simp only [performFanout, Option.some.injEq, Prod.mk.injEq] at hc
      obtain ⟨-, rfl⟩ := hc
      exact h.setModuleError htimely error trivial fun hl => hl.elim
  | clearModuleError =>
      simp only [performFanout, Option.some.injEq, Prod.mk.injEq] at hc
      obtain ⟨-, rfl⟩ := hc
      exact h.frame trivial (fun hl => hl.elim)
        ⟨h.settled.registered, fun hremoved => ⟨(h.settled.removed hremoved).1, rfl⟩⟩ id id id
  | acquireRestartLock =>
      simp only [performFanout, Option.ite_none_left_eq_some, Option.some.injEq,
        Prod.mk.injEq] at hc
      obtain ⟨hfree, -, rfl⟩ := hc
      exact h.acquire (by simpa using hfree)
  | popModule =>
      refine h.popModule hc (fun hmodule _ => ?_) fun hl => ?_
      · cases x with
        | false => exact trivial
        | true => exact hmodule
      · cases x <;> exact hl.elim
  | disableBots =>
      simp only [performFanout] at hc
      split at hc <;> simp only [Option.some.injEq, Prod.mk.injEq] at hc <;>
        obtain ⟨-, rfl⟩ := hc
      · exact h.stay trivial fun hl => hl.elim
      · exact h.frame trivial (fun hl => hl.elim) ⟨h.settled.registered, h.settled.removed⟩
          id id id
  | _ => simp [hphase, FanoutPhase.Allows, FanoutPhase.Holds] at hallowed

/-- A call of a task that has just taken the restart lock. -/
theorem removalSafe_locked {op : FanoutOp} {x : op.Ans} (h : RemovalSafe s ls)
    (hphase : ls i = .locked) (hallowed : (ls i).Allows op) (hx : fanningOut op s x s') :
    RemovalSafe s' (Function.update ls i ((ls i).after op x)) := by
  obtain ⟨c, hc⟩ := hx
  have hi := h.ok i
  rw [hphase]
  rw [hphase] at hi
  have hholds : (ls i).Holds := by
    rw [hphase]
    trivial
  cases op with
  | stopActive module =>
      simp only [performFanout] at hc
      split at hc
      next hmodule =>
        simp only [Option.some.injEq, Prod.mk.injEq] at hc
        obtain ⟨rfl, rfl⟩ := hc
        have hnone := h.settled.stop_running hmodule
        have hmine : (FanoutPhase.restarting module).Ok (s.stop module) := ⟨hi, hnone⟩
        have hframe := h.frame (i := i) hmine (fun _ => hholds)
          ⟨fun m hm => absurd (hnone ▸ hm) List.not_mem_nil, h.settled.removed⟩ id id
          fun _ => hnone
        cases c.stopRaises <;> exact hframe
      next =>
        simp only [Option.some.injEq, Prod.mk.injEq] at hc
        obtain ⟨rfl, rfl⟩ := hc
        exact h.stay hi fun _ => hholds
  | popModule =>
      refine h.popModule hc (fun hmodule hlock => ?_) fun _ => hholds
      cases x <;> exact ⟨hlock.trans hi, hmodule⟩
  | releaseRestartLock =>
      simp only [performFanout, Option.some.injEq, Prod.mk.injEq] at hc
      obtain ⟨-, rfl⟩ := hc
      exact h.release hholds
  | _ => simp [hphase, FanoutPhase.Allows] at hallowed

/-- A call of a reload whose module is removed. -/
theorem removalSafe_cleared {op : FanoutOp} {x : op.Ans} (h : RemovalSafe s ls)
    (hphase : ls i = .cleared) (hallowed : (ls i).Allows op) (hx : fanningOut op s x s')
    (htimely : op.Timely (∃ j, ls j = .removing) s) :
    RemovalSafe s' (Function.update ls i ((ls i).after op x)) := by
  obtain ⟨c, hc⟩ := hx
  have hi := h.ok i
  rw [hphase]
  rw [hphase] at hi
  have hholds : (ls i).Holds := by
    rw [hphase]
    trivial
  cases op with
  | getConfig =>
      simp only [performFanout, Option.some.injEq, Prod.mk.injEq] at hc
      obtain ⟨-, rfl⟩ := hc
      exact h.stay hi fun _ => hholds
  | beginLoad config =>
      simp only [performFanout] at hc
      split at hc <;> simp only [Option.some.injEq, Prod.mk.injEq] at hc <;>
        obtain ⟨-, rfl⟩ := hc
      · exact h.frame hi (fun _ => hholds) ⟨h.settled.registered, nofun⟩ id id id
      · exact h.stay hi fun _ => hholds
  | awaitStart =>
      simp only [performFanout, Option.some.injEq, Prod.mk.injEq] at hc
      obtain ⟨-, rfl⟩ := hc
      exact h.stay hi fun _ => hholds
  | register =>
      simp only [performFanout, Option.some.injEq, Prod.mk.injEq] at hc
      obtain ⟨-, rfl⟩ := hc
      refine h.move hholds hi.1 (fun j hj => absurd ⟨j, hj⟩ htimely.2) ⟨?_, fun hremoved => ?_⟩
      · intro m hm
        rw [h.settled.not_running hi.2, List.mem_singleton] at hm
        exact congrArg some hm.symm
      · exact (nomatch htimely.1.symm.trans hremoved)
  | setModuleError error =>
      simp only [performFanout, Option.some.injEq, Prod.mk.injEq] at hc
      obtain ⟨-, rfl⟩ := hc
      exact h.setModuleError htimely error hi fun _ => hholds
  | releaseRestartLock =>
      simp only [performFanout, Option.some.injEq, Prod.mk.injEq] at hc
      obtain ⟨-, rfl⟩ := hc
      exact h.release hholds
  | _ => simp [hphase, FanoutPhase.Allows] at hallowed

/-- A call of a restart whose module is stopped. -/
theorem removalSafe_restarting {op : FanoutOp} {x : op.Ans} {module : Nat} (h : RemovalSafe s ls)
    (hphase : ls i = .restarting module) (hallowed : (ls i).Allows op) (hx : fanningOut op s x s')
    (htimely : op.Timely (∃ j, ls j = .removing) s) :
    RemovalSafe s' (Function.update ls i ((ls i).after op x)) := by
  obtain ⟨c, hc⟩ := hx
  have hi := h.ok i
  rw [hphase]
  rw [hphase] at hi
  have hholds : (ls i).Holds := by
    rw [hphase]
    trivial
  cases op with
  | awaitStart =>
      simp only [performFanout, Option.some.injEq, Prod.mk.injEq] at hc
      obtain ⟨-, rfl⟩ := hc
      exact h.stay hi fun _ => hholds
  | restarted module' =>
      simp only [performFanout, Option.some.injEq, Prod.mk.injEq] at hc
      obtain ⟨-, rfl⟩ := hc
      have hmodule : s.module = some module' := htimely
      refine h.move hholds hi.1 (fun j hj => ?_) ⟨fun m hm => ?_, h.settled.removed⟩
      · have hj' := h.ok j
        rw [hj] at hj'
        exact hj'
      · rw [hi.2, List.mem_singleton] at hm
        exact hm ▸ hmodule
  | dropModule =>
      simp only [performFanout, Option.some.injEq, Prod.mk.injEq] at hc
      obtain ⟨-, rfl⟩ := hc
      refine h.frame hi (fun _ => hholds) ⟨fun m hm => ?_, fun hremoved => ?_⟩ id
        (fun _ => rfl) id
      · exact absurd (hi.2 ▸ hm) List.not_mem_nil
      · exact ⟨rfl, (h.settled.removed hremoved).2⟩
  | setModuleError error =>
      simp only [performFanout, Option.some.injEq, Prod.mk.injEq] at hc
      obtain ⟨-, rfl⟩ := hc
      exact h.setModuleError htimely error hi fun _ => hholds
  | releaseRestartLock =>
      simp only [performFanout, Option.some.injEq, Prod.mk.injEq] at hc
      obtain ⟨-, rfl⟩ := hc
      exact h.release hholds
  | _ => simp [hphase, FanoutPhase.Allows] at hallowed

/-- One call of a task, where its phase allows it, keeps the invariant when it does not come too
late. -/
theorem removalSafe_step {op : FanoutOp} {x : op.Ans} (h : RemovalSafe s ls)
    (hallowed : (ls i).Allows op) (hx : fanningOut op s x s')
    (htimely : op.Timely (∃ j, ls j = .removing) s) :
    RemovalSafe s' (Function.update ls i ((ls i).after op x)) := by
  cases hphase : ls i with
  | idle => exact hphase ▸ removalSafe_idle h hphase hallowed hx htimely
  | locked => exact hphase ▸ removalSafe_locked h hphase hallowed hx
  | cleared => exact hphase ▸ removalSafe_cleared h hphase hallowed hx htimely
  | restarting module => exact hphase ▸ removalSafe_restarting h hphase hallowed hx htimely
  | removing =>
      obtain ⟨c, hc⟩ := hx
      have hi := h.ok i
      rw [hphase] at hi
      cases op with
      | finishRemoval =>
          simp only [performFanout, Option.some.injEq, Prod.mk.injEq] at hc
          obtain ⟨-, rfl⟩ := hc
          exact h.finishRemoval hi trivial fun hl => hl.elim
      | _ => simp [hphase, FanoutPhase.Allows, FanoutPhase.Holds] at hallowed
  | clearing =>
      obtain ⟨c, hc⟩ := hx
      have hi := h.ok i
      rw [hphase] at hi
      have hholds : (ls i).Holds := by
        rw [hphase]
        trivial
      cases op with
      | finishRemoval =>
          simp only [performFanout, Option.some.injEq, Prod.mk.injEq] at hc
          obtain ⟨-, rfl⟩ := hc
          exact h.finishRemoval hi.2 hi fun _ => hholds
      | releaseRestartLock =>
          simp only [performFanout, Option.some.injEq, Prod.mk.injEq] at hc
          obtain ⟨-, rfl⟩ := hc
          exact h.release hholds
      | _ => simp [hphase, FanoutPhase.Allows] at hallowed

end Invariant

section Runs

/-- The manager's tasks. -/
abbrev FanoutPool := Pool FanoutOp FanoutOp.Ans Unit FanoutState

/-- A removal that waits for the stop of the module it took out of the table. -/
def FanoutTask.Removing (t : FanoutTask Unit) : Bool :=
  match t.nextCall with
  | some .finishRemoval => true
  | _ => false

/-- No step comes too late for a removal: no instance is registered while the id is removed or being
removed, an instance starts again only while it is registered, and no error is recorded of a
removed id. -/
def NoLateStep (p : FanoutPool) (i : Nat) : Prop :=
  ∀ t ∈ p.threads[i]?, ∀ op ∈ t.nextCall,
    op.Timely (∃ u ∈ p.threads, FanoutTask.Removing u = true) p.shared

instance (removing : Prop) [Decidable removing] (s : FanoutState) (op : FanoutOp) :
    Decidable (op.Timely removing s) := by
  cases op <;> unfold FanoutOp.Timely <;> infer_instance

instance (p : FanoutPool) (i : Nat) : Decidable (NoLateStep p i) := by
  unfold NoLateStep
  infer_instance

theorem FanoutOp.Timely.mono {removing removing' : Prop} {s : FanoutState} {op : FanoutOp}
    (h : op.Timely removing s) (himp : removing' → removing) : op.Timely removing' s := by
  cases op with
  | register => exact ⟨h.1, fun hremoving => h.2 (himp hremoving)⟩
  | _ => exact h

/-- A task in the phase of a removal waits for a stop. -/
theorem removing_of_phase {t : FanoutTask Unit}
    (h : fanoutProtocol.Follows (fun _ l => l = .idle) t .removing) :
    FanoutTask.Removing t = true := by
  cases t with
  | pure _ => exact (nomatch h)
  | call op next =>
      cases op with
      | finishRemoval => rfl
      | _ => exact h.1.elim

theorem removalSafe_start (serverDisablesBots : Bool) (loaded : Option StartEnd) :
    RemovalSafe (loadFromDb serverDisablesBots loaded) fun _ => .idle where
  ok _ := trivial
  unique _ _ h := h.elim
  settled := by
    constructor
    · intro module hrunning
      cases loaded with
      | none => exact absurd hrunning List.not_mem_nil
      | some startEnd =>
          cases startEnd with
          | started => exact congrArg some (List.mem_singleton.mp hrunning).symm
          | raised detail => exact absurd hrunning List.not_mem_nil
    · intro hremoved
      cases loaded with
      | none => exact (nomatch hremoved)
      | some startEnd => cases startEnd <;> exact (nomatch hremoved)

/-- When no step comes too late, an id whose removal has completed and that no load has begun since
has no running instance and is not listed in the statuses. -/
theorem removed_stays_removed {serverDisablesBots : Bool} {loaded : Option StartEnd}
    {works : List FanoutWork} {q : FanoutPool}
    (run : Pool.Run fanningOut NoLateStep (fanoutPool serverDisablesBots loaded works) q)
    (hremoved : q.shared.removed = true) :
    q.shared.running = [] ∧ ∀ (configId : Text) (cached : Option FanoutConfig)
      (view : Nat → ModuleView), getStatuses configId cached view q.shared = none := by
  have hidle : fanoutProtocol.Follow (fun _ l => l = .idle) .idle
      (fanoutPool serverDisablesBots loaded works) fun _ => .idle := by
    apply follow_idle
    intro t ht
    obtain ⟨w, -, rfl⟩ := List.mem_map.mp ht
    exact w.task_follows
  obtain ⟨ls, -, hq⟩ := Follow.run (I := RemovalSafe) run
    (fun {p ls i op next x s'} hfollow hI hc hi hallowed hx => by
      refine removalSafe_step hI hallowed hx ((hc _ hi op rfl).mono ?_)
      rintro ⟨j, hj⟩
      cases hthread : p.threads[j]? with
      | none => exact (nomatch (hfollow.missing j hthread).symm.trans hj)
      | some t =>
          exact ⟨t, List.mem_of_getElem? hthread,
            removing_of_phase (hj ▸ hfollow.threads j t hthread)⟩)
    hidle (removalSafe_start serverDisablesBots loaded)
  obtain ⟨hmodule, herror⟩ := hq.settled.removed hremoved
  exact ⟨hq.settled.not_running hmodule, fun _ _ _ => getStatuses_eq_none hmodule herror⟩

end Runs

section Sample

/-- A handler fails, and then the integration is removed. -/
def failThenRemove : List (Nat × FanoutChoice) :=
  [(0, {}), (0, { handled := .raised "boom".toList }), (0, {}), (1, {}), (1, {})]

/-- A removal after the last handler. -/
theorem removed_stays_removed_failThenRemove :
    ∃ q, Pool.Run fanningOut NoLateStep
        (fanoutPool false (some .started) [.dispatch .onMessage, .remove]) q ∧
      q.shared.removed = true ∧ q.shared.running = [] ∧
      ∀ configId cached view, getStatuses configId cached view q.shared = none := by
  have hexec : (Pool.execIf performFanout (fun p i => decide (NoLateStep p i)) failThenRemove
      (fanoutPool false (some .started) [.dispatch .onMessage, .remove])).any
      (fun q => decide (q.shared.removed = true)) = true := by
    decide +kernel
  obtain ⟨q, hrun, hremoved⟩ := Pool.execIf_reaches hexec
  have run : Pool.Run fanningOut NoLateStep
      (fanoutPool false (some .started) [.dispatch .onMessage, .remove]) q :=
    hrun.mono fun _ _ h => of_decide_eq_true h
  exact ⟨q, run, hremoved, removed_stays_removed run hremoved⟩

/-- A handler times out, and the removal completes while the restart waits for its stop. -/
def removeWhileRestarting : List (Nat × FanoutChoice) :=
  [(0, {}), (0, { handled := .timedOut }), (0, {}), (0, {}), (0, {}), (1, {}), (1, {}), (0, {}),
    (0, {}), (0, {})]

/-- The restart starts the removed instance again. -/
theorem removed_instance_restarts :
    ∃ q, Pool.Run fanningOut Pool.always
        (fanoutPool false (some .started) [.dispatch .onMessage, .remove]) q ∧
      q.Finished ∧ q.shared.removed = true ∧ q.shared.running ≠ [] := by
  have hexec : (Pool.exec performFanout (fun _ _ _ => true) removeWhileRestarting
      (fanoutPool false (some .started) [.dispatch .onMessage, .remove])).any
      (fun q => decide (q.Finished ∧ q.shared.removed = true ∧ q.shared.running ≠ [])) = true := by
    decide +kernel
  obtain ⟨q, hrun, hend⟩ := Pool.exec_reaches hexec
  exact ⟨q, hrun.mono fun _ _ _ => trivial, hend⟩

end Sample

end RemoteTerm
