import RemoteTerm.Library.Protocol
import RemoteTerm.Radio.Lifecycle

/-!
# Keys after a disconnect

A disconnect clears the keystore before it waits for the operation lock, and a
setup stores the exported key under that lock. When no setup stores a key while a
disconnect has cleared the keystore and still waits, a disconnect that has
returned leaves no key behind.

## Implementation notes

What a task has done is the local state of a protocol, as for the timestamps of
sends: the transport that a disconnect takes down, and what it left.
-/

namespace RemoteTerm

open Library Library.Protocol

/-- Neither key is in the keystore. -/
def LinkState.NoKeys (s : LinkState) : Prop := s.privateKey = none ∧ s.publicKey = none

instance (s : LinkState) : Decidable s.NoKeys := by
  unfold LinkState.NoKeys
  infer_instance

/-- What a task has done: nothing that lasts, a clear of the keys before the lock, a look at the
transport under the lock, or a teardown. -/
inductive LinkPhase where
  | idle
  | cleared
  | operating
  | connected
  | tearing (mc connections : Nat)
  | torn (connections : Nat)
  | down (connections : Nat)

namespace LinkPhase

/-- The phases under the operation lock. -/
def Holds : LinkPhase → Prop
  | .operating | .connected | .tearing .. | .torn _ => True
  | _ => False

/-- The calls of a task in each phase. -/
def Allows : LinkPhase → LinkOp → Prop
  | .idle, .getMeshcore | .idle, .beginDisconnect | .idle, .acquireSetupLock
  | .idle, .releaseSetupLock | .idle, .createTransport
  | .idle, .acquireOperationLock .postConnectSetup
  | .cleared, .stopContactReconciliation | .cleared, .acquireOperationLock .disconnect
  | .connected, .exportPrivateKey | .connected, .setPrivateKey _ | .connected, .setupStep _
  | .tearing .., .disableAutoReconnect | .tearing .., .disconnectTransport
  | .down _, .createTransport => True
  | .tearing mc _, .dropTransport mc' => mc' = mc
  | l, .releaseOperationLock => l.Holds
  | _, _ => False

/-- The phase after a call and its answer. -/
def after : LinkPhase → (op : LinkOp) → op.Ans → LinkPhase
  | _, .beginDisconnect, (none, connections) => .down connections
  | _, .beginDisconnect, (some _, _) => .cleared
  | _, .acquireOperationLock _, .cancelled => .idle
  | _, .acquireOperationLock .disconnect, .granted none connections => .torn connections
  | _, .acquireOperationLock .disconnect, .granted (some mc) connections =>
      .tearing mc connections
  | _, .acquireOperationLock .postConnectSetup, .granted none _ => .operating
  | _, .acquireOperationLock .postConnectSetup, .granted (some _) _ => .connected
  | .torn connections, .releaseOperationLock, _ => .down connections
  | _, .releaseOperationLock, _ => .idle
  | .tearing _ connections, .dropTransport _, _ => .torn connections
  | _, .createTransport, _ => .idle
  | l, _, _ => l

end LinkPhase

/-- The protocol of the radio's lifecycle. -/
def linkProtocol : Protocol LinkOp LinkOp.Ans LinkPhase := ⟨LinkPhase.Allows, LinkPhase.after⟩

/-- A task ends without the lock; a disconnect that returns has taken its transport down. -/
def LinkEnds : LinkResult → LinkPhase → Prop
  | .returned connections, l => l = .down connections
  | _, l => l = .idle

section Tasks

theorem runSetupSteps_follows (steps : List SetupStep) :
    linkProtocol.Follows (fun _ l => l = .connected) (runSetupSteps steps) .connected := by
  induction steps with
  | nil => rfl
  | cons step rest ih =>
      refine follows_await_bind.mpr ⟨trivial, fun awaited => ?_⟩
      change linkProtocol.Follows _ (if _ then _ else _) .connected
      split
      · exact ih
      · rfl

theorem exportAndStorePrivateKey_follows :
    linkProtocol.Follows (fun _ l => l = .connected) exportAndStorePrivateKey .connected := by
  refine follows_await_bind.mpr ⟨trivial, fun result => ?_⟩
  cases result with
  | privateKey key => exact ⟨trivial, fun _ => rfl⟩
  | _ => rfl

theorem setupBody_follows (skip : Bool) :
    linkProtocol.Follows (fun _ l => l = .idle) (setupBody skip) .idle := by
  refine follows_await_bind.mpr ⟨trivial, fun meshcore => ?_⟩
  cases meshcore with
  | none => rfl
  | some mc =>
      refine follows_await_bind.mpr ⟨trivial, fun grant => ?_⟩
      cases grant with
      | cancelled => rfl
      | granted mc connections =>
          cases mc with
          | none => exact ⟨trivial, fun _ => rfl⟩
          | some mc =>
              refine Follows.bind (exportAndStorePrivateKey_follows.mono ?_)
              rintro exported _ rfl
              have hrelease : linkProtocol.Follows (fun _ l => l = .idle)
                  (onLink .releaseOperationLock) .connected := ⟨trivial, fun _ => rfl⟩
              split
              · refine Follows.bind ((runSetupSteps_follows _).mono ?_)
                rintro _ _ rfl
                exact hrelease
              · exact hrelease

theorem runPostConnectSetup_follows (skip : Bool) :
    linkProtocol.Follows LinkEnds (runPostConnectSetup skip) .idle := by
  refine follows_await_bind.mpr ⟨trivial, fun meshcore => ?_⟩
  cases meshcore with
  | none => rfl
  | some mc =>
      refine follows_await_bind.mpr ⟨trivial, fun _ => ?_⟩
      refine Follows.bind ((setupBody_follows skip).mono ?_)
      rintro _ _ rfl
      exact ⟨trivial, fun _ => rfl⟩

theorem tearDown_follows (mc connections : Nat) :
    linkProtocol.Follows LinkEnds (tearDown mc connections) (.tearing mc connections) := by
  have hraised : linkProtocol.Follows LinkEnds
      (do onLink .releaseOperationLock; pure .raised) (.tearing mc connections) :=
    ⟨trivial, fun _ => rfl⟩
  refine follows_await_bind.mpr ⟨trivial, fun disabled => ?_⟩
  cases disabled with
  | raised => exact hraised
  | cancelled => exact hraised
  | done =>
      refine follows_await_bind.mpr ⟨trivial, fun disconnected => ?_⟩
      refine follows_await_bind.mpr ⟨trivial, fun disabled => ?_⟩
      cases disconnected with
      | raised => exact hraised
      | cancelled => exact hraised
      | done =>
          cases disabled with
          | raised => exact hraised
          | cancelled => exact hraised
          | done => exact ⟨rfl, fun _ => ⟨trivial, fun _ => rfl⟩⟩

theorem disconnect_follows : linkProtocol.Follows LinkEnds disconnect .idle := by
  refine follows_await_bind.mpr ⟨trivial, ?_⟩
  rintro ⟨mc, connections⟩
  cases mc with
  | none => rfl
  | some mc =>
      refine follows_await_bind.mpr ⟨trivial, fun _ => ?_⟩
      refine follows_await_bind.mpr ⟨trivial, fun grant => ?_⟩
      cases grant with
      | cancelled => rfl
      | granted mc connections =>
          cases mc with
          | none => exact ⟨trivial, fun _ => rfl⟩
          | some mc => exact tearDown_follows mc connections

theorem connect_follows : linkProtocol.Follows LinkEnds connect .idle := by
  refine follows_await_bind.mpr ⟨trivial, fun meshcore => ?_⟩
  cases meshcore with
  | none => exact ⟨trivial, fun _ => rfl⟩
  | some mc =>
      refine Follows.bind (disconnect_follows.mono ?_)
      rintro result l hl
      cases result with
      | returned connections =>
          obtain rfl : l = .down connections := hl
          exact ⟨trivial, fun _ => rfl⟩
      | raised => exact hl
      | finished => exact hl

theorem LinkWork.task_follows (w : LinkWork) : linkProtocol.Follows LinkEnds w.task .idle := by
  cases w with
  | connect => exact connect_follows
  | setup skip => exact runPostConnectSetup_follows skip
  | disconnect => exact disconnect_follows

end Tasks

section Invariant

/-- What a task relies on in each phase. -/
def LinkPhase.Ok (s : LinkState) : LinkPhase → Prop
  | .idle => True
  | .cleared => s.NoKeys
  | .operating => s.operationLock = true
  | .connected => s.operationLock = true ∧ s.meshcore ≠ none
  | .tearing mc connections => s.operationLock = true ∧ s.NoKeys ∧
      connections ≤ s.connections ∧ (s.connections = connections → s.meshcore = some mc)
  | .torn connections => s.operationLock = true ∧
      connections ≤ s.connections ∧ (s.connections = connections → s.meshcore = none)
  | .down connections =>
      connections ≤ s.connections ∧ (s.connections = connections → s.meshcore = none)

/-- Every task has what it relies on, one at most has the operation lock, and there is no key
without a transport. -/
structure KeysSafe (s : LinkState) (ls : Nat → LinkPhase) : Prop where
  ok : ∀ i, (ls i).Ok s
  unique : ∀ i j, (ls i).Holds → (ls j).Holds → i = j
  disconnected : s.meshcore = none → s.NoKeys

variable {s s' : LinkState} {ls : Nat → LinkPhase} {i : Nat} {l : LinkPhase}

theorem LinkPhase.Ok.locked (h : l.Ok s) (hl : l.Holds) : s.operationLock = true := by
  cases l with
  | operating => exact h
  | connected => exact h.1
  | tearing mc connections => exact h.1
  | torn connections => exact h.1
  | _ => exact hl.elim

/-- The moving task replaces its own part of the invariant. -/
theorem KeysSafe.update (h : KeysSafe s ls) (hmine : l.Ok s')
    (hothers : ∀ j, j ≠ i → (ls j).Ok s') (hholds : l.Holds → ∀ j, j ≠ i → ¬ (ls j).Holds)
    (hkeys : s'.meshcore = none → s'.NoKeys) : KeysSafe s' (Function.update ls i l) where
  ok := (Function.forall_update_iff ls fun _ l => l.Ok s').mpr ⟨hmine, hothers⟩
  unique := unique_update h.unique hholds
  disconnected := hkeys

/-- A task that keeps or gives up its place moves without a change of the state. -/
theorem KeysSafe.stay (h : KeysSafe s ls) (hmine : l.Ok s) (hl : l.Holds → (ls i).Holds) :
    KeysSafe s (Function.update ls i l) :=
  h.update hmine (fun j _ => h.ok j)
    (fun hheld j hj hother => hj (h.unique j i hother (hl hheld))) h.disconnected

/-- The others of a holder of the lock do not hold it. -/
theorem KeysSafe.others (h : KeysSafe s ls) (hl : (ls i).Holds) {j : Nat} (hj : j ≠ i) :
    ¬ (ls j).Holds :=
  fun hother => hj (h.unique j i hother hl)

/-- A task without the lock relies neither on the lock nor on the transport being there. -/
theorem LinkPhase.Ok.frame (h : l.Ok s) (hl : ¬ l.Holds) (hkeys : l = .cleared → s'.NoKeys)
    (hconnections : s'.connections = s.connections)
    (hmeshcore : s.meshcore = none → s'.meshcore = none) : l.Ok s' := by
  cases l with
  | idle => trivial
  | cleared => exact hkeys rfl
  | down connections =>
      refine ⟨by rw [hconnections]; exact h.1, fun heq => hmeshcore (h.2 ?_)⟩
      rw [← hconnections, heq]
  | _ => exact absurd trivial hl

/-- The keys are cleared. -/
theorem KeysSafe.clear (h : KeysSafe s ls) (hmine : l.Ok (clearKeys s)) (hl : ¬ l.Holds) :
    KeysSafe (clearKeys s) (Function.update ls i l) := by
  refine h.update hmine (fun j _ => ?_) (fun hheld => absurd hheld hl) fun _ => ⟨rfl, rfl⟩
  have hj := h.ok j
  cases hphase : ls j <;> rw [hphase] at hj
  case cleared => exact ⟨rfl, rfl⟩
  case tearing mc connections => exact ⟨hj.1, ⟨rfl, rfl⟩, hj.2.2⟩
  all_goals exact hj

/-- The operation lock is taken while nobody has it. -/
theorem KeysSafe.acquire (h : KeysSafe s ls) (hfree : s.operationLock = false)
    (hmine : l.Ok { s with operationLock := true }) :
    KeysSafe { s with operationLock := true } (Function.update ls i l) := by
  have hnone : ∀ j, ¬ (ls j).Holds := by
    intro j hj
    exact absurd ((h.ok j).locked hj) (by simp [hfree])
  exact h.update hmine (fun j _ => (h.ok j).frame (hnone j)
    (fun hphase => by have hj := h.ok j; rw [hphase] at hj; exact hj) rfl fun hmc => hmc)
    (fun _ j _ => hnone j) h.disconnected

/-- A holder of the lock changes what only it may change, and perhaps gives the lock back. -/
theorem KeysSafe.move (h : KeysSafe s ls) (hl : (ls i).Holds) (hmine : l.Ok s')
    (hkeys : ∀ j, ls j = .cleared → s'.NoKeys) (hconnections : s'.connections = s.connections)
    (hmeshcore : s.meshcore = none → s'.meshcore = none)
    (hdisconnected : s'.meshcore = none → s'.NoKeys) :
    KeysSafe s' (Function.update ls i l) :=
  h.update hmine
    (fun j hj => (h.ok j).frame (h.others hl hj) (hkeys j) hconnections hmeshcore)
    (fun _ _ hj => h.others hl hj) hdisconnected

/-- A new transport is created by a task without the lock. -/
theorem KeysSafe.create (h : KeysSafe s ls) :
    KeysSafe { s with meshcore := some s.connections, connections := s.connections + 1 }
      (Function.update ls i .idle) := by
  refine h.update trivial (fun j _ => ?_) (fun hheld => hheld.elim) fun hmc => (nomatch hmc)
  have hj := h.ok j
  cases hphase : ls j <;> rw [hphase] at hj
  case connected => exact ⟨hj.1, by simp⟩
  case tearing mc connections =>
    obtain ⟨hlock, hkeys, hle, -⟩ := hj
    exact ⟨hlock, hkeys, Nat.le_succ_of_le hle, fun heq => absurd heq (by dsimp only; omega)⟩
  case torn connections =>
    obtain ⟨hlock, hle, -⟩ := hj
    exact ⟨hlock, Nat.le_succ_of_le hle, fun heq => absurd heq (by dsimp only; omega)⟩
  case down connections =>
    obtain ⟨hle, -⟩ := hj
    exact ⟨Nat.le_succ_of_le hle, fun heq => absurd heq (by dsimp only; omega)⟩
  all_goals exact hj

/-- The setup lock is no matter of the invariant. -/
theorem KeysSafe.setupLock (h : KeysSafe s ls) (held : Bool) :
    KeysSafe { s with setupLock := held } ls where
  ok j := by
    have hj := h.ok j
    cases hphase : ls j <;> rw [hphase] at hj <;> exact hj
  unique := h.unique
  disconnected := h.disconnected

/-- The keys that a cleared task relies on, in a state with the same keys. -/
theorem KeysSafe.noKeys (h : KeysSafe s ls) {t : LinkState} (hprivate : t.privateKey = s.privateKey)
    (hpublic : t.publicKey = s.publicKey) : ∀ j, ls j = .cleared → t.NoKeys := by
  intro j hj
  have hkeys := h.ok j
  rw [hj] at hkeys
  exact ⟨hprivate.trans hkeys.1, hpublic.trans hkeys.2⟩

/-- A call of a task that is at nothing. -/
theorem keysSafe_idle {derivePublicKey : Bytes → Option Bytes} {op : LinkOp} {x : op.Ans}
    (h : KeysSafe s ls) (hphase : ls i = .idle) (hallowed : (ls i).Allows op)
    (hx : linking derivePublicKey op s x s') :
    KeysSafe s' (Function.update ls i ((ls i).after op x)) := by
  obtain ⟨c, hc⟩ := hx
  rw [hphase]
  cases op with
  | getMeshcore =>
      simp only [performLink, Option.some.injEq, Prod.mk.injEq] at hc
      obtain ⟨-, rfl⟩ := hc
      exact h.stay trivial fun hl => hl.elim
  | beginDisconnect =>
      simp only [performLink, Option.some.injEq, Prod.mk.injEq] at hc
      obtain ⟨rfl, rfl⟩ := hc
      cases hmc : s.meshcore with
      | none => exact h.clear ⟨Nat.le_refl _, fun _ => hmc⟩ id
      | some mc => exact h.clear ⟨rfl, rfl⟩ id
  | acquireSetupLock =>
      simp only [performLink, Option.ite_none_left_eq_some, Option.some.injEq,
        Prod.mk.injEq] at hc
      obtain ⟨-, -, rfl⟩ := hc
      exact (h.setupLock true).stay trivial fun hl => hl.elim
  | releaseSetupLock =>
      simp only [performLink, Option.some.injEq, Prod.mk.injEq] at hc
      obtain ⟨-, rfl⟩ := hc
      exact (h.setupLock false).stay trivial fun hl => hl.elim
  | createTransport =>
      simp only [performLink] at hc
      split at hc <;> simp only [Option.some.injEq, Prod.mk.injEq] at hc <;>
        obtain ⟨-, rfl⟩ := hc
      · exact h.create
      · exact h.stay trivial fun hl => hl.elim
  | acquireOperationLock holder =>
      cases holder with
      | disconnect => simp [hphase, LinkPhase.Allows] at hallowed
      | postConnectSetup =>
          simp only [performLink] at hc
          split at hc
          next =>
            simp only [Option.some.injEq, Prod.mk.injEq] at hc
            obtain ⟨rfl, rfl⟩ := hc
            exact h.stay trivial fun hl => hl.elim
          next =>
            simp only [Option.ite_none_left_eq_some, Option.some.injEq, Prod.mk.injEq] at hc
            obtain ⟨hfree, rfl, rfl⟩ := hc
            have hfree : s.operationLock = false := by simpa using hfree
            refine h.acquire hfree ?_
            cases hmc : s.meshcore with
            | none => exact (rfl : true = true)
            | some mc => exact ⟨rfl, fun hnone => (nomatch hnone)⟩
  | _ => simp [hphase, LinkPhase.Allows, LinkPhase.Holds] at hallowed

/-- A call of the disconnect, once the keys are cleared. -/
theorem keysSafe_cleared {derivePublicKey : Bytes → Option Bytes} {op : LinkOp} {x : op.Ans}
    (h : KeysSafe s ls) (hphase : ls i = .cleared) (hallowed : (ls i).Allows op)
    (hx : linking derivePublicKey op s x s') :
    KeysSafe s' (Function.update ls i ((ls i).after op x)) := by
  obtain ⟨c, hc⟩ := hx
  have hi := h.ok i
  rw [hphase]
  rw [hphase] at hi
  cases op with
  | stopContactReconciliation =>
      simp only [performLink, Option.some.injEq, Prod.mk.injEq] at hc
      obtain ⟨-, rfl⟩ := hc
      exact h.stay hi fun hl => hl.elim
  | acquireOperationLock holder =>
      cases holder with
      | postConnectSetup => simp [hphase, LinkPhase.Allows] at hallowed
      | disconnect =>
          simp only [performLink] at hc
          split at hc
          next =>
            simp only [Option.some.injEq, Prod.mk.injEq] at hc
            obtain ⟨rfl, rfl⟩ := hc
            exact h.stay trivial fun hl => hl.elim
          next =>
            simp only [Option.ite_none_left_eq_some, Option.some.injEq, Prod.mk.injEq] at hc
            obtain ⟨hfree, rfl, rfl⟩ := hc
            have hfree : s.operationLock = false := by simpa using hfree
            refine h.acquire hfree ?_
            cases hmc : s.meshcore with
            | none => exact ⟨rfl, Nat.le_refl _, fun _ => rfl⟩
            | some mc => exact ⟨rfl, hi, Nat.le_refl _, fun _ => rfl⟩
  | _ => simp [hphase, LinkPhase.Allows, LinkPhase.Holds] at hallowed

/-- A call of the setup under the operation lock. -/
theorem keysSafe_connected {derivePublicKey : Bytes → Option Bytes} {op : LinkOp} {x : op.Ans}
    (h : KeysSafe s ls) (hphase : ls i = .connected) (hallowed : (ls i).Allows op)
    (hx : linking derivePublicKey op s x s')
    (hquiet : ∀ key, op = .setPrivateKey key → ∀ j, ls j ≠ .cleared) :
    KeysSafe s' (Function.update ls i ((ls i).after op x)) := by
  obtain ⟨c, hc⟩ := hx
  have hi := h.ok i
  rw [hphase]
  rw [hphase] at hi
  have hholds : (ls i).Holds := by
    rw [hphase]
    trivial
  cases op with
  | releaseOperationLock =>
      simp only [performLink, Option.some.injEq, Prod.mk.injEq] at hc
      obtain ⟨-, rfl⟩ := hc
      exact h.move hholds trivial (h.noKeys rfl rfl) rfl id h.disconnected
  | exportPrivateKey =>
      simp only [performLink, Option.some.injEq, Prod.mk.injEq] at hc
      obtain ⟨-, rfl⟩ := hc
      exact h.stay hi fun _ => hholds
  | setupStep step =>
      simp only [performLink, Option.some.injEq, Prod.mk.injEq] at hc
      obtain ⟨-, rfl⟩ := hc
      exact h.stay hi fun _ => hholds
  | setPrivateKey key =>
      simp only [performLink, Option.some.injEq] at hc
      have hframe : s'.meshcore = s.meshcore ∧ s'.connections = s.connections ∧
          s'.operationLock = s.operationLock := by
        have hs' : s' = (setPrivateKey derivePublicKey key s).2 := (congrArg Prod.snd hc).symm
        rw [hs']
        unfold setPrivateKey
        split
        · exact ⟨rfl, rfl, rfl⟩
        · split <;> exact ⟨rfl, rfl, rfl⟩
      obtain ⟨hmc, hconnections, hlock⟩ := hframe
      refine h.move hholds ⟨hlock.trans hi.1, fun hnone => hi.2 (hmc ▸ hnone)⟩
        (fun j hj => absurd hj (hquiet key rfl j)) hconnections (fun hnone => hmc.trans hnone)
        fun hnone => absurd (hmc ▸ hnone) hi.2
  | _ => simp [hphase, LinkPhase.Allows] at hallowed

/-- A call of the disconnect that holds the operation lock. -/
theorem keysSafe_tearing {derivePublicKey : Bytes → Option Bytes} {op : LinkOp} {x : op.Ans}
    {mc connections : Nat} (h : KeysSafe s ls) (hphase : ls i = .tearing mc connections)
    (hallowed : (ls i).Allows op) (hx : linking derivePublicKey op s x s') :
    KeysSafe s' (Function.update ls i ((ls i).after op x)) := by
  obtain ⟨c, hc⟩ := hx
  have hi := h.ok i
  rw [hphase]
  rw [hphase] at hi
  obtain ⟨hlock, hkeys, hle, hmc⟩ := hi
  have hholds : (ls i).Holds := by
    rw [hphase]
    trivial
  cases op with
  | releaseOperationLock =>
      simp only [performLink, Option.some.injEq, Prod.mk.injEq] at hc
      obtain ⟨-, rfl⟩ := hc
      exact h.move hholds trivial (h.noKeys rfl rfl) rfl id h.disconnected
  | disableAutoReconnect =>
      simp only [performLink, Option.some.injEq, Prod.mk.injEq] at hc
      obtain ⟨-, rfl⟩ := hc
      exact h.stay ⟨hlock, hkeys, hle, hmc⟩ fun _ => hholds
  | disconnectTransport =>
      simp only [performLink, Option.some.injEq, Prod.mk.injEq] at hc
      obtain ⟨-, rfl⟩ := hc
      exact h.stay ⟨hlock, hkeys, hle, hmc⟩ fun _ => hholds
  | dropTransport mc' =>
      rw [hphase] at hallowed
      obtain rfl : mc' = mc := hallowed
      simp only [performLink, Option.some.injEq, Prod.mk.injEq] at hc
      obtain ⟨-, rfl⟩ := hc
      split
      next hown =>
        exact h.move hholds ⟨hlock, hle, fun _ => rfl⟩ (fun _ _ => hkeys) rfl (fun _ => rfl)
          fun _ => hkeys
      next hother =>
        exact h.move hholds ⟨hlock, hle, fun heq => absurd (hmc heq) hother⟩
          (fun _ _ => hkeys) rfl id fun _ => hkeys
  | _ => simp [hphase, LinkPhase.Allows] at hallowed

/-- One call of a task, where its phase allows it, keeps the invariant, unless it stores a key
while a disconnect that has cleared the keys waits for the lock. -/
theorem keysSafe_step {derivePublicKey : Bytes → Option Bytes} {op : LinkOp} {x : op.Ans}
    (h : KeysSafe s ls) (hallowed : (ls i).Allows op) (hx : linking derivePublicKey op s x s')
    (hquiet : ∀ key, op = .setPrivateKey key → ∀ j, ls j ≠ .cleared) :
    KeysSafe s' (Function.update ls i ((ls i).after op x)) := by
  cases hphase : ls i with
  | idle => exact hphase ▸ keysSafe_idle h hphase hallowed hx
  | cleared => exact hphase ▸ keysSafe_cleared h hphase hallowed hx
  | connected => exact hphase ▸ keysSafe_connected h hphase hallowed hx hquiet
  | tearing mc connections => exact hphase ▸ keysSafe_tearing h hphase hallowed hx
  | operating =>
      obtain ⟨c, hc⟩ := hx
      cases op with
      | releaseOperationLock =>
          simp only [performLink, Option.some.injEq, Prod.mk.injEq] at hc
          obtain ⟨-, rfl⟩ := hc
          exact h.move (by rw [hphase]; trivial) trivial (h.noKeys rfl rfl) rfl id h.disconnected
      | _ => simp [hphase, LinkPhase.Allows] at hallowed
  | torn connections =>
      obtain ⟨c, hc⟩ := hx
      have hi := h.ok i
      rw [hphase] at hi
      cases op with
      | releaseOperationLock =>
          simp only [performLink, Option.some.injEq, Prod.mk.injEq] at hc
          obtain ⟨-, rfl⟩ := hc
          exact h.move (by rw [hphase]; trivial) hi.2 (h.noKeys rfl rfl) rfl id h.disconnected
      | _ => simp [hphase, LinkPhase.Allows] at hallowed
  | down connections =>
      obtain ⟨c, hc⟩ := hx
      cases op with
      | createTransport =>
          simp only [performLink] at hc
          split at hc <;> simp only [Option.some.injEq, Prod.mk.injEq] at hc <;>
            obtain ⟨-, rfl⟩ := hc
          · exact h.create
          · exact h.stay trivial fun hl => hl.elim
      | _ => simp [hphase, LinkPhase.Allows, LinkPhase.Holds] at hallowed

end Invariant

section Runs

/-- The key that a call stores. -/
def LinkOp.key : LinkOp → Option Bytes
  | .setPrivateKey key => some key
  | _ => none

/-- A disconnect that has cleared the keystore and does not have the operation lock yet. -/
def Waiting (t : LinkTask LinkResult) : Bool :=
  match t.nextCall with
  | some .stopContactReconciliation | some (.acquireOperationLock .disconnect) => true
  | _ => false

/-- No key is stored while a disconnect that has cleared the keystore waits for the lock. -/
def NoLateExport (p : Pool LinkOp LinkOp.Ans LinkResult LinkState) (i : Nat) : Prop :=
  ∀ t ∈ p.threads[i]?, ∀ key ∈ t.nextCall.bind LinkOp.key, ∀ u ∈ p.threads, Waiting u = false

instance (p : Pool LinkOp LinkOp.Ans LinkResult LinkState) (i : Nat) :
    Decidable (NoLateExport p i) := by
  unfold NoLateExport
  infer_instance

/-- A task in the phase of a cleared keystore waits. -/
theorem waiting_of_cleared {t : LinkTask LinkResult}
    (h : linkProtocol.Follows LinkEnds t .cleared) : Waiting t = true := by
  cases t with
  | pure result => cases result <;> exact (nomatch h)
  | call op next =>
      cases op with
      | stopContactReconciliation => rfl
      | acquireOperationLock holder =>
          cases holder with
          | disconnect => rfl
          | postConnectSetup => exact h.1.elim
      | _ => exact h.1.elim

/-- When no key is stored while a disconnect that has cleared the keystore waits for the lock, no
key is left once a disconnect has returned and no transport was created since. -/
theorem no_key_survives_disconnect (derivePublicKey : Bytes → Option Bytes)
    {works : List LinkWork} {q : Pool LinkOp LinkOp.Ans LinkResult LinkState}
    (run : Pool.Run (linking derivePublicKey) NoLateExport (linkPool works) q) {i n : Nat}
    (hi : q.threads[i]? = some (.pure (.returned n))) (hconnections : q.shared.connections = n) :
    q.shared.NoKeys := by
  have hidle : linkProtocol.Follow LinkEnds .idle (linkPool works) fun _ => .idle := by
    apply follow_idle
    intro t ht
    obtain ⟨w, -, rfl⟩ := List.mem_map.mp ht
    exact w.task_follows
  have hsafe : KeysSafe (linkPool works).shared fun _ => .idle :=
    ⟨fun _ => trivial, fun _ _ h => h.elim, fun _ => ⟨rfl, rfl⟩⟩
  obtain ⟨ls, hfollow, hq⟩ := Follow.run (I := KeysSafe) run
    (fun {p ls i op next x s'} hfollow hI hc hi hallowed hx => by
      refine keysSafe_step hI hallowed hx ?_
      rintro key rfl j hj
      cases hthread : p.threads[j]? with
      | none => exact (nomatch (hfollow.missing j hthread).symm.trans hj)
      | some t =>
          have hwaiting := waiting_of_cleared (hj ▸ hfollow.threads j t hthread)
          have hquiet := hc _ hi key rfl t (List.mem_of_getElem? hthread)
          exact absurd hwaiting (by simp [hquiet])) hidle hsafe
  have hdown : ls i = .down n := hfollow.threads i _ hi
  have hok := hq.ok i
  rw [hdown] at hok
  exact hq.disconnected (hok.2 hconnections)

end Runs

section Sample

theorem thread_returned {q : Pool LinkOp LinkOp.Ans LinkResult LinkState} {i : Nat}
    {result : LinkResult} (h : q.threads[i]?.bind Program.returned = some result) :
    q.threads[i]? = some (.pure result) := by
  obtain ⟨t, ht, hreturned⟩ := Option.bind_eq_some_iff.mp h
  rw [ht, Program.returned_eq_some_iff.mp hreturned]

/-- A radio that exports a key. -/
def exportingRadio : LinkChoice := { exported := .privateKey (List.replicate 64 1) }

/-- A connection is set up and then taken down. -/
def setUpAndDown : List (Nat × LinkChoice) :=
  ([0, 0] ++ List.replicate 14 1 ++ List.replicate 8 2).map (·, exportingRadio)

/-- A setup that ended before leaves no key. -/
theorem no_key_survives_disconnect_setUpAndDown :
    ∃ q, Pool.Run (linking some) NoLateExport (linkPool [.connect, .setup true, .disconnect]) q ∧
      q.threads[2]? = some (.pure (.returned 1)) ∧ q.shared.connections = 1 ∧ q.shared.NoKeys := by
  have hexec : (Pool.execIf (performLink some) (fun p i => decide (NoLateExport p i)) setUpAndDown
      (linkPool [.connect, .setup true, .disconnect])).any (fun q => decide
        (q.threads[2]?.bind Program.returned = some (.returned 1) ∧ q.shared.connections = 1)) =
      true := by
    decide +kernel
  obtain ⟨q, hrun, hthread, hconnections⟩ := Pool.execIf_reaches hexec
  have run : Pool.Run (linking some) NoLateExport
      (linkPool [.connect, .setup true, .disconnect]) q :=
    hrun.mono fun _ _ h => of_decide_eq_true h
  have hreturned := thread_returned hthread
  exact ⟨q, run, hreturned, hconnections,
    no_key_survives_disconnect some run hreturned hconnections⟩

/-- The setup exports the key after the disconnect has cleared the keystore. -/
def exportAfterClear : List (Nat × LinkChoice) :=
  ([0, 0] ++ List.replicate 4 1 ++ [2, 2] ++ List.replicate 10 1 ++ List.replicate 6 2).map
    (·, exportingRadio)

/-- The key of a radio that is gone. -/
theorem key_survives_disconnect :
    ∃ q, Pool.Run (linking some) Pool.always (linkPool [.connect, .setup true, .disconnect]) q ∧
      q.threads[2]? = some (.pure (.returned 1)) ∧ q.shared.connections = 1 ∧
      ¬ q.shared.NoKeys := by
  have hexec : (Pool.exec (performLink some) (fun _ _ _ => true) exportAfterClear
      (linkPool [.connect, .setup true, .disconnect])).any (fun q => decide
        (q.threads[2]?.bind Program.returned = some (.returned 1) ∧ q.shared.connections = 1 ∧
          ¬ q.shared.NoKeys)) = true := by
    decide +kernel
  obtain ⟨q, hrun, hthread, hend⟩ := Pool.exec_reaches hexec
  exact ⟨q, hrun.mono fun _ _ _ => trivial, thread_returned hthread, hend⟩

end Sample

end RemoteTerm
