import RemoteTerm.Library.Program

/-!
# Tasks that share one lock

A program is balanced when on every path it acquires the lock only while it
does not hold it, releases it only while it does, and ends without it. In a pool
of balanced programs the lock is held by exactly one task or by none, so a pool
that cannot move has finished.

## Implementation notes

The lock is one Boolean of the shared state. Every call other than the
acquisition is assumed to answer in every state.
-/

namespace Library

/-- What a call does to the lock. -/
inductive LockUse where
  | acquire
  | release
  | neither
  deriving DecidableEq

/-- A lock: how calls use it, and where the shared state keeps it. -/
structure Lock {Op : Type} {Ans : Op → Type} {σ : Type} (sem : Program.Semantics Op Ans σ) where
  use : Op → LockUse
  held : σ → Bool
  acquire_iff : ∀ {op s}, use op = .acquire → ((∃ x s', sem op s x s') ↔ held s = false)
  acquire_held : ∀ {op s x s'}, use op = .acquire → sem op s x s' → held s' = true
  release_held : ∀ {op s x s'}, use op = .release → sem op s x s' → held s' = false
  frame : ∀ {op s x s'}, use op = .neither → sem op s x s' → held s' = held s
  answers : ∀ {op s}, use op ≠ .acquire → ∃ x s', sem op s x s'

namespace Lock

open Program

variable {Op : Type} {Ans : Op → Type} {α β σ : Type} {sem : Semantics Op Ans σ}

/-- Whether the program holds the lock after a call. -/
def after (use : LockUse) (holds : Bool) : Bool :=
  match use with
  | .acquire => true
  | .release => false
  | .neither => holds

/-- A program that starts with or without the lock, uses it in turn, and ends without it. -/
def Balanced (use : Op → LockUse) (ends : Bool) : Bool → Program Op Ans α → Prop
  | holds, .pure _ => holds = ends
  | holds, .call op next =>
      (use op = .acquire → holds = false) ∧ (use op = .release → holds = true) ∧
        ∀ x, Balanced use ends (after (use op) holds) (next x)

variable {use : Op → LockUse}

@[simp] theorem balanced_pure {ends holds : Bool} {a : α} :
    Balanced use ends holds (Program.pure a : Program Op Ans α) ↔ holds = ends := Iff.rfl

@[simp] theorem balanced_call {ends holds : Bool} {op : Op} {next : Ans op → Program Op Ans α} :
    Balanced use ends holds (.call op next) ↔
      (use op = .acquire → holds = false) ∧ (use op = .release → holds = true) ∧
        ∀ x, Balanced use ends (after (use op) holds) (next x) := Iff.rfl

/-- Balanced programs compose at the state of the lock between them. -/
theorem Balanced.bind {mid ends holds : Bool} {p : Program Op Ans α} {f : α → Program Op Ans β}
    (hp : Balanced use mid holds p) (hf : ∀ a, Balanced use ends mid (f a)) :
    Balanced use ends holds (p >>= f) := by
  induction p generalizing holds with
  | pure a => exact (balanced_pure.mp hp) ▸ hf a
  | call op next ih => exact ⟨hp.1, hp.2.1, fun x => ih x (hp.2.2 x)⟩

/-- A program that never touches the lock keeps it as it was. -/
theorem balanced_of_calls {holds : Bool} {p : Program Op Ans α}
    (hp : p.Calls fun op => use op = .neither) : Balanced use holds holds p := by
  induction p with
  | pure a => rfl
  | call op next ih =>
      obtain ⟨hop, hnext⟩ := hp
      refine ⟨by simp [hop], by simp [hop], fun x => ?_⟩
      simpa [hop, after] using ih x (hnext x)

variable (lock : Lock sem)

/-- The lock is held by one thread or by none, and every thread is balanced for its part. -/
def Held (p : Pool Op Ans α σ) : Prop :=
  ∃ owner : Option Nat, lock.held p.shared = owner.isSome ∧ (∀ i ∈ owner, i < p.threads.length) ∧
    ∀ i t, p.threads[i]? = some t → Balanced lock.use false (decide (owner = some i)) t

variable {lock}

/-- Balanced threads that have not started hold nothing. -/
theorem held_of_free {p : Pool Op Ans α σ} (hfree : lock.held p.shared = false)
    (h : ∀ t ∈ p.threads, Balanced lock.use false false t) : lock.Held p := by
  refine ⟨none, by simp [hfree], by simp, fun i t ht => ?_⟩
  simpa using h t (List.mem_of_getElem? ht)

/-- Every step hands the lock over as the call says. -/
theorem held_step {p q : Pool Op Ans α σ} {i : Nat} (h : lock.Held p)
    (step : Pool.Step sem p i q) : lock.Held q := by
  obtain ⟨owner, hheld, hlt, hbal⟩ := h
  obtain ⟨hi, hx⟩ := step
  rename_i op next x s'
  obtain ⟨hacq, hrel, hnext⟩ := hbal i _ hi
  have hlen : i < p.threads.length := (List.getElem?_eq_some_iff.mp hi).1
  -- the new owner agrees with the old one on every other thread
  suffices hs : ∃ owner' : Option Nat, lock.held s' = owner'.isSome ∧
      (∀ j ∈ owner', j < p.threads.length) ∧
      after (lock.use op) (decide (owner = some i)) = decide (owner' = some i) ∧
      ∀ j, j ≠ i → decide (owner' = some j) = decide (owner = some j) by
    obtain ⟨owner', hheld', hlt', hself, hother⟩ := hs
    refine ⟨owner', hheld', by simpa using hlt', fun j t ht => ?_⟩
    by_cases hij : j = i
    · subst hij
      simp only [List.getElem?_set_self hlen, Option.some.injEq] at ht
      exact ht ▸ hself ▸ hnext x
    · simp only [List.getElem?_set_ne (Ne.symm hij)] at ht
      exact hother j hij ▸ hbal j t ht
  cases huse : lock.use op with
  | acquire =>
      have hfree : lock.held p.shared = false := (lock.acquire_iff huse).mp ⟨x, s', hx⟩
      have hnone : owner = none := by simpa [hheld] using hfree
      refine ⟨some i, by simpa using lock.acquire_held huse hx, by simpa using hlen, ?_, ?_⟩
      · simp [after]
      · intro j hj
        simp [hnone, Ne.symm hj]
  | release =>
      have howner : owner = some i := by simpa using hrel huse
      refine ⟨none, by simpa using lock.release_held huse hx, by simp, by simp [after], ?_⟩
      intro j hj
      simp [howner, Ne.symm hj]
  | neither =>
      exact ⟨owner, (lock.frame huse hx).trans hheld, hlt, rfl, fun _ _ => rfl⟩

/-- The lock is held by one thread or by none in every run. -/
theorem held_run {C : Pool Op Ans α σ → Nat → Prop} {p q : Pool Op Ans α σ}
    (run : Pool.Run sem C p q) (h : lock.Held p) : lock.Held q :=
  run.invariant (fun ha _ step => held_step ha step) h

/-- A pool of balanced threads that cannot move has finished. -/
theorem finished_or_step {p : Pool Op Ans α σ} (h : lock.Held p) :
    p.Finished ∨ ∃ i q, Pool.Step sem p i q := by
  obtain ⟨owner, hheld, hlt, hbal⟩ := h
  -- a thread that is suspended at a call the lock does not stop can move
  have hmove : ∀ (i : Nat) (op : Op) (next : Ans op → Program Op Ans α),
      p.threads[i]? = some (.call op next) →
      (lock.use op = .acquire → lock.held p.shared = false) → ∃ i q, Pool.Step sem p i q := by
    intro i op next hi hfree
    have hans : ∃ x s', sem op p.shared x s' := by
      by_cases huse : lock.use op = .acquire
      · exact (lock.acquire_iff huse).mpr (hfree huse)
      · exact lock.answers huse
    obtain ⟨x, s', hx⟩ := hans
    exact ⟨i, _, .call hi hx⟩
  cases howner : owner with
  | some i =>
      right
      have hi := hlt i howner
      have hget : p.threads[i]? = some p.threads[i] := List.getElem?_eq_getElem hi
      have hb := hbal i _ hget
      cases ht : p.threads[i] with
      | pure a => simp [ht, howner] at hb
      | call op next =>
          rw [ht] at hget hb
          refine hmove i op next hget fun huse => ?_
          simpa [howner] using hb.1 huse
  | none =>
      by_cases hdone : p.Finished
      · exact .inl hdone
      · right
        simp only [Pool.Finished, not_forall] at hdone
        obtain ⟨i, t, ht, hne⟩ := hdone
        cases t with
        | pure a => exact absurd ⟨a, rfl⟩ hne
        | call op next => exact hmove i op next ht fun _ => by simpa [howner] using hheld

end Lock

end Library
