import Mathlib.Logic.Function.Basic
import RemoteTerm.Library.Program

/-!
# Protocols of threads

A protocol gives every thread a local state that its calls and their answers
move: which calls it may make, and what it owes or holds after them. A program
follows the protocol when each of its calls is allowed where it stands. An
invariant of the shared state and the local states that every allowed call keeps
holds in every run of threads that follow the protocol.
-/

namespace Library

/-- Which calls a local state allows, and the local state after a call and its answer. -/
structure Protocol (Op : Type) (Ans : Op → Type) (L : Type) where
  allowed : L → Op → Prop
  after : L → (op : Op) → Ans op → L

namespace Protocol

open Program

variable {Op : Type} {Ans : Op → Type} {L α β σ : Type} {P : Protocol Op Ans L}

/-- The program follows the protocol from a local state; it returns where `Q` holds. -/
def Follows (P : Protocol Op Ans L) (Q : α → L → Prop) : Program Op Ans α → L → Prop
  | .pure a, l => Q a l
  | .call op next, l => P.allowed l op ∧ ∀ x, Follows P Q (next x) (P.after l op x)

variable {Q : α → L → Prop}

@[simp] theorem follows_pure {a : α} {l : L} :
    P.Follows Q (.pure a : Program Op Ans α) l ↔ Q a l := Iff.rfl

@[simp] theorem follows_call {op : Op} {next : Ans op → Program Op Ans α} {l : L} :
    P.Follows Q (.call op next) l ↔
      P.allowed l op ∧ ∀ x, P.Follows Q (next x) (P.after l op x) := Iff.rfl

theorem Follows.mono {Q' : α → L → Prop} (hQ : ∀ a l, Q a l → Q' a l) {p : Program Op Ans α}
    {l : L} (h : P.Follows Q p l) : P.Follows Q' p l := by
  induction p generalizing l with
  | pure a => exact hQ a l h
  | call op next ih => exact ⟨h.1, fun x => ih x (h.2 x)⟩

/-- Programs compose at the local state between them. -/
theorem Follows.bind {p : Program Op Ans α} {f : α → Program Op Ans β} {Q' : β → L → Prop} {l : L}
    (h : P.Follows (fun a l' => P.Follows Q' (f a) l') p l) : P.Follows Q' (p >>= f) l := by
  induction p generalizing l with
  | pure a => exact h
  | call op next ih => exact ⟨h.1, fun x => ih x (h.2 x)⟩

/-- A call, and what follows it. -/
theorem follows_await_bind {op : Op} {f : Ans op → Program Op Ans β} {Q' : β → L → Prop} {l : L} :
    P.Follows Q' (await op >>= f) l ↔
      P.allowed l op ∧ ∀ x, P.Follows Q' (f x) (P.after l op x) := Iff.rfl

/-- Calls that are allowed in a local state and stay there. -/
theorem follows_of_calls {ok : Op → Prop} {l : L}
    (hok : ∀ op, ok op → P.allowed l op ∧ ∀ x, P.after l op x = l) {p : Program Op Ans α}
    (hp : p.Calls ok) : P.Follows (fun _ l' => l' = l) p l := by
  induction p with
  | pure a => rfl
  | call op next ih =>
      obtain ⟨hallowed, hafter⟩ := hok op hp.1
      refine ⟨hallowed, fun x => ?_⟩
      rw [hafter x]
      exact ih x (hp.2 x)

/-- A program over other calls follows the protocol when each of its calls is replaced by a
program that moves the local state alike. -/
theorem Follows.hoist {Op' : Type} {Ans' : Op' → Type} {P' : Protocol Op' Ans' L}
    {emb : (op : Op) → Program Op' Ans' (Ans op)}
    (hemb : ∀ {op l}, P.allowed l op → P'.Follows (fun x l' => l' = P.after l op x) (emb op) l)
    {p : Program Op Ans α} {l : L} (h : P.Follows Q p l) : P'.Follows Q (p.hoist emb) l := by
  induction p generalizing l with
  | pure a => exact h
  | call op next ih =>
      refine Follows.bind ((hemb h.1).mono fun x l' hl => ?_)
      subst hl
      exact ih x (h.2 x)

/-- One thread at most is in a local state with a property, when the one that moves gets there only
while no other is. -/
theorem unique_update {ls : Nat → L} {i : Nat} {l : L} {Holds : L → Prop}
    (h : ∀ j j', Holds (ls j) → Holds (ls j') → j = j')
    (hl : Holds l → ∀ j, j ≠ i → ¬ Holds (ls j)) (j j' : Nat)
    (hj : Holds (Function.update ls i l j)) (hj' : Holds (Function.update ls i l j')) : j = j' := by
  by_cases hji : j = i <;> by_cases hji' : j' = i
  · exact hji.trans hji'.symm
  · rw [hji, Function.update_self] at hj
    rw [Function.update_of_ne hji'] at hj'
    exact absurd hj' (hl hj j' hji')
  · rw [hji', Function.update_self] at hj'
    rw [Function.update_of_ne hji] at hj
    exact absurd hj (hl hj' j hji)
  · rw [Function.update_of_ne hji] at hj
    rw [Function.update_of_ne hji'] at hj'
    exact h j j' hj hj'

/-- Every thread follows the protocol from its local state; there is none beyond the threads. -/
structure Follow (P : Protocol Op Ans L) (Q : α → L → Prop) (idle : L) (p : Pool Op Ans α σ)
    (ls : Nat → L) : Prop where
  threads : ∀ (i : Nat) (t : Program Op Ans α), p.threads[i]? = some t → P.Follows Q t (ls i)
  missing : ∀ i : Nat, p.threads[i]? = none → ls i = idle

variable {sem : Semantics Op Ans σ} {C : Pool Op Ans α σ → Nat → Prop} {idle : L}

theorem Follow.step {p : Pool Op Ans α σ} {ls : Nat → L} {i : Nat} {op : Op}
    {next : Ans op → Program Op Ans α} (h : P.Follow Q idle p ls)
    (hi : p.threads[i]? = some (.call op next)) (x : Ans op) (s' : σ) :
    P.Follow Q idle ⟨s', p.threads.set i (next x)⟩
      (Function.update ls i (P.after (ls i) op x)) := by
  have hlt : i < p.threads.length := (List.getElem?_eq_some_iff.mp hi).1
  constructor
  · intro j t ht
    by_cases hij : j = i
    · subst hij
      simp only [List.getElem?_set_self hlt, Option.some.injEq] at ht
      rw [Function.update_self, ← ht]
      exact (h.threads j _ hi).2 x
    · simp only [List.getElem?_set_ne (Ne.symm hij)] at ht
      rw [Function.update_of_ne hij]
      exact h.threads j t ht
  · intro j hj
    have hij : j ≠ i := by
      rintro rfl
      simp [hlt] at hj
    simp only [List.getElem?_set_ne (Ne.symm hij)] at hj
    rw [Function.update_of_ne hij]
    exact h.missing j hj

/-- An invariant that every allowed call keeps holds at the end of every run of threads that
follow the protocol. -/
theorem Follow.run {I : σ → (Nat → L) → Prop} {p q : Pool Op Ans α σ} {ls : Nat → L}
    (run : Pool.Run sem C p q)
    (hstep : ∀ {p : Pool Op Ans α σ} {ls : Nat → L} {i : Nat} {op : Op}
      {next : Ans op → Program Op Ans α} {x : Ans op} {s' : σ}, P.Follow Q idle p ls →
      I p.shared ls → C p i → p.threads[i]? = some (.call op next) → P.allowed (ls i) op →
      sem op p.shared x s' → I s' (Function.update ls i (P.after (ls i) op x)))
    (h : P.Follow Q idle p ls) (hI : I p.shared ls) :
    ∃ ls', P.Follow Q idle q ls' ∧ I q.shared ls' := by
  refine run.invariant (I := fun a => ∃ ls', P.Follow Q idle a ls' ∧ I a.shared ls') ?_ ⟨ls, h, hI⟩
  rintro a b i ⟨ls', hfollow, hIa⟩ hc ⟨hi, hx⟩
  have hallowed := (hfollow.threads i _ hi).1
  exact ⟨_, hfollow.step hi _ _, hstep hfollow hIa hc hi hallowed hx⟩

/-- Threads that have not started follow the protocol from the idle state. -/
theorem follow_idle {p : Pool Op Ans α σ} (h : ∀ t ∈ p.threads, P.Follows Q t idle) :
    P.Follow Q idle p fun _ => idle :=
  ⟨fun _ t ht => h t (List.mem_of_getElem? ht), fun _ _ => rfl⟩

end Protocol

end Library
