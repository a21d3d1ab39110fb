import RemoteTerm.Library.Program

/-!
# Runs among others

A program runs while others move the shared state between its calls, and each of its
calls may be its last: the call raises, or the task is cancelled there. A run is
recorded with the answers that it got.

## Implementation notes

A call that ends the run leaves a state that the others may lead to. What it wrote
before it ended the run is one of their moves when these include the calls.
-/

namespace Library

namespace Program

variable {Op : Type} {Ans : Op → Type} {α β σ : Type}

/-- How a run ends. -/
inductive Ending (α : Type) where
  | returned (a : α)
  | raised
  | cancelled

/-- A program runs from a state to its end while the others move along `R`. -/
inductive Among (sem : Semantics Op Ans σ) (R : σ → σ → Prop) :
    Program Op Ans α → σ → List ((op : Op) × Ans op) → Ending α → σ → Prop
  | pure (a : α) (s : σ) : Among sem R (.pure a) s [] (.returned a) s
  | call {op : Op} {next : Ans op → Program Op Ans α} {s s' s'' t : σ} {x : Ans op}
      {answers : List ((op : Op) × Ans op)} {ending : Ending α} (others : R s s')
      (h : sem op s' x s'') (tail : Among sem R (next x) s'' answers ending t) :
      Among sem R (.call op next) s (⟨op, x⟩ :: answers) ending t
  | raised {op : Op} {next : Ans op → Program Op Ans α} {s s' : σ} (others : R s s') :
      Among sem R (.call op next) s [] .raised s'
  | cancelled {op : Op} {next : Ans op → Program Op Ans α} {s s' : σ} (others : R s s') :
      Among sem R (.call op next) s [] .cancelled s'

namespace Among

variable {sem : Semantics Op Ans σ} {R : σ → σ → Prop} {s t : σ}
  {answers : List ((op : Op) × Ans op)}

theorem of_pure {a b : α} (h : Among sem R (.pure a : Program Op Ans α) s answers (.returned b) t) :
    b = a ∧ t = s ∧ answers = [] := by
  cases h
  exact ⟨rfl, rfl, rfl⟩

/-- A run that returns is answered at its first call. -/
theorem of_call {op : Op} {next : Ans op → Program Op Ans α} {a : α}
    (h : Among sem R (.call op next) s answers (.returned a) t) :
    ∃ s' x s'' rest, answers = ⟨op, x⟩ :: rest ∧ R s s' ∧ sem op s' x s'' ∧
      Among sem R (next x) s'' rest (.returned a) t := by
  cases h with
  | call others hx tail => exact ⟨_, _, _, _, rfl, others, hx, tail⟩

/-- A sequence that returns runs through a value of its first part. -/
theorem of_bind {p : Program Op Ans α} {f : α → Program Op Ans β} {b : β}
    (h : Among sem R (p >>= f) s answers (.returned b) t) :
    ∃ a u first rest, answers = first ++ rest ∧ Among sem R p s first (.returned a) u ∧
      Among sem R (f a) u rest (.returned b) t := by
  induction p generalizing s answers with
  | pure a => exact ⟨a, s, [], answers, rfl, .pure a s, h⟩
  | call op next ih =>
      obtain ⟨s', x, s'', rest, rfl, hR, hx, htail⟩ := of_call h
      obtain ⟨a, u, first, rest', rfl, hp, hf⟩ := ih x htail
      exact ⟨a, u, ⟨op, x⟩ :: first, rest', rfl, .call hR hx hp, hf⟩

/-- Where the others may make every call, a run is one of their moves. -/
theorem others {p : Program Op Ans α} {ending : Ending α} (hrefl : ∀ s, R s s)
    (htrans : ∀ {a b c}, R a b → R b c → R a c)
    (hsem : ∀ {op s x s'}, sem op s x s' → R s s') (h : Among sem R p s answers ending t) :
    R s t := by
  induction h with
  | pure a s => exact hrefl s
  | call others hx _ ih => exact htrans others (htrans (hsem hx) ih)
  | raised others => exact others
  | cancelled others => exact others

end Among

/-- A run alone is a run among others that do nothing. -/
theorem Eval.among {sem : Semantics Op Ans σ} {R : σ → σ → Prop} (hrefl : ∀ s, R s s)
    {p : Program Op Ans α} {s t : σ} {a : α} (h : Eval sem p s a t) :
    ∃ answers, Among sem R p s answers (.returned a) t := by
  induction h with
  | pure a s => exact ⟨[], .pure a s⟩
  | call hx _ ih =>
      obtain ⟨answers, htail⟩ := ih
      exact ⟨_, .call (hrefl _) hx htail⟩

end Program

end Library
