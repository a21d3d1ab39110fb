import Mathlib.Logic.Relation

/-!
# Machines driven by events

A machine is a function from a state and an event to a state. A run is a list of
events each of which meets a condition on the state before it. What one event
keeps, a run keeps.
-/

namespace Library

variable {σ ε : Type} {apply : σ → ε → σ} {ok : σ → ε → Prop}

/-- `Machine apply ok s t`: events that meet `ok` lead from `s` to `t`. -/
inductive Machine (apply : σ → ε → σ) (ok : σ → ε → Prop) : σ → σ → Prop
  | refl (s : σ) : Machine apply ok s s
  | tail {s t : σ} (run : Machine apply ok s t) (e : ε) (hok : ok t e) :
      Machine apply ok s (apply t e)

namespace Machine

/-- One event. -/
theorem single {s : σ} (e : ε) (hok : ok s e) : Machine apply ok s (apply s e) :=
  .tail (.refl s) e hok

theorem trans {s t u : σ} (first : Machine apply ok s t) (second : Machine apply ok t u) :
    Machine apply ok s u := by
  induction second with
  | refl => exact first
  | tail _ e hok ih => exact ih.tail e hok

/-- Any events make a run without a condition. -/
theorem foldl (apply : σ → ε → σ) (s : σ) (events : List ε) :
    Machine apply (fun _ _ => True) s (events.foldl apply s) := by
  induction events generalizing s with
  | nil => exact .refl s
  | cons e events ih => exact (single e trivial).trans (ih _)

/-- Every event of a list meets a decidable condition on the state before it. -/
def allOk (apply : σ → ε → σ) (ok : σ → ε → Prop) [∀ s e, Decidable (ok s e)] :
    List ε → σ → Bool
  | [], _ => true
  | e :: events, s => decide (ok s e) && allOk apply ok events (apply s e)

/-- Events that meet the condition make a run. -/
theorem foldl_of_allOk [∀ s e, Decidable (ok s e)] {events : List ε} {s : σ}
    (h : allOk apply ok events s = true) : Machine apply ok s (events.foldl apply s) := by
  induction events generalizing s with
  | nil => exact .refl s
  | cons e events ih =>
      simp only [allOk, Bool.and_eq_true, decide_eq_true_eq] at h
      exact (single e h.1).trans (ih h.2)

/-- A run under a condition is a run under a weaker one. -/
theorem mono {ok' : σ → ε → Prop} (h : ∀ s e, ok s e → ok' s e) {s t : σ}
    (run : Machine apply ok s t) : Machine apply ok' s t := by
  induction run with
  | refl => exact .refl _
  | tail _ e hok ih => exact ih.tail e (h _ _ hok)

/-- What every event keeps holds at the end of a run. -/
theorem invariant {P : σ → Prop} (hstep : ∀ s e, ok s e → P s → P (apply s e)) {s t : σ}
    (run : Machine apply ok s t) (hs : P s) : P t := by
  induction run with
  | refl => exact hs
  | tail _ e hok ih => exact hstep _ e hok ih

/-- A preorder that every event follows from a state with the invariant relates the ends of
a run. -/
theorem related {P : σ → Prop} {R : σ → σ → Prop} (hrefl : ∀ s, R s s)
    (htrans : ∀ {s t u}, R s t → R t u → R s u)
    (hstep : ∀ s e, ok s e → P s → P (apply s e) ∧ R s (apply s e)) {s t : σ}
    (run : Machine apply ok s t) (hs : P s) : R s t := by
  have hboth : P t ∧ R s t := by
    induction run with
    | refl => exact ⟨hs, hrefl s⟩
    | tail _ e hok ih =>
        obtain ⟨hP, hR⟩ := ih
        obtain ⟨hP', hR'⟩ := hstep _ e hok hP
        exact ⟨hP', htrans hR hR'⟩
  exact hboth.2

end Machine

end Library
