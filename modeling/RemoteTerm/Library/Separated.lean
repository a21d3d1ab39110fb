import Mathlib

/-!
# Texts joined by a separator

`marked sep parts` writes every part after a separator. A text followed by
marked parts can be read in several ways, since the text itself may hold the
separator. Two readings give one text only when the parts of one of them begin
with what the text of the other one ends in.

## Implementation notes

The comparison goes from the end of the texts: there the parts are free of the
separator, so the last one is determined.
-/

namespace Library

variable {α : Type*} {sep : α}

/-- Every part after a separator. -/
def marked (sep : α) (parts : List (List α)) : List α :=
  parts.flatMap fun part => sep :: part

@[simp] theorem marked_nil : marked sep ([] : List (List α)) = [] := rfl

@[simp] theorem marked_cons (part : List α) (parts : List (List α)) :
    marked sep (part :: parts) = sep :: part ++ marked sep parts := rfl

@[simp] theorem marked_append (ps qs : List (List α)) :
    marked sep (ps ++ qs) = marked sep ps ++ marked sep qs :=
  List.flatMap_append

theorem marked_snoc (ps : List (List α)) (p : List α) :
    marked sep (ps ++ [p]) = marked sep ps ++ sep :: p := by
  simp

/-- A text splits in one way at the last item that does not meet a condition. -/
theorem append_cons_inj_of_forall {D : α → Prop} {a b p q : List α} {x y : α}
    (hp : ∀ c ∈ p, D c) (hq : ∀ c ∈ q, D c) (hx : ¬ D x) (hy : ¬ D y)
    (h : a ++ x :: p = b ++ y :: q) : a = b ∧ x = y ∧ p = q := by
  rcases List.append_eq_append_iff.mp h with ⟨c, rfl, hc⟩ | ⟨c, rfl, hc⟩
  · cases c with
    | nil =>
        obtain ⟨rfl, rfl⟩ := List.cons.inj hc
        exact ⟨by simp, rfl, rfl⟩
    | cons z c =>
        obtain ⟨-, rfl⟩ := List.cons.inj hc
        exact absurd (hp y (by simp)) hy
  · cases c with
    | nil =>
        obtain ⟨rfl, rfl⟩ := List.cons.inj hc
        exact ⟨by simp, rfl, rfl⟩
    | cons z c =>
        obtain ⟨-, rfl⟩ := List.cons.inj hc
        exact absurd (hq x (by simp)) hx

/-- A separator that none of two parts holds splits a text in one way. -/
theorem append_cons_inj_of_notMem {a b p q : List α} (hp : sep ∉ p) (hq : sep ∉ q)
    (h : a ++ sep :: p = b ++ sep :: q) : a = b ∧ p = q := by
  obtain ⟨hinit, -, hpart⟩ := append_cons_inj_of_forall (D := (· ≠ sep))
    (fun _ hc => ne_of_mem_of_not_mem hc hp) (fun _ hc => ne_of_mem_of_not_mem hc hq)
    (by simp) (by simp) h
  exact ⟨hinit, hpart⟩

theorem cons_append_inj_of_notMem {a b p q : List α} (hp : sep ∉ p) (hq : sep ∉ q)
    (h : p ++ sep :: a = q ++ sep :: b) : p = q ∧ a = b := by
  have hreverse : a.reverse ++ sep :: p.reverse = b.reverse ++ sep :: q.reverse := by
    simpa using congrArg List.reverse h
  obtain ⟨hrest, hpart⟩ := append_cons_inj_of_notMem (by simpa using hp) (by simpa using hq) hreverse
  exact ⟨List.reverse_injective hpart, List.reverse_injective hrest⟩

/-- The text `b` followed by `qs` reads `a` and the first of the parts `ps` into its text. -/
def ReadsInto (sep : α) (a : List α) (ps : List (List α)) (b : List α) (qs : List (List α)) :
    Prop :=
  ∃ xs, ps = xs ++ qs ∧ b = a ++ marked sep xs

theorem ReadsInto.snoc {a b : List α} {ps qs : List (List α)} (h : ReadsInto sep a ps b qs)
    (p : List α) : ReadsInto sep a (ps ++ [p]) b (qs ++ [p]) := by
  obtain ⟨xs, rfl, rfl⟩ := h
  exact ⟨xs, List.append_assoc .., rfl⟩

theorem ReadsInto.eq {a b : List α} {ps qs : List (List α)} (h : ReadsInto sep a ps b qs) :
    a ++ marked sep ps = b ++ marked sep qs := by
  obtain ⟨xs, rfl, rfl⟩ := h
  rw [marked_append, List.append_assoc]

/-- Two texts with marked parts are equal only when one reads into the other. -/
theorem append_marked_eq_iff {a b : List α} {ps qs : List (List α)} (hps : ∀ p ∈ ps, sep ∉ p)
    (hqs : ∀ q ∈ qs, sep ∉ q) :
    a ++ marked sep ps = b ++ marked sep qs ↔
      ReadsInto sep a ps b qs ∨ ReadsInto sep b qs a ps := by
  constructor
  · intro h
    induction ps using List.reverseRecOn generalizing qs with
    | nil => exact .inr ⟨qs, by simp, by simpa using h⟩
    | append_singleton ps p ih =>
        rcases List.eq_nil_or_concat' qs with rfl | ⟨qs, q, rfl⟩
        · exact .inl ⟨ps ++ [p], by simp, by simpa using h.symm⟩
        · rw [marked_snoc, marked_snoc, ← List.append_assoc, ← List.append_assoc] at h
          obtain ⟨hinit, rfl⟩ := append_cons_inj_of_notMem (hps p (by simp)) (hqs q (by simp)) h
          have hps' : ∀ p ∈ ps, sep ∉ p := fun p hp => hps p (List.mem_append_left _ hp)
          have hqs' : ∀ q ∈ qs, sep ∉ q := fun q hq => hqs q (List.mem_append_left _ hq)
          exact (ih hps' hqs' hinit).imp (·.snoc p) (·.snoc p)
  · rintro (h | h)
    · exact h.eq
    · exact h.eq.symm

/-- A text that reads into another is itself a start of it. -/
theorem readsInto_iff_take {a b : List α} {ps qs : List (List α)} :
    ReadsInto sep a ps b qs ↔
      ∃ k ≤ ps.length, qs = ps.drop k ∧ b = a ++ marked sep (ps.take k) := by
  constructor
  · rintro ⟨xs, rfl, rfl⟩
    exact ⟨xs.length, by simp, by simp, by simp⟩
  · rintro ⟨k, -, rfl, rfl⟩
    exact ⟨ps.take k, (List.take_append_drop k ps).symm, rfl⟩

instance [DecidableEq α] (a b : List α) (ps qs : List (List α)) :
    Decidable (ReadsInto sep a ps b qs) :=
  decidable_of_iff _ readsInto_iff_take.symm

end Library
