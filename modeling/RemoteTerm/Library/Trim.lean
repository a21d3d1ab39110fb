import Mathlib.Data.List.DropRight

/-!
# Trimming

A list without the items at its two ends that meet a condition.
-/

namespace Library

variable {α : Type} (p : α → Bool)

/-- Drop what meets `p` at both ends. -/
def trim (s : List α) : List α := (s.dropWhile p).rdropWhile p

variable {p} {s : List α}

/-- A list is trimmed if neither of its ends meets the condition. -/
theorem trim_eq_self_iff :
    trim p s = s ↔ (∀ a ∈ s.head?, p a = false) ∧ ∀ a ∈ s.getLast?, p a = false := by
  have hfront : s.dropWhile p = s ↔ ∀ a ∈ s.head?, p a = false := by
    cases s with
    | nil => simp
    | cons a rest =>
        rw [List.dropWhile_eq_self_iff]
        simp
  have hback : s.rdropWhile p = s ↔ ∀ a ∈ s.getLast?, p a = false := by
    rw [List.rdropWhile_eq_self_iff]
    constructor
    · intro h a ha
      obtain ⟨hne, rfl⟩ := List.mem_getLast?_eq_getLast ha
      simpa using h hne
    · intro h hne
      simp [h _ (List.getLast?_eq_getLast_of_ne_nil hne)]
  rw [← hfront, ← hback, trim]
  constructor
  · intro h
    have hdrop : s.dropWhile p = s := by
      refine (List.dropWhile_sublist _).eq_of_length_le ?_
      calc s.length = ((s.dropWhile p).rdropWhile p).length := by rw [h]
        _ ≤ (s.dropWhile p).length := (List.rdropWhile_prefix _ _).length_le
    exact ⟨hdrop, by rwa [hdrop] at h⟩
  · rintro ⟨hdrop, h⟩
    rw [hdrop, h]

/-- What is trimmed once is trimmed. -/
theorem trim_trim (s : List α) : trim p (trim p s) = trim p s := by
  rw [trim_eq_self_iff]
  constructor
  · intro a ha
    have hhead := List.head?_dropWhile_not p s
    obtain ⟨rest, hrest⟩ := List.rdropWhile_prefix p (s.dropWhile p)
    have hsome : (s.dropWhile p).head? = some a := by
      rw [← hrest, List.head?_append]
      rw [trim] at ha
      rw [Option.mem_def.mp ha]
      rfl
    rwa [hsome] at hhead
  · intro a ha
    rw [trim] at ha
    obtain ⟨hne, rfl⟩ := List.mem_getLast?_eq_getLast ha
    simpa using List.rdropWhile_last_not p _ hne

/-- What meets the condition in front of a list is dropped. -/
theorem trim_append_left {front : List α} (hfront : ∀ a ∈ front, p a = true) :
    trim p (front ++ s) = trim p s := by
  rw [trim, List.dropWhile_append_of_pos hfront, trim]

end Library
