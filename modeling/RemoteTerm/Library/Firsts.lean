import Mathlib.Data.List.Basic
import Mathlib.Data.List.Nodup

/-!
# The first items of each key

The items of a list without those whose key an earlier item has.
-/

namespace Library

variable {α κ : Type} [DecidableEq κ]

/-- The items that are the first of their key. -/
def firstsBy (key : α → κ) : List α → List α
  | [] => []
  | a :: l => a :: (firstsBy key l).filter fun b => key b ≠ key a

@[simp] theorem firstsBy_nil (key : α → κ) : firstsBy key [] = [] := rfl

theorem firstsBy_cons (key : α → κ) (a : α) (l : List α) :
    firstsBy key (a :: l) = a :: (firstsBy key l).filter fun b => key b ≠ key a := rfl

theorem firstsBy_sublist (key : α → κ) (l : List α) : (firstsBy key l).Sublist l := by
  induction l with
  | nil => exact .slnil
  | cons a l ih => exact (List.filter_sublist.trans ih).cons_cons a

theorem nodup_firstsBy (key : α → κ) (l : List α) : ((firstsBy key l).map key).Nodup := by
  induction l with
  | nil => exact .nil
  | cons a l ih =>
      rw [firstsBy_cons, List.map_cons, List.nodup_cons]
      refine ⟨fun hmem => ?_, ih.sublist (List.filter_sublist.map key)⟩
      obtain ⟨b, hb, hkey⟩ := List.mem_map.mp hmem
      exact of_decide_eq_true (List.mem_filter.mp hb).2 hkey

/-- Every key is kept. -/
theorem mem_map_firstsBy {key : α → κ} {l : List α} {k : κ} :
    k ∈ (firstsBy key l).map key ↔ k ∈ l.map key := by
  induction l with
  | nil => rfl
  | cons a l ih =>
      rw [firstsBy_cons, List.map_cons, List.map_cons, List.mem_cons, List.mem_cons, ← ih]
      by_cases hk : k = key a
      · simp [hk]
      · refine or_congr_right ⟨fun h => ?_, fun h => ?_⟩
        · exact (List.filter_sublist.map key).subset h
        · obtain ⟨b, hb, rfl⟩ := List.mem_map.mp h
          exact List.mem_map.mpr ⟨b, List.mem_filter.mpr ⟨hb, decide_eq_true hk⟩, rfl⟩

/-- **The loop** that drops what it has seen: the first item stays if its key was not seen, and is
seen from then on. `p` says that a key was not seen before. -/
theorem filter_firstsBy_cons {key : α → κ} {p : α → Bool}
    (hp : ∀ b c, key b = key c → p b = p c) (a : α) (l : List α) :
    (firstsBy key (a :: l)).filter p =
      if p a then a :: (firstsBy key l).filter fun b => p b && key b ≠ key a
      else (firstsBy key l).filter p := by
  rw [firstsBy_cons, List.filter_cons, List.filter_filter]
  split
  next => rfl
  next ha =>
    refine List.filter_congr fun b _ => ?_
    by_cases hb : key b = key a
    · simp [hp b a hb, ha]
    · simp [hb]

end Library
