import Mathlib.Data.List.Dedup
import Mathlib.Data.List.Lex
import Mathlib.Data.List.MinMax
import Mathlib.Logic.Function.Basic
import Mathlib.Order.Lattice

/-!
# Grouped rows, skip scans and dictionaries

`GROUP BY` on rows, the distinct keys of some rows as a chain of minima, and a
dictionary that a loop over rows fills.

## Implementation notes

A skip scan asks for the least key and then again and again for the least key
above the last one. It ends since fewer keys lie above each next one.
-/

namespace Library

section Group

variable {ρ κ : Type} [DecidableEq κ]

/-- `GROUP BY key`: each key with its rows. -/
def groupRows (key : ρ → κ) (rows : List ρ) : List (κ × List ρ) :=
  (rows.map key).dedup.map fun k => (k, rows.filter fun r => key r = k)

/-- The groups are the rows of the keys that have rows. -/
theorem mem_groupRows {key : ρ → κ} {rows g : List ρ} {k : κ} :
    (k, g) ∈ groupRows key rows ↔ g = rows.filter (fun r => key r = k) ∧ g ≠ [] := by
  simp only [groupRows, List.mem_map, List.mem_dedup, Prod.mk.injEq]
  constructor
  · rintro ⟨_, ⟨r, hr, rfl⟩, rfl, rfl⟩
    refine ⟨rfl, List.ne_nil_of_mem (List.mem_filter.mpr ⟨hr, ?_⟩)⟩
    simp
  · rintro ⟨rfl, hne⟩
    obtain ⟨r, hr⟩ := List.exists_mem_of_ne_nil _ hne
    obtain ⟨hmem, hkey⟩ := List.mem_filter.mp hr
    exact ⟨k, ⟨r, hmem, of_decide_eq_true hkey⟩, rfl, rfl⟩

theorem nodup_groupRows (key : ρ → κ) (rows : List ρ) :
    ((groupRows key rows).map Prod.fst).Nodup := by
  have hkeys : (groupRows key rows).map Prod.fst = (rows.map key).dedup := by
    simp [groupRows, Function.comp_def]
  rw [hkeys]
  exact List.nodup_dedup _

end Group

section SkipScan

variable {κ : Type} [LinearOrder κ] {keys : List κ} {k l : κ}

theorem min?_eq_some_iff_isLeast : keys.min? = some k ↔ k ∈ keys ∧ ∀ l ∈ keys, k ≤ l :=
  List.min?_eq_some_iff

/-- The rows of a skip scan from a key on. -/
def skipFrom (keys : List κ) (k : κ) : List κ :=
  match _h : (keys.filter fun l => k < l).min? with
  | none => [k]
  | some next => k :: skipFrom keys next
termination_by (keys.filter fun l => k < l).length
decreasing_by
  have hnext := List.mem_filter.mp (min?_eq_some_iff_isLeast.mp _h).1
  have hlt : k < next := of_decide_eq_true hnext.2
  have hsplit : keys.filter (fun l => next < l) =
      (keys.filter fun l => k < l).filter fun l => next < l := by
    rw [List.filter_filter]
    refine List.filter_congr fun l _ => ?_
    by_cases hl : next < l
    · simp [hl, hlt.trans hl]
    · simp [hl]
  rw [hsplit]
  apply List.length_filter_lt_length_iff_exists.mpr
  exact ⟨next, List.mem_filter.mpr ⟨hnext.1, hnext.2⟩, by simp⟩

/-- The keys that a skip scan finds. -/
def skipScan (keys : List κ) : List κ :=
  match keys.min? with
  | none => []
  | some first => skipFrom keys first

/-- From a key on a skip scan finds the key and the keys above it. -/
theorem mem_skipFrom (x : κ) : x ∈ skipFrom keys k ↔ x = k ∨ x ∈ keys ∧ k < x := by
  fun_induction skipFrom keys k with
  | case1 k hlast =>
      have hnone : ∀ l ∈ keys, ¬ k < l := by
        simpa using List.filter_eq_nil_iff.mp (List.min?_eq_none_iff.mp hlast)
      rw [List.mem_singleton]
      exact ⟨Or.inl, fun h => h.elim id fun h => absurd h.2 (hnone x h.1)⟩
  | case2 k next hnext ih =>
      obtain ⟨hmem, hleast⟩ := min?_eq_some_iff_isLeast.mp hnext
      obtain ⟨hkeys, hlt⟩ := List.mem_filter.mp hmem
      have hlt : k < next := of_decide_eq_true hlt
      rw [List.mem_cons, ih]
      apply or_congr_right
      constructor
      · rintro (rfl | ⟨hx, hx'⟩)
        · exact ⟨hkeys, hlt⟩
        · exact ⟨hx, hlt.trans hx'⟩
      · rintro ⟨hx, hx'⟩
        have hle : next ≤ x := hleast x (List.mem_filter.mpr ⟨hx, decide_eq_true hx'⟩)
        exact hle.eq_or_lt.imp Eq.symm fun h => ⟨hx, h⟩

theorem skipFrom_pairwise (keys : List κ) (k : κ) : (skipFrom keys k).Pairwise (· < ·) := by
  fun_induction skipFrom keys k with
  | case1 k hlast => exact List.pairwise_singleton _ _
  | case2 k next hnext ih =>
      refine List.pairwise_cons.mpr ⟨fun x hx => ?_, ih⟩
      have hlt : k < next :=
        of_decide_eq_true (List.mem_filter.mp (min?_eq_some_iff_isLeast.mp hnext).1).2
      rcases (mem_skipFrom x).mp hx with rfl | ⟨-, hx⟩
      · exact hlt
      · exact hlt.trans hx

/-- **A skip scan finds the distinct keys.** -/
theorem mem_skipScan {x : κ} : x ∈ skipScan keys ↔ x ∈ keys := by
  unfold skipScan
  split
  next hnone => rw [List.min?_eq_none_iff.mp hnone]
  next first hfirst =>
    obtain ⟨hmem, hleast⟩ := min?_eq_some_iff_isLeast.mp hfirst
    rw [mem_skipFrom]
    constructor
    · rintro (rfl | ⟨hx, -⟩)
      · exact hmem
      · exact hx
    · intro hx
      exact (hleast x hx).eq_or_lt.imp Eq.symm fun h => ⟨hx, h⟩

theorem nodup_skipScan (keys : List κ) : (skipScan keys).Nodup := by
  unfold skipScan
  split
  next => exact List.nodup_nil
  next => exact (skipFrom_pairwise keys _).imp fun h => h.ne

end SkipScan

section Dictionary

variable {κ ν : Type} [DecidableEq κ] {entries more : List (κ × ν)} {k : κ} {v : ν}

/-- The dictionary that a loop fills, where a later entry replaces an earlier one. -/
def toDict (entries : List (κ × ν)) : κ → Option ν :=
  entries.foldl (fun dict entry => Function.update dict entry.1 (some entry.2)) fun _ => none

theorem toDict_append_singleton (entry : κ × ν) :
    toDict (entries ++ [entry]) = Function.update (toDict entries) entry.1 (some entry.2) := by
  rw [toDict, List.foldl_append]
  rfl

/-- A dictionary of entries with distinct keys holds the entries. -/
theorem toDict_eq_some_iff (hkeys : (entries.map Prod.fst).Nodup) :
    toDict entries k = some v ↔ (k, v) ∈ entries := by
  induction entries using List.reverseRecOn with
  | nil => simp [toDict]
  | append_singleton entries entry ih =>
      rw [List.map_append, List.nodup_append] at hkeys
      obtain ⟨hkeys, -, hfresh⟩ := hkeys
      rw [toDict_append_singleton, List.mem_append, List.mem_singleton]
      by_cases hk : k = entry.1
      · subst hk
        rw [Function.update_self, Option.some.injEq]
        constructor
        · rintro rfl
          exact Or.inr rfl
        · rintro (hmem | heq)
          · exact absurd rfl (hfresh _ (List.mem_map_of_mem hmem) _ (by simp))
          · rw [← heq]
      · rw [Function.update_of_ne hk, ih hkeys]
        constructor
        · exact Or.inl
        · rintro (hmem | rfl)
          · exact hmem
          · exact absurd rfl hk

theorem toDict_eq_none (hk : ∀ v, (k, v) ∉ entries) (hkeys : (entries.map Prod.fst).Nodup) :
    toDict entries k = none := by
  cases h : toDict entries k with
  | none => rfl
  | some v => exact absurd ((toDict_eq_some_iff hkeys).mp h) (hk v)

end Dictionary

end Library
