import Mathlib.Data.List.Nodup

/-!
# Rows under a key

A statement on a table that drops rows and changes others without their key.
-/

namespace Library

variable {ρ κ : Type} [DecidableEq κ] {key : ρ → κ} {f : ρ → Option ρ} {rows : List ρ}

/-- The row of a key. -/
def rowOf (key : ρ → κ) (rows : List ρ) (k : κ) : Option ρ :=
  rows.find? fun r => key r = k

namespace KeyedRows

theorem rowOf_some {k : κ} {r : ρ} (h : rowOf key rows k = some r) : r ∈ rows ∧ key r = k := by
  unfold rowOf at h
  have hkey := List.find?_some h
  exact ⟨List.mem_of_find?_eq_some h, of_decide_eq_true hkey⟩

theorem rowOf_none {k : κ} : rowOf key rows k = none ↔ k ∉ rows.map key := by
  simp [rowOf]

theorem rowOf_of_mem (hkeys : (rows.map key).Nodup) {r : ρ} (hr : r ∈ rows) :
    rowOf key rows (key r) = some r := by
  cases h : rowOf key rows (key r) with
  | none => exact absurd (List.mem_map_of_mem hr) (rowOf_none.mp h)
  | some q =>
      obtain ⟨hq, hkey⟩ := rowOf_some h
      rw [List.inj_on_of_nodup_map hkeys hq hr hkey]

theorem rowOf_append {k : κ} {r : ρ} (hfresh : key r ∉ rows.map key) :
    rowOf key (rows ++ [r]) k = if k = key r then some r else rowOf key rows k := by
  unfold rowOf
  rw [List.find?_append]
  by_cases hk : k = key r
  · have hnone : rowOf key rows k = none := rowOf_none.mpr (hk ▸ hfresh)
    unfold rowOf at hnone
    rw [if_pos hk, hnone]
    simp [hk]
  · rw [if_neg hk]
    simp [Ne.symm hk]

/-- The keys that are left are some of those that were there. -/
theorem keys_filterMap {μ : Type} {other : ρ → μ} (rows : List ρ)
    (hf : ∀ r q, f r = some q → other q = other r) :
    ((rows.filterMap f).map other).Sublist (rows.map other) := by
  induction rows with
  | nil => exact .slnil
  | cons r rows ih =>
      cases h : f r with
      | none =>
          rw [List.filterMap_cons_none h]
          exact ih.cons _
      | some q =>
          rw [List.filterMap_cons_some h, List.map_cons, List.map_cons, hf r q h]
          exact ih.cons_cons _

/-- The row of a key is changed on its own. -/
theorem rowOf_filterMap (hf : ∀ r q, f r = some q → key q = key r)
    (hkeys : (rows.map key).Nodup) (k : κ) :
    rowOf key (rows.filterMap f) k = (rowOf key rows k).bind f := by
  have hsub := keys_filterMap rows hf
  cases h : rowOf key rows k with
  | none =>
      rw [Option.bind_none, rowOf_none]
      exact fun hmem => rowOf_none.mp h (hsub.subset hmem)
  | some r =>
      obtain ⟨hr, rfl⟩ := rowOf_some h
      cases hfr : f r with
      | none =>
          rw [Option.bind_some, hfr, rowOf_none]
          intro hmem
          obtain ⟨q, hq, hkey⟩ := List.mem_map.mp hmem
          obtain ⟨r', hr', hfr'⟩ := List.mem_filterMap.mp hq
          have heq := List.inj_on_of_nodup_map hkeys hr' hr ((hf r' q hfr').symm.trans hkey)
          rw [heq, hfr] at hfr'
          cases hfr'
      | some q =>
          rw [Option.bind_some, hfr, ← hf r q hfr]
          exact rowOf_of_mem (hkeys.sublist hsub) (List.mem_filterMap.mpr ⟨r, hr, hfr⟩)

/-- Rows are dropped, changed and dropped again. -/
theorem filter_map_filter (rows : List ρ) (a b : ρ → Bool) (g : ρ → ρ) :
    ((rows.filter a).map g).filter b =
      rows.filterMap fun r => if a r ∧ b (g r) then some (g r) else none := by
  induction rows with
  | nil => rfl
  | cons r rows ih =>
      cases ha : a r with
      | false => simp [ha, ih]
      | true =>
          cases hb : b (g r) with
          | false => simp [ha, hb, ih]
          | true => simp [ha, hb, ih]

end KeyedRows

end Library
