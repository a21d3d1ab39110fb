import Mathlib
import RemoteTerm.Library.OrderedMap

/-!
# Entries that are updated or created

A dictionary that collects what is known about each key: the first item of a key
creates its entry, a later one is merged into it. The entry of a key then depends
on the items of that key alone.
-/

namespace Library.OrderedMap

variable {κ ν ι : Type} [DecidableEq κ]

/-- Merge into the entry of a key, or create it. -/
def upsert (m : OrderedMap κ ν) (k : κ) (merge : ν → ν) (fresh : ν) : OrderedMap κ ν :=
  match m.get? k with
  | some v => m.set k (merge v)
  | none => m.set k fresh

theorem get?_upsert (m : OrderedMap κ ν) (k k' : κ) (merge : ν → ν) (fresh : ν) :
    (m.upsert k merge fresh).get? k' =
      if k' = k then some (((m.get? k).map merge).getD fresh) else m.get? k' := by
  unfold upsert
  split
  next v hv =>
    split
    next hk => simp [hk, hv]
    next hk => rw [get?_set_of_ne _ _ hk]
  next hv =>
    split
    next hk => simp [hk, hv]
    next hk => rw [get?_set_of_ne _ _ hk]

@[simp] theorem get?_upsert_self (m : OrderedMap κ ν) (k : κ) (merge : ν → ν) (fresh : ν) :
    (m.upsert k merge fresh).get? k = some (((m.get? k).map merge).getD fresh) := by
  rw [get?_upsert, if_pos rfl]

/-- A key that is present stays present. -/
theorem isSome_get?_upsert (m : OrderedMap κ ν) (k k' : κ) (merge : ν → ν) (fresh : ν) :
    ((m.upsert k merge fresh).get? k').isSome = true ↔ k' = k ∨ (m.get? k').isSome = true := by
  rw [get?_upsert]
  by_cases hk : k' = k <;> simp [hk]

variable (key : ι → κ) (merge : ι → ν → ν) (fresh : ι → ν)

/-- Collect a list of items. -/
def collect (m : OrderedMap κ ν) (items : List ι) : OrderedMap κ ν :=
  items.foldl (fun m i => m.upsert (key i) (merge i) (fresh i)) m

/-- The entry that the items of one key leave. -/
def entryOf (v : Option ν) (items : List ι) : Option ν :=
  items.foldl (fun v i => some ((v.map (merge i)).getD (fresh i))) v

/-- The entry of a key depends on the items of that key alone. -/
theorem get?_collect (m : OrderedMap κ ν) (items : List ι) (k : κ) :
    (collect key merge fresh m items).get? k =
      entryOf merge fresh (m.get? k) (items.filter fun i => key i = k) := by
  induction items generalizing m with
  | nil => rfl
  | cons i items ih =>
      have hstep : collect key merge fresh m (i :: items) =
          collect key merge fresh (m.upsert (key i) (merge i) (fresh i)) items := rfl
      rw [hstep, ih, get?_upsert]
      by_cases hk : k = key i
      · rw [if_pos hk, List.filter_cons_of_pos (by simp [hk]), hk]
        rfl
      · rw [if_neg hk, List.filter_cons_of_neg (by simpa using Ne.symm hk)]

/-- The keys after one item more. -/
theorem map_fst_upsert (m : OrderedMap κ ν) (k : κ) (update : ν → ν) (v : ν) :
    (m.upsert k update v).entries.map Prod.fst =
      if k ∈ m.entries.map Prod.fst then m.entries.map Prod.fst
      else m.entries.map Prod.fst ++ [k] := by
  have hset (w : ν) : (m.set k w).entries.map Prod.fst =
      if k ∈ m.entries.map Prod.fst then m.entries.map Prod.fst
      else m.entries.map Prod.fst ++ [k] := by
    unfold set
    split
    next hk =>
      rw [List.map_map]
      refine List.map_congr_left fun e _ => ?_
      by_cases he : e.1 = k <;> simp [he]
    next hk => simp
  unfold upsert
  split <;> exact hset _

/-- Items in the order of their keys leave the keys in order. -/
theorem pairwise_collect [LinearOrder κ] (m : OrderedMap κ ν) (items : List ι)
    (hm : (m.entries.map Prod.fst).Pairwise (· < ·))
    (hle : ∀ k ∈ m.entries.map Prod.fst, ∀ i ∈ items, k ≤ key i)
    (hitems : (items.map key).Pairwise (· ≤ ·)) :
    ((collect key merge fresh m items).entries.map Prod.fst).Pairwise (· < ·) := by
  induction items generalizing m with
  | nil => exact hm
  | cons i items ih =>
      obtain ⟨hi, hrest⟩ := List.pairwise_cons.mp hitems
      have hkeys := map_fst_upsert m (key i) (merge i) (fresh i)
      have hnext : ∀ j ∈ items, key i ≤ key j := fun j hj => hi _ (List.mem_map_of_mem hj)
      refine ih _ ?_ (fun k hk j hj => ?_) hrest
      · rw [hkeys]
        split
        next => exact hm
        next hnew =>
          refine List.pairwise_append.mpr ⟨hm, List.pairwise_singleton _ _, fun k hk l hl => ?_⟩
          rw [List.mem_singleton] at hl
          refine lt_of_le_of_ne (hl ▸ hle k hk i List.mem_cons_self) fun he => hnew ?_
          exact hl ▸ he ▸ hk
      · rw [hkeys] at hk
        split at hk
        next => exact hle k hk j (List.mem_cons_of_mem _ hj)
        next =>
          rcases List.mem_append.mp hk with hk | hk
          · exact hle k hk j (List.mem_cons_of_mem _ hj)
          · exact List.mem_singleton.mp hk ▸ hnext j hj

end Library.OrderedMap
