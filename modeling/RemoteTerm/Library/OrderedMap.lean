import Mathlib.Data.List.Nodup
import Mathlib.Data.List.Perm.Subperm

/-!
# Insertion-ordered dictionaries

The dictionary of a scripting language: one value for each key, entries in the
order their keys were first inserted. Assigning to a present key keeps its
place; removing it and assigning again moves it to the end.
-/

namespace Library

/-- Entries in insertion order, at most one for each key. -/
structure OrderedMap (κ ν : Type) where
  entries : List (κ × ν)
  nodup : (entries.map Prod.fst).Nodup

namespace OrderedMap

variable {κ ν : Type}

/-- The dictionary without entries. -/
def empty : OrderedMap κ ν := ⟨[], by simp⟩

/-- The number of entries. -/
def size (m : OrderedMap κ ν) : Nat := m.entries.length

/-- Keep the entries that satisfy a condition. -/
def filter (m : OrderedMap κ ν) (p : κ → ν → Bool) : OrderedMap κ ν where
  entries := m.entries.filter fun e => p e.1 e.2
  nodup := m.nodup.sublist (List.filter_sublist.map _)

variable [DecidableEq κ]

/-- The value under a key. -/
def get? (m : OrderedMap κ ν) (k : κ) : Option ν :=
  (m.entries.find? fun e => e.1 = k).map Prod.snd

/-- Remove a key. -/
def pop (m : OrderedMap κ ν) (k : κ) : OrderedMap κ ν := m.filter fun k' _ => k' ≠ k

/-- Assign a value: in place when the key is present, else at the end. -/
def set (m : OrderedMap κ ν) (k : κ) (v : ν) : OrderedMap κ ν :=
  if hk : k ∈ m.entries.map Prod.fst then
    { entries := m.entries.map fun e => if e.1 = k then (k, v) else e
      nodup := by
        have hkeys : (m.entries.map fun e => if e.1 = k then (k, v) else e).map Prod.fst =
            m.entries.map Prod.fst := by
          rw [List.map_map]
          refine List.map_congr_left fun e _ => ?_
          by_cases he : e.1 = k <;> simp [he]
        exact hkeys ▸ m.nodup }
  else
    { entries := m.entries ++ [(k, v)]
      nodup := by
        rw [List.map_append, List.nodup_append]
        refine ⟨m.nodup, by simp, ?_⟩
        rintro a ha b hb rfl
        simp only [List.map_cons, List.map_nil, List.mem_singleton] at hb
        exact hk (hb ▸ ha) }

/-- The dictionary of a list of pairs, assigned one after the other. -/
def ofList (pairs : List (κ × ν)) : OrderedMap κ ν :=
  pairs.foldl (fun m e => m.set e.1 e.2) empty

/-- Move a present key to the end. -/
def moveToEnd (m : OrderedMap κ ν) (k : κ) : OrderedMap κ ν :=
  match m.get? k with
  | none => m
  | some v => (m.pop k).set k v

theorem get?_eq_some_iff (m : OrderedMap κ ν) {k : κ} {v : ν} :
    m.get? k = some v ↔ (k, v) ∈ m.entries := by
  simp only [get?, Option.map_eq_some_iff]
  constructor
  · rintro ⟨⟨k', v'⟩, hf, rfl⟩
    have hk : k' = k := by simpa using List.find?_some hf
    exact hk ▸ List.mem_of_find?_eq_some hf
  · intro hm
    cases hf : m.entries.find? fun e => e.1 = k with
    | none =>
        rw [List.find?_eq_none] at hf
        simpa using hf _ hm
    | some e =>
        have he : e.1 = k := by simpa using List.find?_some hf
        have heq : e = (k, v) :=
          List.inj_on_of_nodup_map m.nodup (List.mem_of_find?_eq_some hf) hm he
        exact ⟨e, rfl, by rw [heq]⟩

theorem get?_eq_none_iff (m : OrderedMap κ ν) {k : κ} :
    m.get? k = none ↔ k ∉ m.entries.map Prod.fst := by
  simp only [get?, Option.map_eq_none_iff, List.find?_eq_none, List.mem_map, decide_eq_true_eq,
    not_exists, not_and]

@[simp] theorem get?_empty (k : κ) : (empty : OrderedMap κ ν).get? k = none := rfl

/-- A filtered dictionary has the values whose entries satisfy the condition. -/
theorem get?_filter (m : OrderedMap κ ν) (p : κ → ν → Bool) (k : κ) :
    (m.filter p).get? k = (m.get? k).filter (p k) := by
  apply Option.ext
  intro v
  simp only [get?_eq_some_iff, filter, List.mem_filter, Option.filter_eq_some_iff]

@[simp] theorem get?_pop_self (m : OrderedMap κ ν) (k : κ) : (m.pop k).get? k = none := by
  simp [pop, get?_filter]

theorem get?_pop_of_ne (m : OrderedMap κ ν) {k k' : κ} (h : k' ≠ k) :
    (m.pop k).get? k' = m.get? k' := by
  simp only [pop, get?_filter]
  cases m.get? k' <;> simp [h]

@[simp] theorem get?_set_self (m : OrderedMap κ ν) (k : κ) (v : ν) :
    (m.set k v).get? k = some v := by
  rw [get?_eq_some_iff, set]
  split
  next hk =>
    obtain ⟨e, he, rfl⟩ := List.mem_map.mp hk
    exact List.mem_map.mpr ⟨e, he, by simp⟩
  next hk => simp

theorem get?_set_of_ne (m : OrderedMap κ ν) {k k' : κ} (v : ν) (h : k' ≠ k) :
    (m.set k v).get? k' = m.get? k' := by
  apply Option.ext
  intro w
  rw [get?_eq_some_iff, get?_eq_some_iff, set]
  split
  next hk =>
    simp only [List.mem_map]
    constructor
    · rintro ⟨e, he, heq⟩
      by_cases hek : e.1 = k
      · simp only [hek, if_true, Prod.mk.injEq] at heq
        exact absurd heq.1.symm h
      · simp only [hek, if_false] at heq
        exact heq ▸ he
    · intro he
      exact ⟨(k', w), he, by simp [h]⟩
  next hk => simp [h]

/-- The entries of a dictionary without a key. -/
theorem get?_pop_eq_some_iff (m : OrderedMap κ ν) {k k' : κ} {v : ν} :
    (m.pop k).get? k' = some v ↔ k' ≠ k ∧ m.get? k' = some v := by
  by_cases h : k' = k
  · simp [h]
  · simp [get?_pop_of_ne m h, h]

/-- The entries of a dictionary with an assigned key. -/
theorem get?_set_eq_some_iff (m : OrderedMap κ ν) {k k' : κ} {v w : ν} :
    (m.set k v).get? k' = some w ↔ (k' = k ∧ w = v) ∨ (k' ≠ k ∧ m.get? k' = some w) := by
  by_cases h : k' = k
  · simp [h, eq_comm]
  · simp [get?_set_of_ne m v h, h]

/-- A new key is assigned at the end. -/
theorem entries_set_of_notMem (m : OrderedMap κ ν) {k : κ} (v : ν)
    (h : k ∉ m.entries.map Prod.fst) : (m.set k v).entries = m.entries ++ [(k, v)] := by
  rw [set, dif_neg h]

theorem entries_foldl_set (m : OrderedMap κ ν) (pairs : List (κ × ν))
    (h : ((m.entries ++ pairs).map Prod.fst).Nodup) :
    (pairs.foldl (fun m e => m.set e.1 e.2) m).entries = m.entries ++ pairs := by
  induction pairs generalizing m with
  | nil => simp
  | cons e pairs ih =>
      have hnew : e.1 ∉ m.entries.map Prod.fst := by
        rw [List.map_append, List.nodup_append] at h
        intro hmem
        exact h.2.2 _ hmem _ (by simp) rfl
      have hentries := entries_set_of_notMem m e.2 hnew
      rw [List.foldl_cons, ih _ (by simpa [hentries] using h), hentries, List.append_assoc]
      rfl

/-- No assignment of distinct keys overwrites another one. -/
theorem entries_ofList {pairs : List (κ × ν)} (h : (pairs.map Prod.fst).Nodup) :
    (ofList pairs).entries = pairs :=
  entries_foldl_set empty pairs h

/-- Refreshing a key's place keeps every value. -/
@[simp] theorem get?_moveToEnd (m : OrderedMap κ ν) (k k' : κ) :
    (m.moveToEnd k).get? k' = m.get? k' := by
  simp only [moveToEnd]
  cases hk : m.get? k with
  | none => rfl
  | some v =>
      by_cases h : k' = k
      · subst h
        simp [hk]
      · simp only [get?_set_of_ne _ _ h, get?_pop_of_ne _ h]

end OrderedMap

end Library
