import Mathlib.Data.List.Nodup
import RemoteTerm.Library.OrderedMap

/-!
# Numbering by occurrence

Each item of a list gets the number of the items with its key up to it, so that key
and number together name one item. A running dictionary of counts, under a name for
each key, is enough to find the numbers.
-/

namespace Library

variable {α κ ν : Type} [DecidableEq κ] {key : α → κ}

/-- The number of items with a key. -/
def tally (key : α → κ) (xs : List α) (k : κ) : Nat := xs.countP fun x => key x = k

/-- Number the items of a list that follows the items `before`. -/
def numberFrom (key : α → κ) (before : List α) : List α → List (α × Nat)
  | [] => []
  | x :: xs => (x, tally key before (key x) + 1) :: numberFrom key (before ++ [x]) xs

@[simp] theorem tally_nil (k : κ) : tally key [] k = 0 := rfl

theorem tally_snoc_self (before : List α) (x : α) :
    tally key (before ++ [x]) (key x) = tally key before (key x) + 1 := by
  simp [tally, List.countP_append]

theorem tally_snoc_of_ne (before : List α) {x : α} {k : κ} (h : key x ≠ k) :
    tally key (before ++ [x]) k = tally key before k := by
  simp [tally, List.countP_append, h]

theorem tally_le_snoc (before : List α) (x : α) (k : κ) :
    tally key before k ≤ tally key (before ++ [x]) k := by
  by_cases h : key x = k
  · subst h
    rw [tally_snoc_self]
    omega
  · exact Nat.le_of_eq (tally_snoc_of_ne before h).symm

@[simp] theorem map_fst_numberFrom (before xs : List α) :
    (numberFrom key before xs).map Prod.fst = xs := by
  induction xs generalizing before with
  | nil => rfl
  | cons x xs ih => rw [numberFrom, List.map_cons, ih]

theorem tally_lt_of_mem_numberFrom {before xs : List α} {p : α × Nat}
    (hp : p ∈ numberFrom key before xs) : tally key before (key p.1) < p.2 := by
  induction xs generalizing before with
  | nil => simp [numberFrom] at hp
  | cons x xs ih =>
      rcases List.mem_cons.mp hp with rfl | hp
      · exact Nat.lt_succ_self _
      · exact Nat.lt_of_le_of_lt (tally_le_snoc before x _) (ih hp)

/-- Key and number name one item. -/
theorem nodup_numberFrom (before xs : List α) :
    ((numberFrom key before xs).map fun p => (key p.1, p.2)).Nodup := by
  induction xs generalizing before with
  | nil => exact List.nodup_nil
  | cons x xs ih =>
      rw [numberFrom, List.map_cons, List.nodup_cons]
      refine ⟨?_, ih _⟩
      rw [List.mem_map]
      rintro ⟨p, hp, heq⟩
      obtain ⟨hkey, hnumber⟩ := Prod.mk.inj heq
      have hlt := tally_lt_of_mem_numberFrom hp
      -- The number of `x` is counted before the later item of the same key.
      rw [hkey, tally_snoc_self, hnumber] at hlt
      exact Nat.lt_irrefl _ hlt

section Tallies

variable [DecidableEq ν] {name : κ → ν} {counts : OrderedMap ν Nat} {before : List α}

/-- A dictionary holds the numbers of the items so far, under a name for each key. -/
def Tallies (key : α → κ) (name : κ → ν) (counts : OrderedMap ν Nat) (before : List α) : Prop :=
  ∀ k, (counts.get? (name k)).getD 0 = tally key before k

theorem Tallies.empty : Tallies key name OrderedMap.empty [] := fun _ => rfl

/-- The number of the next item is assigned to its name. -/
theorem Tallies.set (hname : Function.Injective name) (h : Tallies key name counts before)
    (x : α) : Tallies key name
      (counts.set (name (key x)) ((counts.get? (name (key x))).getD 0 + 1)) (before ++ [x]) := by
  intro k
  by_cases hk : key x = k
  · subst hk
    rw [OrderedMap.get?_set_self, Option.getD_some, tally_snoc_self, h]
  · have hne : name k ≠ name (key x) := fun heq => hk (hname heq).symm
    rw [OrderedMap.get?_set_of_ne _ _ hne, tally_snoc_of_ne before hk, h]

end Tallies

end Library
