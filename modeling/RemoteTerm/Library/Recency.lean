import RemoteTerm.Library.OrderedMap

/-!
# Keys in the order of their last use

A log lists the uses of keys, the latest use last. Keys stand by recency when each
was used, and later keys were used again after the last use of the earlier ones.
The keys of a dictionary stand so as long as each use moves its key to the end.
-/

namespace Library

variable {κ ν : Type}

/-- `k'` is used after the last use of `k`. -/
def UsedBefore (uses : List κ) (k k' : κ) : Prop :=
  ∃ earlier later, uses = earlier ++ later ∧ k ∉ later ∧ k' ∈ later

/-- The keys were used, in the order of their last uses. -/
structure ByRecency (uses keys : List κ) : Prop where
  used : ∀ k ∈ keys, k ∈ uses
  ordered : keys.Pairwise (UsedBefore uses)

theorem UsedBefore.snoc {uses : List κ} {k k' u : κ} (h : UsedBefore uses k k') (hu : k ≠ u) :
    UsedBefore (uses ++ [u]) k k' := by
  obtain ⟨earlier, later, rfl, hk, hk'⟩ := h
  refine ⟨earlier, later ++ [u], by simp, ?_, List.mem_append_left _ hk'⟩
  simp [hk, hu]

namespace ByRecency

variable {uses keys keys' : List κ} {u : κ}

theorem nil (uses : List κ) : ByRecency uses [] := ⟨by simp, .nil⟩

/-- Removing keys keeps the order of the others. -/
theorem sublist (h : ByRecency uses keys) (hsub : keys'.Sublist keys) : ByRecency uses keys' :=
  ⟨fun k hk => h.used k (hsub.subset hk), h.ordered.sublist hsub⟩

/-- The use of a key that is not listed. -/
theorem snoc_absent (h : ByRecency uses keys) (hu : u ∉ keys) : ByRecency (uses ++ [u]) keys := by
  refine ⟨fun k hk => List.mem_append_left _ (h.used k hk), ?_⟩
  refine h.ordered.imp_of_mem fun {k k'} hk _ hbefore => hbefore.snoc ?_
  rintro rfl
  exact hu hk

/-- The use of a key that is moved to the end. -/
theorem snoc_last (h : ByRecency uses keys) (hu : u ∉ keys) :
    ByRecency (uses ++ [u]) (keys ++ [u]) := by
  have hkept := h.snoc_absent hu
  refine ⟨?_, ?_⟩
  · intro k hk
    rcases List.mem_append.mp hk with hk | hk
    · exact hkept.used k hk
    · exact List.mem_append_right _ hk
  · refine List.pairwise_append.mpr ⟨hkept.ordered, List.pairwise_singleton _ _, ?_⟩
    intro k hk k' hk'
    rw [List.mem_singleton] at hk'
    subst hk'
    refine ⟨uses, [k'], rfl, ?_, List.mem_singleton_self k'⟩
    rw [List.mem_singleton]
    rintro rfl
    exact hu hk

/-- Every other key was used after the last use of the first one. -/
theorem head (h : ByRecency uses keys) {k k' : κ} (hk : keys.head? = some k) (hk' : k' ∈ keys)
    (hne : k' ≠ k) : UsedBefore uses k k' := by
  cases keys with
  | nil => simp at hk
  | cons first rest =>
      obtain rfl : first = k := by simpa using hk
      rcases List.mem_cons.mp hk' with rfl | hrest
      · exact absurd rfl hne
      · exact List.rel_of_pairwise_cons h.ordered hrest

end ByRecency

namespace OrderedMap

/-- The keys in their order. -/
def keys (m : OrderedMap κ ν) : List κ := m.entries.map Prod.fst

variable [DecidableEq κ] (m : OrderedMap κ ν) {k k' : κ} {v : ν}

theorem mem_keys_iff : k ∈ m.keys ↔ ∃ v, m.get? k = some v := by
  simp [keys, get?_eq_some_iff]

theorem keys_pop_sublist : (m.pop k).keys.Sublist m.keys := List.filter_sublist.map _

theorem notMem_keys_pop : k ∉ (m.pop k).keys := by
  rw [mem_keys_iff]
  simp

theorem keys_set_absent (hk : k ∉ m.keys) : (m.set k v).keys = m.keys ++ [k] := by
  have habsent : k ∉ m.entries.map Prod.fst := hk
  unfold set
  rw [dif_neg habsent]
  simp [keys]

theorem keys_moveToEnd (hk : m.get? k = some v) :
    (m.moveToEnd k).keys = (m.pop k).keys ++ [k] := by
  unfold moveToEnd
  rw [hk]
  exact (m.pop k).keys_set_absent m.notMem_keys_pop

end OrderedMap

end Library
