import Mathlib.Data.Option.Basic
import RemoteTerm.Library.Retention

/-!
# The names that were seen last

A table with one row for each name that shows when the name was last seen, cut down to the
`n` rows that were seen last. A name that was cut away has to be seen again to come back. Its
row is right all the same: a sight that is not later than its last one does not bring it
back.
-/

namespace Library

variable {ρ ι τ κ : Type} [LinearOrder τ] {name : ρ → ι} {time : ρ → τ} {n : Nat}
  {last : ι → Option τ} {rows : List ρ} {i : ι} {t : τ}

/-- The last sights after one more sight. -/
def addSight [DecidableEq ι] (last : ι → Option τ) (i : ι) (t : τ) : ι → Option τ :=
  Function.update last i (Option.merge max (last i) (some t))

/-- The rows show the last sights of their names, and a name without a row was last seen
before all of them. -/
structure ShowsLast (name : ρ → ι) (time : ρ → τ) (n : Nat) (last : ι → Option τ)
    (rows : List ρ) : Prop where
  names : (rows.map name).Nodup
  length_le : rows.length ≤ n
  shown : ∀ r ∈ rows, last (name r) = some (time r)
  absent : ∀ i t, last i = some t → i ∉ rows.map name → rows.length = n ∧ ∀ r ∈ rows, t ≤ time r

namespace ShowsLast

theorem nil (h : ∀ i, last i = none) : ShowsLast name time n last [] where
  names := List.nodup_nil
  length_le := Nat.zero_le n
  shown := by simp
  absent := fun i t hi => by simp [h i] at hi

variable [DecidableEq ι]

/-- A name that has a row is seen again. -/
theorem touch (h : ShowsLast name time n last rows) (hi : i ∈ rows.map name) {f : ρ → ρ}
    (hname : ∀ r, name (f r) = name r)
    (hself : ∀ r ∈ rows, name r = i → time (f r) = max (time r) t)
    (hother : ∀ r ∈ rows, name r ≠ i → time (f r) = time r) :
    ShowsLast name time n (addSight last i t) (rows.map f) := by
  have hnames : (rows.map f).map name = rows.map name := by simp [hname]
  have hlater : ∀ r ∈ rows, time r ≤ time (f r) := by
    intro r hr
    by_cases hri : name r = i
    · rw [hself r hr hri]
      exact le_max_left _ _
    · rw [hother r hr hri]
  refine ⟨hnames ▸ h.names, by simpa using h.length_le, fun r' hr' => ?_, fun j u hj hno => ?_⟩
  · obtain ⟨r, hr, rfl⟩ := List.mem_map.mp hr'
    rw [hname]
    by_cases hri : name r = i
    · rw [hself r hr hri, addSight, hri, Function.update_self, ← hri, h.shown r hr]
      rfl
    · rw [hother r hr hri, addSight, Function.update_of_ne hri, h.shown r hr]
  · rw [hnames] at hno
    have hji : j ≠ i := fun he => hno (he ▸ hi)
    rw [addSight, Function.update_of_ne hji] at hj
    obtain ⟨hlen, hall⟩ := h.absent j u hj hno
    refine ⟨by simpa using hlen, fun r' hr' => ?_⟩
    obtain ⟨r, hr, rfl⟩ := List.mem_map.mp hr'
    exact (hall r hr).trans (hlater r hr)

/-- A name that has no row is seen, and the table is cut. -/
theorem insert_keepFirst [LinearOrder κ] [DecidableEq ρ] {key : ρ → κ} {r : ρ}
    (h : ShowsLast name time n last rows) (hr : name r ∉ rows.map name)
    (hkeys : ((rows ++ [r]).map key).Nodup) (hkey : ∀ a b, key a < key b → time b ≤ time a) :
    ShowsLast name time n (addSight last (name r) (time r)) (keepFirst key n (rows ++ [r])) := by
  have hmem {q : ρ} (hq : q ∈ keepFirst key n (rows ++ [r])) : q ∈ rows ∨ q = r := by
    simpa using mem_of_mem_keepFirst hq
  have hne {q : ρ} (hq : q ∈ rows) : name q ≠ name r := fun he => hr (he ▸ List.mem_map_of_mem hq)
  have hsub := (keepFirst_sublist key n (rows ++ [r])).map name
  have hnames : ((rows ++ [r]).map name).Nodup := by
    rw [List.map_append, List.map_singleton]
    exact List.nodup_append.mpr ⟨h.names, List.nodup_singleton _, fun a ha b hb he => hr (by
      rw [List.mem_singleton] at hb
      exact hb ▸ he ▸ ha)⟩
  have hlength : (keepFirst key n (rows ++ [r])).length = min n (rows.length + 1) := by
    rw [length_keepFirst hkeys, List.length_append, List.length_singleton]
  -- in a full table the new row only stays in the place of a row that was not seen later
  have hout (hfull : rows.length = n) (hin : r ∈ keepFirst key n (rows ++ [r])) :
      ∃ x ∈ rows, time x ≤ time r := by
    by_contra hno
    push Not at hno
    have hall : rows ++ [r] ⊆ keepFirst key n (rows ++ [r]) := by
      intro q hq
      by_contra hdropped
      rcases List.mem_append.mp hq with hqrows | hqr
      · exact (hno q hqrows).not_ge (hkey _ _ (lt_of_dropped hkeys hq hdropped hin))
      · exact hdropped (List.mem_singleton.mp hqr ▸ hin)
    have hcount := (List.subperm_of_subset (hkeys.of_map key) hall).length_le
    rw [hlength, List.length_append, List.length_singleton] at hcount
    omega
  have habsent {j : ι} {u : τ} (hj : last j = some u) (hno : j ∉ rows.map name)
      (hin : r ∈ keepFirst key n (rows ++ [r])) : rows.length = n ∧ u ≤ time r := by
    obtain ⟨hfull, hall⟩ := h.absent j u hj hno
    obtain ⟨x, hx, hxr⟩ := hout hfull hin
    exact ⟨hfull, (hall x hx).trans hxr⟩
  have hcut {q : ρ} (hq : q ∈ rows ++ [r]) (hdropped : q ∉ keepFirst key n (rows ++ [r])) :
      (keepFirst key n (rows ++ [r])).length = n := by
    rw [hlength, min_eq_left]
    by_contra hlt
    refine hdropped ?_
    rwa [keepFirst_of_length_le]
    rw [List.length_append, List.length_singleton]
    omega
  refine ⟨hnames.sublist hsub, by rw [hlength]; exact min_le_left _ _, fun q hq => ?_,
    fun j u hj hno => ?_⟩
  · rcases hmem hq with hqrows | rfl
    · rw [addSight, Function.update_of_ne (hne hqrows), h.shown q hqrows]
    · rw [addSight, Function.update_self]
      cases hlast : last (name q) with
      | none => rfl
      | some u => exact congrArg some (max_eq_right (habsent hlast hr hq).2)
  · by_cases hjr : j = name r
    · subst hjr
      have hdropped : r ∉ keepFirst key n (rows ++ [r]) :=
        fun hin => hno (List.mem_map_of_mem hin)
      have hlater : ∀ q ∈ keepFirst key n (rows ++ [r]), time r ≤ time q := fun q hq =>
        hkey _ _ (lt_of_dropped hkeys (by simp) hdropped hq)
      refine ⟨hcut (by simp) hdropped, fun q hq => ?_⟩
      rw [addSight, Function.update_self] at hj
      cases hlast : last (name r) with
      | none =>
          rw [hlast] at hj
          exact (Option.some.inj hj) ▸ hlater q hq
      | some v =>
          rw [hlast] at hj
          refine (Option.some.inj hj) ▸ max_le ?_ (hlater q hq)
          rcases hmem hq with hqrows | rfl
          · exact (h.absent _ v hlast hr).2 q hqrows
          · exact absurd hq hdropped
    · rw [addSight, Function.update_of_ne hjr] at hj
      by_cases hjrows : j ∈ rows.map name
      · obtain ⟨x, hx, rfl⟩ := List.mem_map.mp hjrows
        have hdropped : x ∉ keepFirst key n (rows ++ [r]) :=
          fun hin => hno (List.mem_map_of_mem hin)
        have hxrows : x ∈ rows ++ [r] := List.mem_append_left _ hx
        have hu : time x = u := Option.some.inj ((h.shown x hx).symm.trans hj)
        exact ⟨hcut hxrows hdropped, fun q hq =>
          hu ▸ hkey _ _ (lt_of_dropped hkeys hxrows hdropped hq)⟩
      · obtain ⟨hfull, hall⟩ := h.absent j u hj hjrows
        refine ⟨by rw [hlength]; omega, fun q hq => ?_⟩
        rcases hmem hq with hqrows | rfl
        · exact hall q hqrows
        · exact (habsent hj hjrows hq).2

end ShowsLast

end Library
