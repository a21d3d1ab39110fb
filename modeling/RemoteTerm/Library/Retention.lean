import RemoteTerm.Library.Pages

/-!
# Tables that keep their first rows

A table that is cut down after every insert to the rows that come first in an order. What is
left does not depend on when it was cut: cutting after every insert leaves what one cut of
the whole history leaves.

## Implementation notes

The rank of a row is the number of the rows before it, so that a cut to `n` rows keeps the
rows of a rank below `n`. The keys of the rows are distinct.
-/

namespace Library

variable {ρ κ : Type} [LinearOrder κ] {key : ρ → κ} {rows kept dropped new : List ρ} {n : Nat}
  {r : ρ}

/-- `DELETE WHERE id NOT IN (SELECT id ORDER BY key LIMIT n)`. -/
def keepFirst [DecidableEq ρ] (key : ρ → κ) (n : Nat) (rows : List ρ) : List ρ :=
  rows.filter fun r => r ∈ (orderBy key rows).take n

/-- The number of the rows before a row. -/
def rank (key : ρ → κ) (rows : List ρ) (r : ρ) : Nat :=
  rows.countP fun q => key q < key r

theorem rank_perm {rows' : List ρ} (h : rows.Perm rows') : rank key rows r = rank key rows' r :=
  h.countP_eq _

theorem rank_append : rank key (rows ++ new) r = rank key rows r + rank key new r :=
  List.countP_append

theorem rank_sublist (h : kept.Sublist rows) : rank key kept r ≤ rank key rows r :=
  h.countP_le

/-- What comes later has a higher rank. -/
theorem rank_mono {q : ρ} (h : key q ≤ key r) : rank key rows q ≤ rank key rows r := by
  refine List.countP_mono_left fun p _ hp => ?_
  simp only [decide_eq_true_eq] at hp ⊢
  exact hp.trans_le h

/-- In ordered rows the rank of a row is the number of rows in front of it. -/
theorem rank_of_split {pre post : List ρ}
    (h : (pre ++ r :: post).Pairwise fun a b => key a < key b) :
    rank key (pre ++ r :: post) r = pre.length := by
  obtain ⟨-, hright, hcross⟩ := List.pairwise_append.mp h
  obtain ⟨hpost, -⟩ := List.pairwise_cons.mp hright
  have hpre : rank key pre r = pre.length := by
    refine List.countP_eq_length.mpr fun q hq => ?_
    simpa using hcross q hq r List.mem_cons_self
  have hrest : rank key (r :: post) r = 0 := by
    refine List.countP_eq_zero.mpr fun q hq => ?_
    rcases List.mem_cons.mp hq with rfl | hq
    · simp
    · simpa using (hpost q hq).le
  rw [rank_append, hpre, hrest, Nat.add_zero]

/-- The first `n` rows are those of a rank below `n`. -/
theorem mem_orderBy_take_iff (hkeys : (rows.map key).Nodup) (hr : r ∈ rows) :
    r ∈ (orderBy key rows).take n ↔ rank key rows r < n := by
  rw [← rank_perm (orderBy_perm key rows)]
  have hpairs := orderBy_pairwise hkeys
  have hmem : r ∈ orderBy key rows := mem_orderBy.mpr hr
  obtain ⟨pre, post, hsplit⟩ := List.append_of_mem hmem
  rw [hsplit] at hpairs ⊢
  rw [rank_of_split hpairs]
  constructor
  · intro hmem
    by_contra hle
    have hpre : (pre ++ r :: post).take n = pre.take n :=
      List.take_append_of_le_length (not_lt.mp hle)
    rw [hpre] at hmem
    obtain ⟨-, -, hcross⟩ := List.pairwise_append.mp hpairs
    exact lt_irrefl _ (hcross r (List.mem_of_mem_take hmem) r List.mem_cons_self)
  · intro hlt
    rw [List.take_append]
    refine List.mem_append_right _ ?_
    obtain ⟨k, hk⟩ : ∃ k, n - pre.length = k + 1 := ⟨n - pre.length - 1, by omega⟩
    rw [hk]
    exact List.mem_cons_self

section Cut

variable [DecidableEq ρ]

theorem keepFirst_sublist (key : ρ → κ) (n : Nat) (rows : List ρ) :
    (keepFirst key n rows).Sublist rows :=
  List.filter_sublist

theorem mem_of_mem_keepFirst (h : r ∈ keepFirst key n rows) : r ∈ rows :=
  List.mem_of_mem_filter h

/-- A cut keeps the rows of a low rank, in the order of the table. -/
theorem keepFirst_eq_filter (hkeys : (rows.map key).Nodup) :
    keepFirst key n rows = rows.filter fun r => rank key rows r < n := by
  refine List.filter_congr fun r hr => ?_
  simpa using mem_orderBy_take_iff hkeys hr

theorem mem_keepFirst_iff (hkeys : (rows.map key).Nodup) :
    r ∈ keepFirst key n rows ↔ r ∈ rows ∧ rank key rows r < n := by
  rw [keepFirst_eq_filter hkeys, List.mem_filter, decide_eq_true_eq]

theorem nodup_keepFirst (hkeys : (rows.map key).Nodup) :
    ((keepFirst key n rows).map key).Nodup :=
  hkeys.sublist ((keepFirst_sublist key n rows).map key)

/-- In order, the rows that are kept are the first `n`. -/
theorem orderBy_keepFirst (hkeys : (rows.map key).Nodup) :
    orderBy key (keepFirst key n rows) = (orderBy key rows).take n := by
  have hnodup : rows.Nodup := hkeys.of_map _
  have horder : (orderBy key rows).Nodup := (orderBy_perm key rows).nodup_iff.mpr hnodup
  refine orderBy_eq_of_perm ?_ ((orderBy_pairwise hkeys).sublist (List.take_sublist _ _))
  refine (List.perm_ext_iff_of_nodup (horder.sublist (List.take_sublist _ _))
    (hnodup.filter _)).mpr fun r => ?_
  rw [List.mem_filter, decide_eq_true_eq]
  exact ⟨fun h => ⟨mem_orderBy.mp (List.mem_of_mem_take h), h⟩, And.right⟩

theorem length_keepFirst (hkeys : (rows.map key).Nodup) :
    (keepFirst key n rows).length = min n rows.length := by
  rw [← (orderBy_perm key (keepFirst key n rows)).length_eq, orderBy_keepFirst hkeys,
    List.length_take, (orderBy_perm key rows).length_eq]

/-- A table that is small enough is not cut. -/
theorem keepFirst_of_length_le (h : rows.length ≤ n) : keepFirst key n rows = rows := by
  refine List.filter_eq_self.mpr fun r hr => ?_
  rw [List.take_of_length_le ((orderBy_perm key rows).length_eq.trans_le h)]
  simpa using hr

/-- Every row that is cut away comes behind every row that is kept. -/
theorem lt_of_dropped (hkeys : (rows.map key).Nodup) {d : ρ} (hd : d ∈ rows)
    (hdropped : d ∉ keepFirst key n rows) (hr : r ∈ keepFirst key n rows) : key r < key d := by
  rw [mem_keepFirst_iff hkeys] at hdropped hr
  by_contra hle
  have hrank : rank key rows d ≤ rank key rows r := rank_mono (not_lt.mp hle)
  exact hdropped ⟨hd, hrank.trans_lt hr.2⟩

/-- A row that is cut away has `n` kept rows before it. -/
theorem rank_of_dropped (hkeys : (rows.map key).Nodup) {d : ρ} (hd : d ∈ rows)
    (hdropped : d ∉ keepFirst key n rows) : n ≤ rank key (keepFirst key n rows) d := by
  have hall : rank key (keepFirst key n rows) d = (keepFirst key n rows).length :=
    List.countP_eq_length.mpr fun r hr => by simpa using lt_of_dropped hkeys hd hdropped hr
  rw [hall, length_keepFirst hkeys]
  refine le_min le_rfl ?_
  by_contra hlt
  exact hdropped (by rwa [keepFirst_of_length_le (not_le.mp hlt).le])

theorem nodup_append_keepFirst (hkeys : ((rows ++ new).map key).Nodup) :
    ((keepFirst key n rows ++ new).map key).Nodup :=
  hkeys.sublist (((keepFirst_sublist key n rows).append_right new).map key)

/-- **Cutting early changes nothing.** What a cut leaves after more rows have come is what one
cut of all the rows leaves. -/
theorem keepFirst_append (hkeys : ((rows ++ new).map key).Nodup) :
    keepFirst key n (keepFirst key n rows ++ new) = keepFirst key n (rows ++ new) := by
  have hrows : (rows.map key).Nodup := hkeys.sublist ((List.sublist_append_left _ _).map key)
  have hsub : (keepFirst key n rows ++ new).Sublist (rows ++ new) :=
    (keepFirst_sublist key n rows).append_right new
  have hinner := nodup_append_keepFirst (n := n) hkeys
  -- the ranks below `n` are the same before and after the first cut
  have hrank {r : ρ} : rank key (keepFirst key n rows ++ new) r < n ↔
      rank key (rows ++ new) r < n := by
    refine ⟨fun hlt => ?_, fun hlt => (rank_sublist hsub).trans_lt hlt⟩
    have hsame : rank key (keepFirst key n rows) r = rank key rows r := by
      rw [rank, keepFirst, List.countP_filter]
      refine List.countP_congr fun d hd => ?_
      simp only [Bool.and_eq_true, decide_eq_true_eq]
      refine ⟨And.left, fun hbefore => ⟨hbefore, ?_⟩⟩
      by_contra hnot
      have hdropped : d ∉ keepFirst key n rows := fun hmem => hnot (by
        simpa using (List.mem_filter.mp hmem).2)
      have hmany := (rank_of_dropped hrows hd hdropped).trans (rank_mono hbefore.le)
      rw [rank_append] at hlt
      omega
    rwa [rank_append, hsame, ← rank_append] at hlt
  rw [keepFirst_eq_filter hinner, keepFirst_eq_filter hkeys, List.filter_append,
    List.filter_append]
  congr 1
  · rw [keepFirst_eq_filter hrows, List.filter_filter]
    refine List.filter_congr fun r hr => ?_
    rw [← keepFirst_eq_filter hrows]
    simp only [hrank]
    by_cases hlt : rank key (rows ++ new) r < n
    · have hlow : rank key rows r < n := by
        rw [rank_append] at hlt
        omega
      simp [hlt, hlow]
    · simp [hlt]
  · refine List.filter_congr fun r _ => ?_
    simp only [hrank]

/-- A cut and a filter that keeps what comes first can change places. -/
theorem keepFirst_filter (hkeys : (rows.map key).Nodup) {p : ρ → Bool}
    (hp : ∀ a ∈ rows, ∀ b ∈ rows, key a < key b → p b = true → p a = true) :
    keepFirst key n (rows.filter p) = (keepFirst key n rows).filter p := by
  have hfilter : ((rows.filter p).map key).Nodup := hkeys.sublist (List.filter_sublist.map key)
  rw [keepFirst_eq_filter hkeys, keepFirst_eq_filter hfilter, List.filter_filter,
    List.filter_filter]
  refine List.filter_congr fun r hr => ?_
  by_cases hpr : p r = true
  · have hsame : rank key (rows.filter p) r = rank key rows r := by
      rw [rank, List.countP_filter]
      refine List.countP_congr fun q hq => ?_
      simp only [Bool.and_eq_true, decide_eq_true_eq]
      exact ⟨And.left, fun hlt => ⟨hlt, hp q hq r hr hlt hpr⟩⟩
    simp [hpr, hsame]
  · simp [hpr]

end Cut

end Library
