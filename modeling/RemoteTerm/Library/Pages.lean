import Mathlib.Data.List.Sort
import Mathlib.Data.Prod.Lex
import Mathlib.Order.Lex

/-!
# Reading ordered rows page by page

`ORDER BY` on distinct keys, and a reader who asks for page after page with the
key of the last row it saw. When each page holds the next rows in key order, the
reader sees every row once and in order, and it stops.

## Implementation notes

A descending order is the ascending order of the dual keys. The reader counts
its requests, so that a reader who never meets a short page has no result.
-/

namespace Library

variable {ρ κ : Type} [LinearOrder κ]

/-- `ORDER BY key`. -/
def orderBy (key : ρ → κ) (rows : List ρ) : List ρ :=
  rows.mergeSort fun a b => decide (key a ≤ key b)

theorem orderBy_perm (key : ρ → κ) (rows : List ρ) : (orderBy key rows).Perm rows :=
  rows.mergeSort_perm _

@[simp] theorem mem_orderBy {key : ρ → κ} {rows : List ρ} {r : ρ} :
    r ∈ orderBy key rows ↔ r ∈ rows :=
  (orderBy_perm key rows).mem_iff

/-- Rows with distinct keys are strictly ordered. -/
theorem orderBy_pairwise {key : ρ → κ} {rows : List ρ} (hkeys : (rows.map key).Nodup) :
    (orderBy key rows).Pairwise fun a b => key a < key b := by
  have hle : (orderBy key rows).Pairwise fun a b => key a ≤ key b := by
    have hsort : (orderBy key rows).Pairwise fun a b => decide (key a ≤ key b) = true := by
      apply List.pairwise_mergeSort
      · intro a b c hab hbc
        simp only [decide_eq_true_eq] at *
        exact hab.trans hbc
      · intro a b
        simpa using le_total (key a) (key b)
    exact hsort.imp fun h => by simpa using h
  have hnodup : ((orderBy key rows).map key).Nodup :=
    ((orderBy_perm key rows).map key).nodup_iff.mpr hkeys
  have hne : (orderBy key rows).Pairwise fun a b => key a ≠ key b :=
    List.pairwise_map.mp hnodup
  exact (hle.and hne).imp fun h => lt_of_le_of_ne h.1 h.2

/-- A row that is not among the first `n` comes behind `n` rows. -/
theorem orderBy_take_spec {key : ρ → κ} {rows : List ρ} (hkeys : (rows.map key).Nodup) {n : Nat}
    {r : ρ} (hr : r ∈ rows) (hnot : r ∉ (orderBy key rows).take n) :
    n < (orderBy key rows).length ∧ ∀ p ∈ (orderBy key rows).take n, key p < key r := by
  have hsplit := List.take_append_drop n (orderBy key rows)
  have hdrop : r ∈ (orderBy key rows).drop n := by
    have hmem : r ∈ (orderBy key rows).take n ++ (orderBy key rows).drop n :=
      hsplit.symm ▸ mem_orderBy.mpr hr
    exact (List.mem_append.mp hmem).resolve_left hnot
  refine ⟨?_, fun p hp => ?_⟩
  · have hpos := List.length_pos_of_mem hdrop
    rw [List.length_drop] at hpos
    omega
  · have hpairs := orderBy_pairwise hkeys
    rw [← hsplit] at hpairs
    exact (List.pairwise_append.mp hpairs).2.2 p hp r hdrop

/-- There is one strictly ordered list of the same rows. -/
theorem eq_of_perm_of_pairwise {key : ρ → κ} {l m : List ρ} (hperm : l.Perm m)
    (hl : l.Pairwise fun a b => key a < key b) (hm : m.Pairwise fun a b => key a < key b) :
    l = m :=
  hperm.eq_of_pairwise (fun _ _ _ _ hab hba => (lt_asymm hab hba).elim) hl hm

theorem orderBy_eq_of_perm {key : ρ → κ} {rows l : List ρ} (hperm : l.Perm rows)
    (hl : l.Pairwise fun a b => key a < key b) : orderBy key rows = l := by
  have hkeys : (rows.map key).Nodup := by
    have hnodup : (l.map key).Nodup := List.pairwise_map.mpr (hl.imp fun h => h.ne)
    exact (hperm.map key).nodup_iff.mp hnodup
  exact eq_of_perm_of_pairwise ((orderBy_perm key rows).trans hperm.symm)
    (orderBy_pairwise hkeys) hl

/-- Ordering the rows that pass a filter is filtering the ordered rows. -/
theorem orderBy_filter {key : ρ → κ} {rows : List ρ} (hkeys : (rows.map key).Nodup)
    (p : ρ → Bool) : orderBy key (rows.filter p) = (orderBy key rows).filter p :=
  orderBy_eq_of_perm ((orderBy_perm key rows).filter p) ((orderBy_pairwise hkeys).filter p)

/-- The descending order is the ascending one backwards. -/
theorem orderBy_toDual {key : ρ → κ} {rows : List ρ} (hkeys : (rows.map key).Nodup) :
    orderBy (OrderDual.toDual ∘ key) rows = (orderBy key rows).reverse := by
  apply orderBy_eq_of_perm ((List.reverse_perm _).trans (orderBy_perm key rows))
  rw [List.pairwise_reverse]
  exact orderBy_pairwise hkeys

/-- Ordering commutes with a map that keeps the keys. -/
theorem orderBy_map {σ : Type} {key : ρ → κ} {key' : σ → κ} {f : ρ → σ} {rows : List ρ}
    (hkeys : (rows.map key).Nodup) (hf : ∀ r, key' (f r) = key r) :
    orderBy key' (rows.map f) = (orderBy key rows).map f := by
  apply orderBy_eq_of_perm ((orderBy_perm key rows).map f)
  rw [List.pairwise_map]
  simpa only [hf] using orderBy_pairwise hkeys

section Reader

variable {ρ κ : Type} {lt : κ → κ → Prop} [DecidableRel lt]

/-- The rows past a cursor; every row when there is none. -/
def beyond (lt : κ → κ → Prop) [DecidableRel lt] (key : ρ → κ) (cursor : Option κ)
    (rows : List ρ) : List ρ :=
  rows.filter fun r => cursor.all fun c => decide (lt c (key r))

@[simp] theorem beyond_none (key : ρ → κ) (rows : List ρ) : beyond lt key none rows = rows := by
  simp [beyond]

/-- What lies past a row lies past every cursor that the row lies past. -/
theorem beyond_beyond [IsTrans κ lt] {key : ρ → κ} {cursor : Option κ} {rows : List ρ} {r : ρ}
    (hr : r ∈ beyond lt key cursor rows) :
    beyond lt key (some (key r)) (beyond lt key cursor rows) = beyond lt key (some (key r)) rows := by
  simp only [beyond, List.filter_filter]
  refine List.filter_congr fun q _ => ?_
  cases cursor with
  | none => simp
  | some c =>
      have hc : lt c (key r) := by simpa [beyond] using (List.mem_filter.mp hr).2
      by_cases hq : lt (key r) (key q)
      · simp [hq, Trans.trans hc hq]
      · simp [hq]

/-- In ordered rows, what lies past a row is what stands behind it. -/
theorem beyond_of_pairwise [IsStrictOrder κ lt] {key : ρ → κ} {pre post : List ρ} {r : ρ}
    (h : (pre ++ r :: post).Pairwise fun a b => lt (key a) (key b)) :
    beyond lt key (some (key r)) (pre ++ r :: post) = post := by
  obtain ⟨-, hright, hcross⟩ := List.pairwise_append.mp h
  obtain ⟨hpost, -⟩ := List.pairwise_cons.mp hright
  have hpre : pre.filter (fun q => decide (lt (key r) (key q))) = [] := by
    rw [List.filter_eq_nil_iff]
    intro q hq
    simpa using asymm (hcross q hq r List.mem_cons_self)
  have hkeep : post.filter (fun q => decide (lt (key r) (key q))) = post := by
    rw [List.filter_eq_self]
    intro q hq
    simpa using hpost q hq
  simp [beyond, List.filter_append, hpre, hkeep, irrefl (r := lt) (key r)]

/-- Ask for pages until one is short, each time with the key of the last row seen;
`none` when the allowed number of requests did not suffice. -/
def readPages (fetch : Option κ → List ρ) (key : ρ → κ) (limit : Nat) :
    Nat → Option κ → Option (List ρ)
  | 0, _ => none
  | requests + 1, cursor =>
      let page := fetch cursor
      if page.length < limit then some page
      else
        match page.getLast? with
        | none => some page
        | some last => (readPages fetch key limit requests (some (key last))).map (page ++ ·)

/-- When each page holds the next rows of an ordered list, the reader sees all that lies
past its cursor, once and in order. -/
theorem readPages_eq [IsStrictOrder κ lt] {fetch : Option κ → List ρ} {key : ρ → κ} {limit : Nat} {all : List ρ}
    (hlimit : 1 ≤ limit) (hall : all.Pairwise fun a b => lt (key a) (key b))
    (hfetch : ∀ c, fetch (some c) = (beyond lt key (some c) all).take limit) (cursor : Option κ)
    (hstart : fetch cursor = (beyond lt key cursor all).take limit)
    (requests : Nat) (hrequests : (beyond lt key cursor all).length < requests) :
    readPages fetch key limit requests cursor = some (beyond lt key cursor all) := by
  induction requests generalizing cursor with
  | zero => exact absurd hrequests (Nat.not_lt_zero _)
  | succ requests ih =>
      rw [readPages, hstart]
      by_cases hshort : ((beyond lt key cursor all).take limit).length < limit
      · have hle : (beyond lt key cursor all).length ≤ limit := by
          rw [List.length_take] at hshort
          omega
        rw [if_pos hshort, List.take_of_length_le hle]
      · have hlen : limit ≤ (beyond lt key cursor all).length := by
          rw [List.length_take] at hshort
          omega
        rw [if_neg hshort]
        obtain ⟨pre, last, hpage⟩ : ∃ pre last, (beyond lt key cursor all).take limit =
            pre ++ [last] := by
          rcases List.eq_nil_or_concat ((beyond lt key cursor all).take limit) with hnil | ⟨pre, last, h⟩
          · have hzero := congrArg List.length hnil
            rw [List.length_take, List.length_nil] at hzero
            omega
          · exact ⟨pre, last, by simpa using h⟩
        have hsplit : beyond lt key cursor all =
            pre ++ last :: (beyond lt key cursor all).drop limit := by
          calc beyond lt key cursor all
              = (beyond lt key cursor all).take limit ++ (beyond lt key cursor all).drop limit :=
                (List.take_append_drop _ _).symm
            _ = pre ++ last :: (beyond lt key cursor all).drop limit := by
                rw [hpage, List.append_assoc, List.singleton_append]
        -- What the next request finds is what this page left.
        have hnext : beyond lt key (some (key last)) all = (beyond lt key cursor all).drop limit := by
          have hordered : (beyond lt key cursor all).Pairwise fun a b => lt (key a) (key b) :=
            hall.filter _
          have hlast : last ∈ beyond lt key cursor all := by
            rw [hsplit]
            simp
          rw [← beyond_beyond hlast]
          rw [hsplit] at hordered
          conv_lhs => rw [hsplit]
          exact beyond_of_pairwise hordered
        have hrest := ih (some (key last)) (hfetch _) (by
          rw [hnext, List.length_drop]
          omega)
        simp only [hpage, List.getLast?_append, List.getLast?_singleton, Option.some_or, hrest,
          hnext, Option.map_some]
        rw [List.append_assoc, List.singleton_append, ← hsplit]

end Reader

section Window

/-- Ordered rows around a row: what comes before it, the row, what comes after. -/
theorem split_of_pairwise {key : ρ → κ} {all : List ρ} {t : ρ}
    (hall : all.Pairwise fun a b => key a < key b) (ht : t ∈ all) :
    all = all.filter (fun r => decide (key r < key t)) ++
      t :: all.filter (fun r => decide (key t < key r)) := by
  obtain ⟨pre, post, rfl⟩ := List.append_of_mem ht
  have hpost : (pre ++ t :: post).filter (fun r => decide (key t < key r)) = post := by
    have hbeyond : beyond (· < ·) key (some (key t)) (pre ++ t :: post) = post :=
      beyond_of_pairwise hall
    simpa [beyond] using hbeyond
  obtain ⟨-, hright, hcross⟩ := List.pairwise_append.mp hall
  have hpre : (pre ++ t :: post).filter (fun r => decide (key r < key t)) = pre := by
    have hkeep : pre.filter (fun r => decide (key r < key t)) = pre := by
      rw [List.filter_eq_self]
      intro q hq
      simpa using hcross q hq t List.mem_cons_self
    have hdrop : post.filter (fun r => decide (key r < key t)) = [] := by
      rw [List.filter_eq_nil_iff]
      intro q hq
      simpa using ((List.pairwise_cons.mp hright).1 q hq).le
    simp [List.filter_append, hkeep, hdrop]
  rw [hpre, hpost]

/-- A probe of one row more than `n` tells whether more than `n` rows are there. -/
theorem length_take_probe (n : Nat) (l : List ρ) :
    decide ((l.take (n + 1)).length > n) = true ↔ l.drop n ≠ [] := by
  rw [decide_eq_true_eq, List.length_take, ne_eq, List.drop_eq_nil_iff]
  omega

/-- The nearest `n` rows on each side of a row, as taken by two probes from the middle,
are one stretch of the ordered rows. -/
theorem window_of_split {older newer : List ρ} {t : ρ} (n : Nat) :
    older ++ t :: newer =
      (older.reverse.drop n).reverse ++
        ((((older.reverse.take (n + 1)).take n).reverse ++ [t] ++
          (newer.take (n + 1)).take n) ++ newer.drop n) := by
  have holder : (older.reverse.drop n).reverse ++ (older.reverse.take n).reverse = older := by
    rw [← List.reverse_append, List.take_append_drop, List.reverse_reverse]
  have hmin : min n (n + 1) = n := by omega
  calc older ++ t :: newer
      = ((older.reverse.drop n).reverse ++ (older.reverse.take n).reverse) ++
          t :: (newer.take n ++ newer.drop n) := by rw [holder, List.take_append_drop]
    _ = _ := by
        simp only [List.take_take, hmin, List.append_assoc, List.cons_append, List.nil_append]

end Window

end Library
