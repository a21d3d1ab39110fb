import Mathlib.Data.List.Nodup
import Mathlib.Data.List.Pairwise

/-!
# Tables with rowids and a partial unique index

A table keeps its rows in rowid order and never reuses a rowid. One partial
unique index files some of the rows under a key. The order of the rowids and
the uniqueness of the index are fields, so a table that violates its index
cannot be built, and every statement below must say how it keeps it.

## Implementation notes

Several partial indexes on disjoint sets of rows are one index whose key type
is the sum of theirs. A row outside every index has key `none`.
-/

namespace Library

/-- How a table reads a row: its rowid and the key its partial index files it under. -/
structure Schema (ρ κ : Type) where
  id : ρ → Nat
  key : ρ → Option κ

namespace Schema

variable {ρ κ : Type} (S : Schema ρ κ)

/-- Two rows that may stand in one table: they share no index entry. -/
def Distinct (a b : ρ) : Prop := S.key a = S.key b → S.key a = none

instance [DecidableEq κ] (a b : ρ) : Decidable (S.Distinct a b) :=
  inferInstanceAs (Decidable (S.key a = S.key b → S.key a = none))

variable {S}

theorem Distinct.symm {a b : ρ} (h : S.Distinct a b) : S.Distinct b a :=
  fun hk => hk.trans (h hk.symm)

instance : Std.Symm S.Distinct := ⟨fun _ _ h => h.symm⟩

theorem not_distinct_iff {a b : ρ} :
    ¬ S.Distinct a b ↔ ∃ k, S.key a = some k ∧ S.key b = some k := by
  simp only [Distinct]
  cases ha : S.key a with
  | none => simp
  | some k => simp [eq_comm]

/-- Rows with the same keys share their index entries with the same rows. -/
theorem distinct_congr {a a' b b' : ρ} (ha : S.key a' = S.key a) (hb : S.key b' = S.key b) :
    S.Distinct a' b' ↔ S.Distinct a b := by
  simp only [Distinct, ha, hb]

end Schema

/-- Rows in rowid order, the next rowid, and a unique partial index. -/
structure Table {ρ κ : Type} (S : Schema ρ κ) where
  rows : List ρ
  nextId : Nat
  sorted : rows.Pairwise fun a b => S.id a < S.id b
  id_lt : ∀ r ∈ rows, S.id r < nextId
  unique : rows.Pairwise S.Distinct

namespace Table

variable {ρ κ : Type} {S : Schema ρ κ}

/-- The table before the first insert. -/
def empty : Table S := ⟨[], 1, .nil, by simp, .nil⟩

theorem nodup_ids (t : Table S) : (t.rows.map S.id).Nodup :=
  List.pairwise_map.mpr (t.sorted.imp fun h => Nat.ne_of_lt h)

/-- A rowid determines its row. -/
theorem eq_of_id (t : Table S) {a b : ρ} (ha : a ∈ t.rows) (hb : b ∈ t.rows)
    (h : S.id a = S.id b) : a = b :=
  List.inj_on_of_nodup_map t.nodup_ids ha hb h

/-- An index entry determines its row. -/
theorem eq_of_key (t : Table S) {a b : ρ} {k : κ} (ha : a ∈ t.rows) (hb : b ∈ t.rows)
    (hka : S.key a = some k) (hkb : S.key b = some k) : a = b := by
  by_contra hne
  have hd := t.unique.forall ha hb hne
  simp [Schema.Distinct, hka, hkb] at hd

/-- Rewritten rows are pairwise distinct when those of any two rowids are. -/
theorem pairwise_map_iff (t : Table S) (f : ρ → ρ) :
    (t.rows.map f).Pairwise S.Distinct ↔
      ∀ a ∈ t.rows, ∀ b ∈ t.rows, S.id a ≠ S.id b → S.Distinct (f a) (f b) := by
  rw [List.pairwise_map]
  constructor
  · intro h a ha b hb hne
    have : Std.Symm fun a b => S.Distinct (f a) (f b) := ⟨fun _ _ h => h.symm⟩
    exact h.forall ha hb fun hab => hne (congrArg S.id hab)
  · intro h
    refine t.sorted.imp_of_mem fun ha hb hlt => h _ ha _ hb (Nat.ne_of_lt hlt)

/-- The first row in rowid order that satisfies a condition. -/
def first (t : Table S) (p : ρ → Bool) : Option ρ := t.rows.find? p

/-- The first row is the one whose rowid no other satisfying row undercuts. -/
theorem first_eq_some_iff (t : Table S) {p : ρ → Bool} {r : ρ} :
    t.first p = some r ↔ r ∈ t.rows ∧ p r = true ∧ ∀ q ∈ t.rows, S.id q < S.id r → p q = false := by
  have hs := t.sorted
  simp only [first]
  generalize t.rows = rows at hs
  induction rows with
  | nil => simp
  | cons a rest ih =>
      rw [List.pairwise_cons] at hs
      by_cases hp : p a
      · simp only [List.find?_cons, hp, Option.some.injEq]
        constructor
        · rintro rfl
          refine ⟨by simp, hp, fun q hq hlt => ?_⟩
          rcases List.mem_cons.mp hq with rfl | hq
          · exact absurd hlt (Nat.lt_irrefl _)
          · exact absurd hlt (Nat.lt_asymm (hs.1 q hq))
        · rintro ⟨hr, -, hmin⟩
          rcases List.mem_cons.mp hr with rfl | hr
          · rfl
          · simpa [hp] using hmin a (by simp) (hs.1 r hr)
      · simp only [List.find?_cons, hp, ih hs.2, List.mem_cons]
        constructor
        · rintro ⟨hr, hpr, hmin⟩
          refine ⟨Or.inr hr, hpr, ?_⟩
          rintro q (rfl | hq) hlt
          · simpa using hp
          · exact hmin q hq hlt
        · rintro ⟨rfl | hr, hpr, hmin⟩
          · exact absurd hpr hp
          · exact ⟨hr, hpr, fun q hq => hmin q (Or.inr hq)⟩

theorem first_eq_none_iff (t : Table S) {p : ρ → Bool} :
    t.first p = none ↔ ∀ r ∈ t.rows, p r = false := by
  simp [first, List.find?_eq_none]

section Index

variable [DecidableEq κ]

/-- The row that an index entry points to. -/
def holder (t : Table S) (k : κ) : Option ρ := t.rows.find? fun r => S.key r = some k

theorem holder_eq_some_iff (t : Table S) {k : κ} {r : ρ} :
    t.holder k = some r ↔ r ∈ t.rows ∧ S.key r = some k := by
  constructor
  · intro h
    exact ⟨List.mem_of_find?_eq_some h, by simpa using List.find?_some h⟩
  · rintro ⟨hr, hk⟩
    cases hf : t.holder k with
    | none =>
        simp only [holder, List.find?_eq_none] at hf
        exact absurd hk (by simpa using hf r hr)
    | some q =>
        have hq : q ∈ t.rows := List.mem_of_find?_eq_some hf
        have hkq : S.key q = some k := by simpa using List.find?_some hf
        rw [t.eq_of_key hq hr hkq hk]

/-- An index entry points to at most one row, so the rows under it are none or one. -/
theorem countP_key (t : Table S) (k : κ) :
    t.rows.countP (fun r => S.key r = some k) = if (t.holder k).isSome then 1 else 0 := by
  have hle : t.rows.countP (fun r => S.key r = some k) ≤ 1 := by
    have hu := t.unique
    generalize t.rows = rows at hu
    induction rows with
    | nil => simp
    | cons a rest ih =>
        rw [List.pairwise_cons] at hu
        by_cases ha : S.key a = some k
        · have hz : rest.countP (fun r => S.key r = some k) = 0 := by
            rw [List.countP_eq_zero]
            intro b hb hkb
            have hd := hu.1 b hb
            simp only [decide_eq_true_eq] at hkb
            simp [Schema.Distinct, ha, hkb] at hd
          simp [hz, ha]
        · simpa [List.countP_cons, ha] using ih hu.2
  cases h : t.holder k with
  | none =>
      simp only [holder, List.find?_eq_none] at h
      simpa [List.countP_eq_zero] using h
  | some r =>
      obtain ⟨hr, hk⟩ := t.holder_eq_some_iff.mp h
      have hpos : 0 < t.rows.countP (fun r => S.key r = some k) :=
        List.countP_pos_iff.mpr ⟨r, hr, by simpa using hk⟩
      simp only [Option.isSome_some, if_true]
      omega

/-- `INSERT OR IGNORE`: append the row under the next rowid, unless its index
entry is taken. -/
def insertOrIgnore (t : Table S) (mk : Nat → ρ) (hid : ∀ n, S.id (mk n) = n) :
    Option Nat × Table S :=
  if h : ∀ r ∈ t.rows, S.Distinct r (mk t.nextId) then
    (some t.nextId,
      { rows := t.rows ++ [mk t.nextId]
        nextId := t.nextId + 1
        sorted := by
          refine List.pairwise_append.mpr ⟨t.sorted, by simp, ?_⟩
          simpa [hid] using t.id_lt
        id_lt := by
          intro r hr
          rcases List.mem_append.mp hr with hr | hr
          · exact Nat.lt_succ_of_lt (t.id_lt r hr)
          · simp [List.mem_singleton.mp hr, hid]
        unique := List.pairwise_append.mpr ⟨t.unique, by simp, by simpa using h⟩ })
  else (none, t)

/-- An insert is ignored exactly when some row holds its index entry. -/
theorem insertOrIgnore_eq_none_iff (t : Table S) {mk : Nat → ρ} {hid : ∀ n, S.id (mk n) = n} :
    (t.insertOrIgnore mk hid).1 = none ↔
      ∃ k r, S.key (mk t.nextId) = some k ∧ t.holder k = some r := by
  simp only [insertOrIgnore]
  split
  next h =>
    simp only [reduceCtorEq, false_iff, not_exists, not_and]
    intro k r hk hr
    obtain ⟨hr, hkr⟩ := t.holder_eq_some_iff.mp hr
    have hd := h r hr
    simp [Schema.Distinct, hk, hkr] at hd
  next h =>
    simp only [true_iff]
    simp only [not_forall] at h
    obtain ⟨r, hr, hd⟩ := h
    obtain ⟨k, hk, hk'⟩ := Schema.not_distinct_iff.mp hd
    exact ⟨k, r, hk', t.holder_eq_some_iff.mpr ⟨hr, hk⟩⟩

/-- An ignored insert leaves the table as it was. -/
theorem insertOrIgnore_of_none (t : Table S) {mk : Nat → ρ} {hid : ∀ n, S.id (mk n) = n}
    (h : (t.insertOrIgnore mk hid).1 = none) : (t.insertOrIgnore mk hid).2 = t := by
  by_cases hd : ∀ r ∈ t.rows, S.Distinct r (mk t.nextId)
  · simp [insertOrIgnore, dif_pos hd] at h
  · simp [insertOrIgnore, dif_neg hd]

/-- A successful insert appends the row under the next rowid and returns that rowid. -/
theorem insertOrIgnore_of_some (t : Table S) {mk : Nat → ρ} {hid : ∀ n, S.id (mk n) = n} {n : Nat}
    (h : (t.insertOrIgnore mk hid).1 = some n) :
    n = t.nextId ∧ (t.insertOrIgnore mk hid).2.rows = t.rows ++ [mk t.nextId] ∧
      (t.insertOrIgnore mk hid).2.nextId = t.nextId + 1 := by
  by_cases hd : ∀ r ∈ t.rows, S.Distinct r (mk t.nextId)
  · simp only [insertOrIgnore, dif_pos hd, Option.some.injEq] at h ⊢
    exact ⟨h.symm, trivial, trivial⟩
  · simp [insertOrIgnore, dif_neg hd] at h

/-- A free index entry lets the row in. -/
theorem insertOrIgnore_of_free (t : Table S) {mk : Nat → ρ} {hid : ∀ n, S.id (mk n) = n} {k : κ}
    (hk : S.key (mk t.nextId) = some k) (h : t.holder k = none) :
    (t.insertOrIgnore mk hid).1 = some t.nextId := by
  cases hi : (t.insertOrIgnore mk hid).1 with
  | none =>
      obtain ⟨k', r, hk', hr⟩ := t.insertOrIgnore_eq_none_iff.mp hi
      obtain rfl := Option.some.inj (hk.symm.trans hk')
      simp [h] at hr
  | some n => rw [(t.insertOrIgnore_of_some hi).1]

/-- A taken index entry keeps the row out. -/
theorem insertOrIgnore_of_taken (t : Table S) {mk : Nat → ρ} {hid : ∀ n, S.id (mk n) = n} {k : κ}
    {r : ρ} (hk : S.key (mk t.nextId) = some k) (h : t.holder k = some r) :
    t.insertOrIgnore mk hid = (none, t) := by
  have hn : (t.insertOrIgnore mk hid).1 = none :=
    t.insertOrIgnore_eq_none_iff.mpr ⟨k, r, hk, h⟩
  exact Prod.ext hn (t.insertOrIgnore_of_none hn)

/-- After a successful insert the new row holds its index entry; the others are as before. -/
theorem holder_insertOrIgnore (t : Table S) {mk : Nat → ρ} {hid : ∀ n, S.id (mk n) = n} {n : Nat}
    (h : (t.insertOrIgnore mk hid).1 = some n) (k : κ) :
    (t.insertOrIgnore mk hid).2.holder k =
      if S.key (mk t.nextId) = some k then some (mk t.nextId) else t.holder k := by
  obtain ⟨-, hrows, -⟩ := t.insertOrIgnore_of_some h
  have hnone : S.key (mk t.nextId) = some k → t.holder k = none := by
    intro hk
    cases ht : t.holder k with
    | none => rfl
    | some r => simp [t.insertOrIgnore_of_taken hk ht] at h
  by_cases hk : S.key (mk t.nextId) = some k
  · have hn := hnone hk
    simp only [holder] at hn
    simp [holder, hrows, List.find?_append, hn, hk]
  · simp [holder, hrows, List.find?_append, hk]

end Index

/-- `UPDATE` of columns outside the rowid and the index. -/
def modify (t : Table S) (p : ρ → Bool) (f : ρ → ρ) (hid : ∀ r, S.id (f r) = S.id r)
    (hkey : ∀ r, S.key (f r) = S.key r) : Table S :=
  have hid' : ∀ r, S.id (if p r then f r else r) = S.id r := by
    intro r
    split <;> simp [hid]
  have hkey' : ∀ r, S.key (if p r then f r else r) = S.key r := by
    intro r
    split <;> simp [hkey]
  { rows := t.rows.map fun r => if p r then f r else r
    nextId := t.nextId
    sorted := List.pairwise_map.mpr (by simpa only [hid'] using t.sorted)
    id_lt := by
      intro r hr
      obtain ⟨q, hq, rfl⟩ := List.mem_map.mp hr
      exact (hid' q).symm ▸ t.id_lt q hq
    unique := List.pairwise_map.mpr
      (t.unique.imp fun h => (Schema.distinct_congr (hkey' _) (hkey' _)).mpr h) }

@[simp] theorem modify_rows (t : Table S) (p : ρ → Bool) (f : ρ → ρ)
    (hid : ∀ r, S.id (f r) = S.id r) (hkey : ∀ r, S.key (f r) = S.key r) :
    (t.modify p f hid hkey).rows = t.rows.map fun r => if p r then f r else r := rfl

@[simp] theorem modify_nextId (t : Table S) (p : ρ → Bool) (f : ρ → ρ)
    (hid : ∀ r, S.id (f r) = S.id r) (hkey : ∀ r, S.key (f r) = S.key r) :
    (t.modify p f hid hkey).nextId = t.nextId := rfl

/-- An update outside the index leaves every index entry with its row, updated. -/
theorem holder_modify [DecidableEq κ] (t : Table S) (p : ρ → Bool) (f : ρ → ρ)
    (hid : ∀ r, S.id (f r) = S.id r) (hkey : ∀ r, S.key (f r) = S.key r) (k : κ) :
    (t.modify p f hid hkey).holder k = (t.holder k).map fun r => if p r then f r else r := by
  have hkey' : ∀ r, S.key (if p r then f r else r) = S.key r := by
    intro r
    split <;> simp [hkey]
  simp only [holder, modify_rows, List.find?_map, Function.comp_def, hkey']

/-- `DELETE` of the rows that satisfy a condition. -/
def delete (t : Table S) (p : ρ → Bool) : Table S where
  rows := t.rows.filter fun r => !p r
  nextId := t.nextId
  sorted := t.sorted.filter _
  id_lt := fun r hr => t.id_lt r (List.mem_filter.mp hr).1
  unique := t.unique.filter _

section Update

variable [DecidableEq κ]

/-- `UPDATE` of index columns, row by row: each rewritten row must be distinct
from every other row of the table as it then stands. -/
def updateRows (S : Schema ρ κ) (p : ρ → Bool) (f : ρ → ρ) : List ρ → List ρ → Option (List ρ)
  | done, [] => some done
  | done, r :: rest =>
      if p r then
        if ∀ q ∈ done ++ rest, S.Distinct q (f r) then updateRows S p f (done ++ [f r]) rest
        else none
      else updateRows S p f (done ++ [r]) rest

theorem updateRows_eq {p : ρ → Bool} {f : ρ → ρ} {done rest out : List ρ}
    (h : updateRows S p f done rest = some out) :
    out = done ++ rest.map fun r => if p r then f r else r := by
  induction rest generalizing done with
  | nil => simpa [updateRows] using (Option.some.inj h).symm
  | cons r rest ih =>
      simp only [updateRows] at h
      by_cases hp : p r
      · simp only [hp, if_true] at h
        split at h
        · simpa [hp] using ih h
        · simp at h
      · rw [if_neg hp] at h
        simpa [hp] using ih h

theorem updateRows_unique {p : ρ → Bool} {f : ρ → ρ} {done rest out : List ρ}
    (h : updateRows S p f done rest = some out) (hu : (done ++ rest).Pairwise S.Distinct) :
    out.Pairwise S.Distinct := by
  induction rest generalizing done with
  | nil => simpa [updateRows, ← Option.some.inj h] using hu
  | cons r rest ih =>
      have hmove : ∀ x, (∀ q ∈ done ++ rest, S.Distinct q x) →
          ((done ++ [x]) ++ rest).Pairwise S.Distinct := by
        intro x hx
        have hdr : (done ++ rest).Pairwise S.Distinct :=
          hu.sublist ((List.Sublist.refl done).append (List.sublist_cons_self r rest))
        rw [List.pairwise_append] at hdr
        rw [List.append_assoc, List.singleton_append, List.pairwise_append, List.pairwise_cons]
        refine ⟨hdr.1, ⟨fun q hq => (hx q (by simp [hq])).symm, hdr.2.1⟩, ?_⟩
        intro a ha b hb
        rcases List.mem_cons.mp hb with rfl | hb
        · exact hx a (by simp [ha])
        · exact hdr.2.2 a ha b hb
      simp only [updateRows] at h
      by_cases hp : p r
      · simp only [hp, if_true] at h
        split at h
        next hd => exact ih h (hmove _ hd)
        next => simp at h
      · rw [if_neg hp] at h
        exact ih h (by simpa using hu)

/-- The statement succeeds when the rewritten rows are pairwise distinct and no
rewritten row meets one that is still to be rewritten. -/
theorem updateRows_complete {p : ρ → Bool} {f : ρ → ρ} {done rest : List ρ}
    (hfinal : (done ++ rest.map fun r => if p r then f r else r).Pairwise S.Distinct)
    (hfree : ∀ r ∈ rest, p r → ∀ q ∈ rest, p q → S.Distinct q (f r)) :
    updateRows S p f done rest = some (done ++ rest.map fun r => if p r then f r else r) := by
  induction rest generalizing done with
  | nil => simp [updateRows]
  | cons r rest ih =>
      have hfree' : ∀ a ∈ rest, p a → ∀ q ∈ rest, p q → S.Distinct q (f a) :=
        fun a ha hpa q hq hpq => hfree a (by simp [ha]) hpa q (by simp [hq]) hpq
      by_cases hp : p r
      · have hd : ∀ q ∈ done ++ rest, S.Distinct q (f r) := by
          simp only [List.map_cons, hp, if_true, List.pairwise_append, List.pairwise_cons] at hfinal
          intro q hq
          rcases List.mem_append.mp hq with hq | hq
          · exact hfinal.2.2 q hq (f r) (by simp)
          · by_cases hpq : p q
            · exact hfree r (by simp) hp q (by simp [hq]) hpq
            · have := hfinal.2.1.1 q (List.mem_map.mpr ⟨q, hq, by simp [hpq]⟩)
              exact this.symm
        simp only [updateRows, hp, if_true]
        rw [if_pos hd, ih (by simpa [hp] using hfinal) hfree']
        simp [hp]
      · rw [updateRows, if_neg hp, ih (by simpa [hp] using hfinal) hfree']
        simp [hp]

/-- `UPDATE` of index columns. It fails, and changes nothing, when some rewritten
row meets another row's index entry. -/
def updateWhere (t : Table S) (p : ρ → Bool) (f : ρ → ρ) (hid : ∀ r, S.id (f r) = S.id r) :
    Option (Table S) :=
  match h : updateRows S p f [] t.rows with
  | none => none
  | some out => some
      { rows := out
        nextId := t.nextId
        sorted := by
          have hid' : ∀ r, S.id (if p r then f r else r) = S.id r := by
            intro r
            split <;> simp [hid]
          rw [updateRows_eq h, List.nil_append]
          exact List.pairwise_map.mpr (by simpa only [hid'] using t.sorted)
        id_lt := by
          intro r hr
          rw [updateRows_eq h, List.nil_append] at hr
          obtain ⟨q, hq, rfl⟩ := List.mem_map.mp hr
          split <;> simpa [hid] using t.id_lt q hq
        unique := updateRows_unique h (by simpa using t.unique) }

theorem updateWhere_rows (t : Table S) {p : ρ → Bool} {f : ρ → ρ}
    {hid : ∀ r, S.id (f r) = S.id r} {u : Table S} (h : t.updateWhere p f hid = some u) :
    u.rows = t.rows.map (fun r => if p r then f r else r) ∧ u.nextId = t.nextId := by
  simp only [updateWhere] at h
  split at h
  next => simp at h
  next out hout =>
    simp only [Option.some.injEq] at h
    subst h
    exact ⟨by simpa using updateRows_eq hout, rfl⟩

/-- When no rewritten row can meet one still to be rewritten, the statement
succeeds exactly when the rewritten rows are pairwise distinct. -/
theorem updateWhere_isSome_iff (t : Table S) {p : ρ → Bool} {f : ρ → ρ}
    {hid : ∀ r, S.id (f r) = S.id r}
    (hfree : ∀ r ∈ t.rows, p r → ∀ q ∈ t.rows, p q → S.Distinct q (f r)) :
    (t.updateWhere p f hid).isSome ↔
      (t.rows.map fun r => if p r then f r else r).Pairwise S.Distinct := by
  constructor
  · intro h
    obtain ⟨u, hu⟩ := Option.isSome_iff_exists.mp h
    exact (updateWhere_rows t hu).1 ▸ u.unique
  · intro h
    have hc : updateRows S p f [] t.rows =
        some ([] ++ t.rows.map fun r => if p r then f r else r) :=
      updateRows_complete (by simpa using h) hfree
    simp only [updateWhere]
    split
    next hn => simp [hn] at hc
    next => rfl

end Update

end Table

end Library
