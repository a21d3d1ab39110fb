import Mathlib
import RemoteTerm.Library.OrderedMap
import RemoteTerm.Repository.Contacts

/-!
# Promoting prefix placeholders

A contact that is known by a prefix of its key is merged into the contact of the
full key once that one is known: its advert paths and its names, with the first
and the last time of each, and its own timestamps.

## Implementation notes

A child row of a contact is a value under the contact's key and the rest of its
unique columns. A statement that violates a foreign key rolls everything back,
which is `none`. The type and the name of a contact stand for its other columns.
-/

namespace RemoteTerm

open Library

namespace Promotion

/-- The columns of a contact beside its key. -/
structure ContactColumns where
  name : Option Text := none
  type : Nat := 0
  lastAdvert : Option Int := none
  lastSeen : Option Int := none
  lastContacted : Option Int := none
  firstSeen : Option Int := none
  lastReadAt : Option Int := none
  deriving DecidableEq

/-- A row of `contact_advert_paths` beside its key, `path_hex` and `path_len`. -/
structure AdvertPath where
  firstSeen : Int
  lastSeen : Int
  heardCount : Int
  deriving DecidableEq

/-- A row of `contact_name_history` beside its key and the name. -/
structure NameSpan where
  firstSeen : Int
  lastSeen : Int
  deriving DecidableEq

/-- The rows of a table whose contact is one of its unique columns. -/
abbrev ChildTable (κ ν : Type) := OrderedMap (Text × κ) ν

/-- The three tables. -/
structure ContactStore where
  contacts : OrderedMap Text ContactColumns
  advertPaths : ChildTable (Text × Int) AdvertPath
  nameHistory : ChildTable Text NameSpan

/-- The `ON CONFLICT` clause of the advert paths. -/
def AdvertPath.merge (stored excluded : AdvertPath) : AdvertPath where
  firstSeen := min stored.firstSeen excluded.firstSeen
  lastSeen := max stored.lastSeen excluded.lastSeen
  heardCount := stored.heardCount + excluded.heardCount

/-- The `ON CONFLICT` clause of the names. -/
def NameSpan.merge (stored excluded : NameSpan) : NameSpan where
  firstSeen := min stored.firstSeen excluded.firstSeen
  lastSeen := max stored.lastSeen excluded.lastSeen

section Children

variable {κ ν : Type} [DecidableEq κ]

/-- An `INSERT` with `ON CONFLICT DO UPDATE`. -/
def insertChild (merge : ν → ν → ν) (t : ChildTable κ ν) (key : Text × κ) (v : ν) :
    ChildTable κ ν :=
  t.set key (((t.get? key).map fun stored => merge stored v).getD v)

/-- The `INSERT` of the rows of a contact under another key. -/
def insertRowsOf (merge : ν → ν → ν) (t : ChildTable κ ν) (oldKey newKey : Text) :
    ChildTable κ ν :=
  (t.entries.filter fun e => e.1.1 = oldKey).foldl
    (fun t e => insertChild merge t (newKey, e.1.2) e.2) t

/-- `DELETE ... WHERE public_key = ?`. -/
def deleteRowsOf (t : ChildTable κ ν) (oldKey : Text) : ChildTable κ ν :=
  t.filter fun key _ => key.1 ≠ oldKey

/-- The foreign key of the rows that are inserted. -/
def RowsAllowed (contacts : OrderedMap Text ContactColumns) (t : ChildTable κ ν)
    (oldKey newKey : Text) : Prop :=
  (∃ e ∈ t.entries, e.1.1 = oldKey) → (contacts.get? newKey).isSome

instance (contacts : OrderedMap Text ContactColumns) (t : ChildTable κ ν) (oldKey newKey : Text) :
    Decidable (RowsAllowed contacts t oldKey newKey) :=
  inferInstanceAs (Decidable ((∃ e ∈ t.entries, _) → _))

end Children

/-- `migrate_child_rows`. -/
def migrateChildRows (s : ContactStore) (oldKey newKey : Text) : Option ContactStore :=
  if RowsAllowed s.contacts s.nameHistory oldKey newKey ∧
      RowsAllowed s.contacts s.advertPaths oldKey newKey then
    some { s with
      nameHistory :=
        deleteRowsOf (insertRowsOf NameSpan.merge s.nameHistory oldKey newKey) oldKey
      advertPaths :=
        deleteRowsOf (insertRowsOf AdvertPath.merge s.advertPaths oldKey newKey) oldKey }
  else none

/-- The `CASE` of a timestamp that only grows. -/
def laterStamp (stored old : Option Int) : Option Int :=
  match stored, old with
  | none, _ => old
  | some _, none => stored
  | some s, some o => if s < o then old else stored

/-- The `CASE` of a timestamp that only falls. -/
def earlierStamp (stored old : Option Int) : Option Int :=
  match stored, old with
  | none, _ => old
  | some _, none => stored
  | some s, some o => if o < s then old else stored

/-- The `UPDATE` of the full contact. -/
def ContactColumns.mergeStamps (stored old : ContactColumns) : ContactColumns :=
  { stored with
    lastSeen := laterStamp stored.lastSeen old.lastSeen
    lastContacted := laterStamp stored.lastContacted old.lastContacted
    firstSeen := earlierStamp stored.firstSeen old.firstSeen
    lastReadAt := laterStamp stored.lastReadAt old.lastReadAt }

/-- `SELECT COUNT(*)` of the full contacts that a prefix matches. -/
def fullKeyMatches (contacts : OrderedMap Text ContactColumns) (keyPrefix : Text) : Nat :=
  contacts.entries.countP fun e => e.1.length = 64 ∧ like (keyPrefix ++ ['%']) e.1

/-- The placeholders of a full key, the longest first. -/
def placeholders (contacts : OrderedMap Text ContactColumns) (fullKey : Text) :
    List (Text × ContactColumns) :=
  (contacts.entries.filter fun e => e.1.length < 64 ∧ like (e.1 ++ ['%']) fullKey).mergeSort
    fun a b => b.1.length < a.1.length ∨ a.1.length = b.1.length ∧ a.1 ≤ b.1

/-- `UPDATE contacts ... WHERE public_key = ?` and `DELETE FROM contacts`, which takes the children of
the placeholder with it. -/
def mergeContact (s : ContactStore) (old : Text × ContactColumns) (fullKey : Text) :
    ContactStore where
  contacts :=
    (match s.contacts.get? fullKey with
      | none => s.contacts
      | some stored => s.contacts.set fullKey (stored.mergeStamps old.2)).pop old.1
  advertPaths := deleteRowsOf s.advertPaths old.1
  nameHistory := deleteRowsOf s.nameHistory old.1

/-- One turn of the loop. -/
def promoteOne (fullKey : Text) (state : ContactStore × List Text)
    (old : Text × ContactColumns) : Option (ContactStore × List Text) :=
  let (s, promoted) := state
  if old.1 = fullKey then some state
  else if fullKeyMatches s.contacts old.1 ≠ 1 then some state
  else (migrateChildRows s old.1 fullKey).map fun s' =>
    (mergeContact s' old fullKey, promoted ++ [old.1])

/-- `promote_prefix_placeholders`, with `none` for an `IntegrityError`. -/
def promotePrefixPlaceholders (s : ContactStore) (fullKey : Text) :
    Option (ContactStore × List Text) :=
  (placeholders s.contacts (lower fullKey)).foldlM (promoteOne (lower fullKey)) (s, [])

section ChildRows

variable {κ ν : Type} [DecidableEq κ] {merge : ν → ν → ν} {t : ChildTable κ ν}
  {oldKey newKey owner : Text} {k : κ}

theorem get?_insertChild (key key' : Text × κ) (v : ν) :
    (insertChild merge t key v).get? key' =
      if key' = key then Option.merge merge (t.get? key) (some v) else t.get? key' := by
  unfold insertChild
  split_ifs with h
  · rw [h, OrderedMap.get?_set_self]
    cases t.get? key <;> rfl
  · exact OrderedMap.get?_set_of_ne _ _ h

/-- Rows that are inserted one after the other, each under its own name. -/
theorem get?_foldl_insertChild (es : List ((Text × κ) × ν)) (hnodup : (es.map fun e => e.1.2).Nodup)
    (t : ChildTable κ ν) :
    (es.foldl (fun t e => insertChild merge t (newKey, e.1.2) e.2) t).get? (owner, k) =
      if owner = newKey then
        Option.merge merge (t.get? (owner, k)) ((es.find? fun e => e.1.2 = k).map Prod.snd)
      else t.get? (owner, k) := by
  induction es generalizing t with
  | nil =>
      split_ifs
      · exact Option.merge_none_right.symm
      · rfl
  | cons e es ih =>
      rw [List.map_cons, List.nodup_cons] at hnodup
      rw [List.foldl_cons, ih hnodup.2]
      split_ifs with howner
      · subst howner
        by_cases hk : e.1.2 = k
        · subst hk
          have hnone : es.find? (fun e' => decide (e'.1.2 = e.1.2)) = none := by
            rw [List.find?_eq_none]
            exact fun e' he' heq => hnodup.1 (List.mem_map.mpr ⟨e', he', by simpa using heq⟩)
          rw [get?_insertChild, if_pos rfl, hnone, List.find?_cons_of_pos (by simp)]
          cases t.get? (owner, e.1.2) <;> rfl
        · rw [get?_insertChild, if_neg (by simp [Ne.symm hk]),
            List.find?_cons_of_neg (by simpa using hk)]
      · rw [get?_insertChild, if_neg (by simp [howner])]

theorem get?_deleteRowsOf (t : ChildTable κ ν) :
    (deleteRowsOf t oldKey).get? (owner, k) =
      if owner = oldKey then none else t.get? (owner, k) := by
  rw [deleteRowsOf, OrderedMap.get?_filter]
  split_ifs with h
  · cases t.get? (owner, k) <;> simp [h]
  · cases t.get? (owner, k) <;> simp [h]

/-- The rows of a contact that move to another key, merged with those that are there. -/
theorem get?_insertRowsOf (t : ChildTable κ ν) :
    (insertRowsOf merge t oldKey newKey).get? (owner, k) =
      if owner = newKey then
        Option.merge merge (t.get? (owner, k)) (t.get? (oldKey, k))
      else t.get? (owner, k) := by
  have hnodup : ((t.entries.filter fun e => e.1.1 = oldKey).map fun e => e.1.2).Nodup := by
    refine List.Nodup.map_on (fun e he e' he' heq => ?_) ((List.Nodup.of_map _ t.nodup).filter _)
    obtain ⟨hmem, howner⟩ := List.mem_filter.mp he
    obtain ⟨hmem', howner'⟩ := List.mem_filter.mp he'
    refine List.inj_on_of_nodup_map t.nodup hmem hmem' (Prod.ext ?_ heq)
    exact (of_decide_eq_true howner).trans (of_decide_eq_true howner').symm
  have hfind : ((t.entries.filter fun e => e.1.1 = oldKey).find? fun e => e.1.2 = k) =
      t.entries.find? fun e => e.1 = (oldKey, k) := by
    rw [List.find?_filter]
    congr 1
    funext e
    simp [Prod.ext_iff]
  rw [insertRowsOf, get?_foldl_insertChild _ hnodup, hfind]
  rfl

/-- The rows of a placeholder under the full key. -/
def moveRows (merge : ν → ν → ν) (newKey : Text) (t : ChildTable κ ν) (oldKey : Text) :
    ChildTable κ ν :=
  deleteRowsOf (deleteRowsOf (insertRowsOf merge t oldKey newKey) oldKey) oldKey

theorem get?_moveRows (t : ChildTable κ ν) :
    (moveRows merge newKey t oldKey).get? (owner, k) =
      if owner = oldKey then none
      else if owner = newKey then Option.merge merge (t.get? (owner, k)) (t.get? (oldKey, k))
      else t.get? (owner, k) := by
  rw [moveRows, get?_deleteRowsOf, get?_deleteRowsOf, get?_insertRowsOf]
  split_ifs <;> rfl

/-- The rows of several placeholders under the full key. -/
theorem get?_foldl_moveRows {olds : List Text} (hnodup : olds.Nodup) (hnew : newKey ∉ olds)
    (t : ChildTable κ ν) :
    (olds.foldl (moveRows merge newKey) t).get? (owner, k) =
      if owner ∈ olds then none
      else if owner = newKey then
        (olds.map fun old => t.get? (old, k)).foldl (Option.merge merge) (t.get? (owner, k))
      else t.get? (owner, k) := by
  induction olds generalizing t with
  | nil => simp
  | cons old olds ih =>
      obtain ⟨hold, hnodup⟩ := List.nodup_cons.mp hnodup
      obtain ⟨hne, hnew⟩ := not_or.mp (List.mem_cons.not.mp hnew)
      rw [List.foldl_cons, ih hnodup hnew, get?_moveRows]
      have hrest : olds.map (fun o => (moveRows merge newKey t old).get? (o, k)) =
          olds.map fun o => t.get? (o, k) := by
        refine List.map_congr_left fun o ho => ?_
        have hold' : o ≠ old := by
          rintro rfl
          exact hold ho
        have hnew' : o ≠ newKey := by
          rintro rfl
          exact hnew ho
        rw [get?_moveRows, if_neg hold', if_neg hnew']
      rw [hrest]
      by_cases howner : owner = old
      · subst howner
        simp [hold, Ne.symm hne]
      · by_cases hmem : owner ∈ olds
        · simp [hmem]
        · by_cases heq : owner = newKey
          · subst heq
            simp [hmem, hne]
          · simp [howner, hmem, heq]

end ChildRows

section Summary

variable {α : Type} {op : α → α → α}

/-- Values that are merged one after the other, absent ones left out. -/
theorem foldl_merge_eq (o : Option α) (os : List (Option α)) :
    os.foldl (Option.merge op) o =
      match (o :: os).reduceOption with
      | [] => none
      | a :: as => some (as.foldl op a) := by
  induction os generalizing o with
  | nil => cases o <;> rfl
  | cons o' os ih =>
      rw [List.foldl_cons, ih]
      cases o <;> cases o' <;> simp [List.reduceOption_cons_of_some, List.reduceOption_cons_of_none]

theorem foldl_merge_map {β : Type} (f : α → β) (op' : β → β → β)
    (hf : ∀ a b, f (op a b) = op' (f a) (f b)) (o : Option α) (os : List (Option α)) :
    (os.foldl (Option.merge op) o).map f =
      (os.map (Option.map f)).foldl (Option.merge op') (o.map f) := by
  induction os generalizing o with
  | nil => rfl
  | cons o' os ih =>
      rw [List.foldl_cons, ih, List.map_cons, List.foldl_cons]
      congr 1
      cases o <;> cases o' <;> simp [hf]

theorem foldl_merge_min (o : Option Int) (os : List (Option Int)) :
    os.foldl (Option.merge min) o = (o :: os).reduceOption.min? := by
  rw [foldl_merge_eq]
  cases (o :: os).reduceOption <;> rfl

theorem foldl_merge_max (o : Option Int) (os : List (Option Int)) :
    os.foldl (Option.merge max) o = (o :: os).reduceOption.max? := by
  rw [foldl_merge_eq]
  cases (o :: os).reduceOption <;> rfl

theorem foldl_merge_add (o : Option Int) (os : List (Option Int)) :
    os.foldl (Option.merge (· + ·)) o =
      if (o :: os).reduceOption = [] then none else some (o :: os).reduceOption.sum := by
  rw [foldl_merge_eq]
  cases (o :: os).reduceOption with
  | nil => rfl
  | cons a as => simp [List.sum_eq_foldl]

theorem reduceOption_map_eq {β : Type} (f : β → Option α) (l : List β) :
    (l.map f).reduceOption = l.filterMap f := by
  rw [List.reduceOption, List.filterMap_map]
  rfl

end Summary

section Run

variable {s : ContactStore} {full k : Text} {c : ContactColumns} {old : Text × ContactColumns}
  {rows : List (Text × ContactColumns)} {promoted : List Text}

/-- A placeholder that is merged. -/
def mergeInto (full : Text) (s : ContactStore) (old : Text × ContactColumns) : ContactStore where
  contacts := (mergeContact s old full).contacts
  advertPaths := moveRows AdvertPath.merge full s.advertPaths old.1
  nameHistory := moveRows NameSpan.merge full s.nameHistory old.1

/-- With the full contact present no foreign key is violated. -/
theorem promoteOne_eq (hfull : s.contacts.get? full = some c) (hne : old.1 ≠ full) :
    promoteOne full (s, promoted) old =
      some (if fullKeyMatches s.contacts old.1 = 1 then
        (mergeInto full s old, promoted ++ [old.1])
      else (s, promoted)) := by
  have hallowed : RowsAllowed s.contacts s.nameHistory old.1 full ∧
      RowsAllowed s.contacts s.advertPaths old.1 full :=
    ⟨fun _ => by rw [hfull]; rfl, fun _ => by rw [hfull]; rfl⟩
  rw [promoteOne, if_neg hne, migrateChildRows, if_pos hallowed]
  split_ifs <;> first | rfl | contradiction

theorem get?_mergeInto (hfull : s.contacts.get? full = some c) :
    (mergeInto full s old).contacts.get? k =
      if k = old.1 then none
      else if k = full then some (c.mergeStamps old.2)
      else s.contacts.get? k := by
  simp only [mergeInto, mergeContact, hfull]
  by_cases hk : k = old.1
  · rw [hk, OrderedMap.get?_pop_self, if_pos rfl]
  · rw [OrderedMap.get?_pop_of_ne _ hk, if_neg hk]
    split_ifs with heq
    · rw [heq, OrderedMap.get?_set_self]
    · exact OrderedMap.get?_set_of_ne _ _ heq

/-- How many full contacts a prefix matches depends on the keys. -/
theorem fullKeyMatches_eq (contacts : OrderedMap Text ContactColumns) (keyPrefix : Text) :
    fullKeyMatches contacts keyPrefix =
      (contacts.entries.map Prod.fst).countP fun key =>
        key.length = 64 ∧ like (keyPrefix ++ ['%']) key := by
  rw [List.countP_map]
  rfl

theorem keys_set (contacts : OrderedMap Text ContactColumns) {stored : ContactColumns}
    (h : contacts.get? k = some stored) (columns : ContactColumns) :
    (contacts.set k columns).entries.map Prod.fst = contacts.entries.map Prod.fst := by
  have hmem : k ∈ contacts.entries.map Prod.fst :=
    List.mem_map.mpr ⟨_, (OrderedMap.get?_eq_some_iff _).mp h, rfl⟩
  rw [OrderedMap.set, dif_pos hmem, List.map_map]
  refine List.map_congr_left fun e _ => ?_
  by_cases he : e.1 = k <;> simp [he]

/-- A placeholder is no full contact. -/
theorem fullKeyMatches_mergeInto (hfull : s.contacts.get? full = some c)
    (hshort : old.1.length < 64) (keyPrefix : Text) :
    fullKeyMatches (mergeInto full s old).contacts keyPrefix =
      fullKeyMatches s.contacts keyPrefix := by
  have hkeys : (mergeInto full s old).contacts.entries.map Prod.fst =
      (s.contacts.entries.map Prod.fst).filter fun key => key ≠ old.1 := by
    simp only [mergeInto, mergeContact, hfull]
    rw [← keys_set s.contacts hfull (c.mergeStamps old.2), OrderedMap.pop, OrderedMap.filter,
      List.filter_map]
    rfl
  rw [fullKeyMatches_eq, fullKeyMatches_eq, hkeys, List.countP_filter]
  refine List.countP_congr fun key _ => ?_
  have hne : key.length = 64 → key ≠ old.1 := by
    rintro hlength rfl
    omega
  simp only [Bool.and_eq_true, decide_eq_true_eq]
  exact ⟨fun h => h.1, fun h => ⟨h, hne h.1⟩⟩

/-- The placeholders that one full contact matches are merged. -/
theorem foldlM_promoteOne (hfull : s.contacts.get? full = some c)
    (hrows : ∀ old ∈ rows, old.1.length < 64 ∧ old.1 ≠ full) (promoted : List Text) :
    rows.foldlM (promoteOne full) (s, promoted) =
      some ((rows.filter fun old => fullKeyMatches s.contacts old.1 = 1).foldl (mergeInto full) s,
        promoted ++
          (rows.filter fun old => fullKeyMatches s.contacts old.1 = 1).map Prod.fst) := by
  induction rows generalizing s c promoted with
  | nil => simp
  | cons old rows ih =>
      obtain ⟨⟨hshort, hne⟩, hrest⟩ := List.forall_mem_cons.mp hrows
      rw [List.foldlM_cons, promoteOne_eq hfull hne]
      by_cases hmatch : fullKeyMatches s.contacts old.1 = 1
      · have hfull' : (mergeInto full s old).contacts.get? full = some (c.mergeStamps old.2) := by
          rw [get?_mergeInto hfull, if_neg (Ne.symm hne), if_pos rfl]
        rw [if_pos hmatch, List.filter_cons_of_pos (by simpa using hmatch)]
        change rows.foldlM (promoteOne full) (mergeInto full s old, promoted ++ [old.1]) = _
        rw [ih hfull' hrest]
        simp only [fullKeyMatches_mergeInto hfull hshort, List.foldl_cons, List.map_cons,
          List.append_assoc, List.singleton_append]
      · rw [if_neg hmatch, List.filter_cons_of_neg (by simpa using hmatch)]
        exact ih hfull hrest promoted

theorem get?_foldl_mergeInto (hfull : s.contacts.get? full = some c)
    (hrows : ∀ old ∈ rows, old.1 ≠ full) :
    (rows.foldl (mergeInto full) s).contacts.get? k =
      if k ∈ rows.map Prod.fst then none
      else if k = full then some ((rows.map Prod.snd).foldl ContactColumns.mergeStamps c)
      else s.contacts.get? k := by
  induction rows generalizing s c with
  | nil =>
      by_cases hk : k = full
      · simp [hk, hfull]
      · simp [hk]
  | cons old rows ih =>
      obtain ⟨hne, hrest⟩ := List.forall_mem_cons.mp hrows
      have hfull' : (mergeInto full s old).contacts.get? full = some (c.mergeStamps old.2) := by
        rw [get?_mergeInto hfull, if_neg (Ne.symm hne), if_pos rfl]
      rw [List.foldl_cons, ih hfull' hrest, get?_mergeInto hfull]
      by_cases hmem : k ∈ rows.map Prod.fst
      · rw [if_pos hmem, List.map_cons, if_pos (List.mem_cons_of_mem _ hmem)]
      · by_cases hk : k = old.1
        · subst hk
          simp [hmem, hne]
        · by_cases hfullKey : k = full
          · subst hfullKey
            simp [hmem, hk]
          · simp [hmem, hk, hfullKey]

theorem foldl_mergeInto_advertPaths (rows : List (Text × ContactColumns)) (s : ContactStore) :
    (rows.foldl (mergeInto full) s).advertPaths =
      (rows.map Prod.fst).foldl (moveRows AdvertPath.merge full) s.advertPaths := by
  induction rows generalizing s with
  | nil => rfl
  | cons old rows ih => exact ih _

theorem foldl_mergeInto_nameHistory (rows : List (Text × ContactColumns)) (s : ContactStore) :
    (rows.foldl (mergeInto full) s).nameHistory =
      (rows.map Prod.fst).foldl (moveRows NameSpan.merge full) s.nameHistory := by
  induction rows generalizing s with
  | nil => rfl
  | cons old rows ih => exact ih _

end Run

/-- A placeholder that is promoted: a contact whose key is shorter and matches the full key, and
which matches one full contact. -/
def IsPromoted (s : ContactStore) (full old : Text) : Prop :=
  (∃ columns, s.contacts.get? old = some columns) ∧ old.length < 64 ∧
    like (old ++ ['%']) full ∧ fullKeyMatches s.contacts old = 1

/-- The contact of the full key among the contacts that were merged into it: the earliest and the
latest of their timestamps, and its own other columns. -/
structure MergedContact (own : ContactColumns) (merged : List ContactColumns)
    (c : ContactColumns) : Prop where
  lastSeen : c.lastSeen = ((own :: merged).map ContactColumns.lastSeen).reduceOption.max?
  lastContacted :
    c.lastContacted = ((own :: merged).map ContactColumns.lastContacted).reduceOption.max?
  lastReadAt : c.lastReadAt = ((own :: merged).map ContactColumns.lastReadAt).reduceOption.max?
  firstSeen : c.firstSeen = ((own :: merged).map ContactColumns.firstSeen).reduceOption.min?
  name : c.name = own.name
  type : c.type = own.type
  lastAdvert : c.lastAdvert = own.lastAdvert

/-- One advert path of several. -/
structure MergedPath (paths : List AdvertPath) (path : Option AdvertPath) : Prop where
  firstSeen : path.map AdvertPath.firstSeen = (paths.map AdvertPath.firstSeen).min?
  lastSeen : path.map AdvertPath.lastSeen = (paths.map AdvertPath.lastSeen).max?
  heardCount : path.map AdvertPath.heardCount =
    if paths = [] then none else some (paths.map AdvertPath.heardCount).sum

/-- One name of several. -/
structure MergedName (spans : List NameSpan) (span : Option NameSpan) : Prop where
  firstSeen : span.map NameSpan.firstSeen = (spans.map NameSpan.firstSeen).min?
  lastSeen : span.map NameSpan.lastSeen = (spans.map NameSpan.lastSeen).max?

section Outcome

variable {s : ContactStore} {full old : Text} {c : ContactColumns}

theorem laterStamp_eq (stored old : Option Int) :
    laterStamp stored old = Option.merge max stored old := by
  cases stored <;> cases old <;> simp [laterStamp]
  split_ifs <;> simp <;> omega

theorem earlierStamp_eq (stored old : Option Int) :
    earlierStamp stored old = Option.merge min stored old := by
  cases stored <;> cases old <;> simp [earlierStamp]
  split_ifs <;> simp <;> omega

/-- A timestamp of the merged contact. -/
theorem foldl_mergeStamps (f : ContactColumns → Option Int)
    {op : Option Int → Option Int → Option Int}
    (hf : ∀ stored old : ContactColumns, f (stored.mergeStamps old) = op (f stored) (f old))
    (own : ContactColumns) (merged : List ContactColumns) :
    f (merged.foldl ContactColumns.mergeStamps own) = (merged.map f).foldl op (f own) := by
  induction merged generalizing own with
  | nil => rfl
  | cons old merged ih => rw [List.foldl_cons, ih, hf, List.map_cons, List.foldl_cons]

theorem mergedContact_foldl (own : ContactColumns) (merged : List ContactColumns) :
    MergedContact own merged (merged.foldl ContactColumns.mergeStamps own) where
  lastSeen := by
    rw [foldl_mergeStamps ContactColumns.lastSeen (fun _ _ => laterStamp_eq _ _), foldl_merge_max]
    rfl
  lastContacted := by
    rw [foldl_mergeStamps ContactColumns.lastContacted (fun _ _ => laterStamp_eq _ _), foldl_merge_max]
    rfl
  lastReadAt := by
    rw [foldl_mergeStamps ContactColumns.lastReadAt (fun _ _ => laterStamp_eq _ _), foldl_merge_max]
    rfl
  firstSeen := by
    rw [foldl_mergeStamps ContactColumns.firstSeen (fun _ _ => earlierStamp_eq _ _), foldl_merge_min]
    rfl
  name := by
    induction merged generalizing own with
    | nil => rfl
    | cons old merged ih => exact ih _
  type := by
    induction merged generalizing own with
    | nil => rfl
    | cons old merged ih => exact ih _
  lastAdvert := by
    induction merged generalizing own with
    | nil => rfl
    | cons old merged ih => exact ih _

theorem mergedPath_foldl (o : Option AdvertPath) (os : List (Option AdvertPath)) :
    MergedPath (o :: os).reduceOption (os.foldl (Option.merge AdvertPath.merge) o) where
  firstSeen := by
    rw [foldl_merge_map AdvertPath.firstSeen min fun _ _ => rfl, foldl_merge_min, ← List.map_cons,
      List.reduceOption_map]
  lastSeen := by
    rw [foldl_merge_map AdvertPath.lastSeen max fun _ _ => rfl, foldl_merge_max, ← List.map_cons,
      List.reduceOption_map]
  heardCount := by
    rw [foldl_merge_map AdvertPath.heardCount (· + ·) fun _ _ => rfl, foldl_merge_add, ← List.map_cons,
      List.reduceOption_map]
    simp only [List.map_eq_nil_iff]

theorem mergedName_foldl (o : Option NameSpan) (os : List (Option NameSpan)) :
    MergedName (o :: os).reduceOption (os.foldl (Option.merge NameSpan.merge) o) where
  firstSeen := by
    rw [foldl_merge_map NameSpan.firstSeen min fun _ _ => rfl, foldl_merge_min, ← List.map_cons,
      List.reduceOption_map]
  lastSeen := by
    rw [foldl_merge_map NameSpan.lastSeen max fun _ _ => rfl, foldl_merge_max, ← List.map_cons,
      List.reduceOption_map]

/-- The contacts that are promoted. -/
def promotedRows (s : ContactStore) (full : Text) : List (Text × ContactColumns) :=
  (placeholders s.contacts full).filter fun old => fullKeyMatches s.contacts old.1 = 1

theorem mem_placeholders {e : Text × ContactColumns} :
    e ∈ placeholders s.contacts full ↔
      s.contacts.get? e.1 = some e.2 ∧ e.1.length < 64 ∧ like (e.1 ++ ['%']) full := by
  rw [placeholders, (List.mergeSort_perm _ _).mem_iff, List.mem_filter,
    OrderedMap.get?_eq_some_iff, decide_eq_true_eq]

theorem nodup_promotedRows : ((promotedRows s full).map Prod.fst).Nodup := by
  have hplaceholders : ((placeholders s.contacts full).map Prod.fst).Nodup := by
    rw [placeholders, ((List.mergeSort_perm _ _).map Prod.fst).nodup_iff]
    exact s.contacts.nodup.sublist (List.filter_sublist.map _)
  exact hplaceholders.sublist (List.filter_sublist.map _)

theorem mem_promotedRows_iff :
    old ∈ (promotedRows s full).map Prod.fst ↔ IsPromoted s full old := by
  simp only [List.mem_map, promotedRows, List.mem_filter, mem_placeholders, decide_eq_true_eq]
  constructor
  · rintro ⟨e, ⟨⟨hget, hshort, hlike⟩, hmatch⟩, rfl⟩
    exact ⟨⟨e.2, hget⟩, hshort, hlike, hmatch⟩
  · rintro ⟨⟨columns, hget⟩, hshort, hlike, hmatch⟩
    exact ⟨(old, columns), ⟨⟨hget, hshort, hlike⟩, hmatch⟩, rfl⟩

theorem ne_full_of_placeholder (hlength : full.length = 64) {e : Text × ContactColumns}
    (he : e ∈ placeholders s.contacts full) : e.1.length < 64 ∧ e.1 ≠ full := by
  obtain ⟨-, hshort, -⟩ := mem_placeholders.mp he
  refine ⟨hshort, fun heq => ?_⟩
  rw [heq] at hshort
  omega

end Outcome

/-- **Promotion of placeholders.** When the contact of the full key exists, the placeholders that
match it alone are merged into it: it has the earliest first and the latest last time of them all,
and every advert path and every name of one of them once, with its first and its last time and its
counts summed. Every other contact and its rows are unchanged. -/
theorem placeholders_promoted (s : ContactStore) (fullKey : Text) {own : ContactColumns}
    (hlength : (lower fullKey).length = 64)
    (hfull : s.contacts.get? (lower fullKey) = some own) :
    ∃ s' promoted, promotePrefixPlaceholders s fullKey = some (s', promoted) ∧
      (∀ old, old ∈ promoted ↔ IsPromoted s (lower fullKey) old) ∧
      (promoted = [] → s' = s) ∧
      (∃ c, s'.contacts.get? (lower fullKey) = some c ∧
        MergedContact own (promoted.filterMap s.contacts.get?) c) ∧
      (∀ path, MergedPath
        ((lower fullKey :: promoted).filterMap fun key => s.advertPaths.get? (key, path))
        (s'.advertPaths.get? (lower fullKey, path))) ∧
      (∀ name, MergedName
        ((lower fullKey :: promoted).filterMap fun key => s.nameHistory.get? (key, name))
        (s'.nameHistory.get? (lower fullKey, name))) ∧
      (∀ old ∈ promoted, s'.contacts.get? old = none ∧
        (∀ path, s'.advertPaths.get? (old, path) = none) ∧
        ∀ name, s'.nameHistory.get? (old, name) = none) ∧
      ∀ key, key ≠ lower fullKey → key ∉ promoted →
        s'.contacts.get? key = s.contacts.get? key ∧
        (∀ path, s'.advertPaths.get? (key, path) = s.advertPaths.get? (key, path)) ∧
        ∀ name, s'.nameHistory.get? (key, name) = s.nameHistory.get? (key, name) := by
  have hrows : ∀ e ∈ placeholders s.contacts (lower fullKey),
      e.1.length < 64 ∧ e.1 ≠ lower fullKey := fun e he => ne_full_of_placeholder hlength he
  have hpromoted : ∀ e ∈ promotedRows s (lower fullKey), e.1 ≠ lower fullKey := fun e he =>
    (hrows e (List.mem_filter.mp he).1).2
  have hnot : lower fullKey ∉ (promotedRows s (lower fullKey)).map Prod.fst := by
    intro hmem
    obtain ⟨e, he, heq⟩ := List.mem_map.mp hmem
    exact hpromoted e he heq
  have hnodup := @nodup_promotedRows s (lower fullKey)
  have hrun : promotePrefixPlaceholders s fullKey =
      some ((promotedRows s (lower fullKey)).foldl (mergeInto (lower fullKey)) s,
        (promotedRows s (lower fullKey)).map Prod.fst) :=
    foldlM_promoteOne hfull hrows []
  have hpaths : ∀ key path,
      ((promotedRows s (lower fullKey)).foldl (mergeInto (lower fullKey)) s).advertPaths.get?
        (key, path) = _ := fun key path => by
    rw [foldl_mergeInto_advertPaths, get?_foldl_moveRows hnodup hnot]
  have hnames : ∀ key name,
      ((promotedRows s (lower fullKey)).foldl (mergeInto (lower fullKey)) s).nameHistory.get?
        (key, name) = _ := fun key name => by
    rw [foldl_mergeInto_nameHistory, get?_foldl_moveRows hnodup hnot]
  refine ⟨_, _, hrun, fun old => mem_promotedRows_iff, fun hnone => ?_, ?_, fun path => ?_,
    fun name => ?_, fun old hold => ⟨?_, fun path => ?_, fun name => ?_⟩,
    fun key hkey hold => ⟨?_, fun path => ?_, fun name => ?_⟩⟩
  · rw [List.map_eq_nil_iff.mp hnone]
    rfl
  · refine ⟨_, by rw [get?_foldl_mergeInto hfull hpromoted, if_neg hnot, if_pos rfl], ?_⟩
    have hcolumns : ((promotedRows s (lower fullKey)).map Prod.fst).filterMap s.contacts.get? =
        (promotedRows s (lower fullKey)).map Prod.snd := by
      rw [List.filterMap_map, ← List.filterMap_eq_map]
      refine List.filterMap_congr fun e he => ?_
      exact (mem_placeholders.mp (List.mem_filter.mp he).1).1
    rw [hcolumns]
    exact mergedContact_foldl own _
  · rw [hpaths, if_neg hnot, if_pos rfl]
    rw [← reduceOption_map_eq, List.map_cons]
    exact mergedPath_foldl _ _
  · rw [hnames, if_neg hnot, if_pos rfl]
    rw [← reduceOption_map_eq, List.map_cons]
    exact mergedName_foldl _ _
  · rw [get?_foldl_mergeInto hfull hpromoted, if_pos hold]
  · rw [hpaths, if_pos hold]
  · rw [hnames, if_pos hold]
  · rw [get?_foldl_mergeInto hfull hpromoted, if_neg hold, if_neg hkey]
  · rw [hpaths, if_neg hold, if_neg hkey]
  · rw [hnames, if_neg hold, if_neg hkey]

/-- Two full keys with one prefix. -/
private def keyA : Text := List.replicate 64 'a'

private def keyAB : Text := 'a' :: List.replicate 63 'b'

/-- A placeholder and the contact of one full key. -/
private def placeholderStore (full : Text) : ContactStore where
  contacts := (OrderedMap.empty.set full { lastAdvert := some 1 }).set ['a']
    { lastSeen := some 5, lastAdvert := some 2 }
  advertPaths := OrderedMap.empty
  nameHistory := OrderedMap.empty

/-- Two placeholders of different lengths, which share a path and a name with the contact. -/
private def overlappingStore : ContactStore where
  contacts := (OrderedMap.empty.set keyA { lastSeen := some 4, firstSeen := some 4 }).set ['a']
    { lastSeen := some 5, firstSeen := some 2 } |>.set ['a', 'a']
    { lastSeen := some 9, firstSeen := some 3 }
  advertPaths := ((OrderedMap.empty.set (keyA, ['1', '1'], 1) ⟨4, 4, 1⟩).set
    (['a'], ['1', '1'], 1) ⟨2, 5, 2⟩).set (['a', 'a'], ['1', '1'], 1) ⟨3, 9, 4⟩
  nameHistory := ((OrderedMap.empty.set (keyA, ['n']) ⟨4, 4⟩).set (['a'], ['n']) ⟨2, 5⟩).set
    (['a', 'a'], ['m']) ⟨3, 9⟩

/-- Both placeholders are promoted and removed, and the path and the names are merged. -/
theorem placeholders_promoted_one :
    ∃ s' promoted, promotePrefixPlaceholders overlappingStore keyA = some (s', promoted) ∧
      ['a'] ∈ promoted ∧ ['a', 'a'] ∈ promoted ∧
      s'.contacts.get? ['a'] = none ∧ s'.contacts.get? ['a', 'a'] = none ∧
      (∀ path, MergedPath
        ((lower keyA :: promoted).filterMap fun key => overlappingStore.advertPaths.get? (key, path))
        (s'.advertPaths.get? (lower keyA, path))) ∧
      ∀ name, MergedName
        ((lower keyA :: promoted).filterMap fun key => overlappingStore.nameHistory.get? (key, name))
        (s'.nameHistory.get? (lower keyA, name)) := by
  have hown : overlappingStore.contacts.get? (lower keyA) =
      some { lastSeen := some 4, firstSeen := some 4 } := by decide +kernel
  obtain ⟨s', promoted, hrun, hpromoted, -, -, hpaths, hnames, hremoved, -⟩ :=
    placeholders_promoted overlappingStore keyA (by decide +kernel) hown
  have hshort : ['a'] ∈ promoted := (hpromoted ['a']).mpr
    ⟨⟨{ lastSeen := some 5, firstSeen := some 2 }, by decide +kernel⟩, by decide,
      by decide +kernel, by decide +kernel⟩
  have hlong : ['a', 'a'] ∈ promoted := (hpromoted ['a', 'a']).mpr
    ⟨⟨{ lastSeen := some 9, firstSeen := some 3 }, by decide +kernel⟩, by decide,
      by decide +kernel, by decide +kernel⟩
  exact ⟨s', promoted, hrun, hshort, hlong, (hremoved _ hshort).1, (hremoved _ hlong).1, hpaths,
    hnames⟩

/-- Without the contact of the full key the placeholder of another contact is lost; with it, the
last advert is not merged. -/
theorem placeholder_lost :
    ((promotePrefixPlaceholders (placeholderStore keyAB) keyA).map fun r =>
        (r.1.contacts.get? ['a'], r.1.contacts.get? keyA)) = some (none, none) ∧
      ((promotePrefixPlaceholders (placeholderStore keyA) keyA).map fun r =>
        (r.1.contacts.get? keyA).map ContactColumns.lastAdvert) = some (some (some 1)) := by
  decide +kernel

end Promotion

end RemoteTerm
