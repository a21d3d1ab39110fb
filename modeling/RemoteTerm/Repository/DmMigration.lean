import RemoteTerm.Library.Firsts
import RemoteTerm.Library.Grouping
import RemoteTerm.Library.Text

/-!
# The merge of duplicate direct messages

Migration 44 makes one row of the incoming direct messages with one conversation, text
and sender timestamp. It fails when a path entry of such a group has a list or an object
where a part of its key should be.

## Implementation notes

The rows are in the order of their ids. What `json` does with a text is given from outside;
of numbers only their equality is used. A failing statement ends the migration.
-/

namespace RemoteTerm

open Library

namespace DmMigration

variable {N Q : Type} [DecidableEq Q]

/-! ### Path entries -/

/-- What `json.loads` returns. -/
inductive Json (N : Type) where
  | null
  | bool (b : Bool)
  | num (n : N)
  | str (t : Text)
  | list (items : List (Json N))
  | dict (fields : List (Text × Json N))

/-- An object that was read from JSON. -/
abbrev Entry (N : Type) := List (Text × Json N)

/-- What `json.loads` does: it returns a value, or raises an error that the loop over the texts
catches, or raises another one. -/
inductive Loaded (N : Type) where
  | value (v : Json N)
  | decodeError
  | raised

/-- The module `json`, and the equality of numbers: two are equal when their values are, and
booleans count as numbers. -/
structure JsonModule (N Q : Type) where
  loads : Text → Loaded N
  dumps : List (Entry N) → Text
  value : N → Q
  ofBool : Bool → Q

/-- A hashable value up to equality. -/
inductive Hashed (Q : Type) where
  | none
  | num (q : Q)
  | str (t : Text)
deriving DecidableEq

/-- The hash of a value; lists and objects have none. -/
def JsonModule.hash (json : JsonModule N Q) : Json N → Option (Hashed Q)
  | .null => some .none
  | .bool b => some (.num (json.ofBool b))
  | .num n => some (.num (json.value n))
  | .str t => some (.str t)
  | .list _ | .dict _ => none

/-- `entry.get(name)`. -/
def getField (entry : Entry N) (name : Text) : Json N := (entry.lookup name).getD .null

/-- The key of a path entry, if it can be hashed. -/
def entryKey (json : JsonModule N Q) (entry : Entry N) :
    Option (Hashed Q × Hashed Q × Hashed Q) := do
  let path ← json.hash (getField entry "path".toList)
  let receivedAt ← json.hash (getField entry "received_at".toList)
  let pathLen ← json.hash (getField entry "path_len".toList)
  return (path, receivedAt, pathLen)

/-- The merged entries and the keys that were seen. -/
abbrev Merging (N Q : Type) := List (Entry N) × List (Hashed Q × Hashed Q × Hashed Q)

/-- One turn of the inner loop; a key that cannot be hashed raises. -/
def mergeEntry (json : JsonModule N Q) (m : Merging N Q) : Json N → Option (Merging N Q)
  | .dict entry =>
      match entryKey json entry with
      | none => none
      | some key => if key ∈ m.2 then some m else some (m.1 ++ [entry], key :: m.2)
  | _ => some m

/-- One turn of the outer loop. -/
def mergeText (json : JsonModule N Q) (m : Merging N Q) (pathsJson : Option Text) :
    Option (Merging N Q) :=
  match pathsJson with
  | none | some [] => some m
  | some text =>
      match json.loads text with
      | .raised => none
      | .value (.list items) => items.foldlM (mergeEntry json) m
      | .value _ | .decodeError => some m

/-- `_merge_message_paths`. -/
def mergeMessagePaths (json : JsonModule N Q) (pathsJsonValues : List (Option Text)) :
    Option (Option Text) := do
  let (merged, _) ← pathsJsonValues.foldlM (mergeText json) ([], [])
  return if merged.isEmpty then none else some (json.dumps merged)

/-! ### The tables -/

/-- A row of `messages`. -/
structure Message where
  id : Nat
  type : Text
  conversationKey : Text
  text : Text
  senderTimestamp : Option Int
  receivedAt : Int
  paths : Option Text
  txtType : Option Int
  signature : Option Text
  outgoing : Option Int
  acked : Option Int
  senderName : Option Text
  senderKey : Option Text
deriving DecidableEq

/-- A row of `raw_packets`. -/
structure RawPacket where
  id : Nat
  messageId : Option Nat
deriving DecidableEq

/-- The messages in the order of their ids, and the raw packets if their table exists. -/
structure Database where
  messages : List Message
  sorted : messages.Pairwise fun a b => a.id < b.id
  rawPackets : Option (List RawPacket)

/-- The expressions that the index is on. -/
abbrev Key := Text × Text × Int

/-- `type = 'PRIV' AND outgoing = 0`. -/
def incoming (row : Message) : Bool :=
  row.type = "PRIV".toList && row.outgoing = some 0

def Message.key (row : Message) : Key :=
  (row.conversationKey, row.text, row.senderTimestamp.getD 0)

/-- The row is in the group of a key. -/
def inGroup (k : Key) (row : Message) : Bool := incoming row && row.key = k

/-- The groups with more than one row. -/
def duplicateGroups (rows : List Message) : List Key :=
  ((groupRows Message.key (rows.filter incoming)).filter fun g => 1 < g.2.length).map Prod.fst

/-- The first value that is neither NULL nor empty. -/
def firstText (values : List (Option Text)) : Option Text :=
  values.findSome? fun value => value.filter (· ≠ [])

/-- The update of the keeper with what its group merges to. -/
def mergeInto (rows : List Message) (mergedPaths : Option Text) (keeper : Message) : Message :=
  { keeper with
    receivedAt := ((rows.map (·.receivedAt)).min?).getD keeper.receivedAt
    paths := mergedPaths
    txtType := ((rows.map (·.txtType)).find? (· ≠ some 0)).getD (some 0)
    signature := firstText (rows.map (·.signature))
    acked := some (((rows.map (·.acked.getD 0)).max?).getD 0)
    senderName := firstText (rows.map (·.senderName))
    senderKey := firstText (rows.map (·.senderKey)) }

/-- `UPDATE raw_packets SET message_id = ? WHERE message_id = ?`. -/
def relink (keeperId : Nat) (packets : List RawPacket) (duplicateId : Nat) : List RawPacket :=
  packets.map fun p =>
    if p.messageId = some duplicateId then { p with messageId := some keeperId } else p

/-- The update of the keeper and the deletion of the duplicates. -/
def replaceGroup (db : Database) (rows : List Message) (mergedPaths : Option Text)
    (keeperId : Nat) (duplicateIds : List Nat) : Database where
  messages := (db.messages.map fun row =>
    if row.id = keeperId then mergeInto rows mergedPaths row else row).filter
      fun row => row.id ∉ duplicateIds
  sorted := by
    refine List.Pairwise.filter _ (List.pairwise_map.mpr (db.sorted.imp fun {a b} h => ?_))
    split <;> split <;> exact h
  rawPackets := db.rawPackets.map fun packets => duplicateIds.foldl (relink keeperId) packets

/-- One turn of the loop over the groups. The deletion names each duplicate, and a statement has
room for so many values. -/
def mergeGroup (json : JsonModule N Q) (maxVariables : Nat) (db : Database) (k : Key) :
    Option Database :=
  let rows := db.messages.filter (inGroup k)
  match rows with
  | keeper :: duplicate :: rest => do
      let duplicateIds := (duplicate :: rest).map (·.id)
      let mergedPaths ← mergeMessagePaths json (rows.map (·.paths))
      if maxVariables < duplicateIds.length then none
      else some (replaceGroup db rows mergedPaths keeper.id duplicateIds)
  | _ => some db

/-- `CREATE UNIQUE INDEX` succeeds. -/
def Indexed (rows : List Message) : Prop := ((rows.filter incoming).map Message.key).Nodup

instance (rows : List Message) : Decidable (Indexed rows) :=
  inferInstanceAs (Decidable (List.Nodup _))

/-- `migrate`. -/
def migrate (json : JsonModule N Q) (maxVariables : Nat) (db : Database) : Option Database := do
  let db ← (duplicateGroups db.messages).foldlM (mergeGroup json maxVariables) db
  if Indexed db.messages then some db else none

/-! ### The merged paths -/

section Paths

variable {json : JsonModule N Q}

/-- An object. -/
def Json.entry? : Json N → Option (Entry N)
  | .dict entry => some entry
  | _ => none

/-- The well-formed path entries of a text: the objects in its list. -/
def entriesOf (json : JsonModule N Q) : Option Text → List (Entry N)
  | none | some [] => []
  | some text =>
      match json.loads text with
      | .value (.list items) => items.filterMap Json.entry?
      | _ => []

/-- Reading the text raises no error that the loop does not catch. -/
def Loads (json : JsonModule N Q) : Option Text → Prop
  | none | some [] => True
  | some text =>
      match json.loads text with
      | .raised => False
      | _ => True

/-- The text can be read, and the key of each of its entries can be hashed. -/
def Readable (json : JsonModule N Q) (pathsJson : Option Text) : Prop :=
  Loads json pathsJson ∧ ∀ entry ∈ entriesOf json pathsJson, entryKey json entry ≠ none

/-- The union of the entries of some texts, each at its first place. -/
def unionEntries (json : JsonModule N Q) (pathsJsonValues : List (Option Text)) : List (Entry N) :=
  firstsBy (entryKey json) (pathsJsonValues.flatMap (entriesOf json))

/-- The text of the union. -/
def unionPaths (json : JsonModule N Q) (pathsJsonValues : List (Option Text)) : Option Text :=
  let merged := unionEntries json pathsJsonValues
  if merged.isEmpty then none else some (json.dumps merged)

/-- Some entries are an ordered union of all: in their order, no two with one key, and one for
each key. -/
structure OrderedUnion (json : JsonModule N Q) (entries union : List (Entry N)) : Prop where
  sublist : union.Sublist entries
  nodup : (union.map (entryKey json)).Nodup
  complete : ∀ entry ∈ entries, entryKey json entry ∈ union.map (entryKey json)

theorem orderedUnion_unionEntries (pathsJsonValues : List (Option Text)) :
    OrderedUnion json (pathsJsonValues.flatMap (entriesOf json))
      (unionEntries json pathsJsonValues) where
  sublist := firstsBy_sublist _ _
  nodup := nodup_firstsBy _ _
  complete _ hentry := mem_map_firstsBy.mpr (List.mem_map_of_mem hentry)

/-- The inner loop over the objects. -/
def mergeEntries (json : JsonModule N Q) (m : Merging N Q) (entries : List (Entry N)) :
    Option (Merging N Q) :=
  entries.foldlM (fun m entry => mergeEntry json m (.dict entry)) m

theorem foldlM_mergeEntry (m : Merging N Q) (items : List (Json N)) :
    items.foldlM (mergeEntry json) m = mergeEntries json m (items.filterMap Json.entry?) := by
  unfold mergeEntries
  induction items generalizing m with
  | nil => rfl
  | cons item items ih =>
      cases item with
      | dict entry =>
          rw [List.filterMap_cons_some (f := Json.entry?) (b := entry) rfl, List.foldlM_cons,
            List.foldlM_cons]
          exact congrArg _ (funext fun m' => ih m')
      | _ =>
          rw [List.filterMap_cons_none (f := Json.entry?) rfl, List.foldlM_cons]
          exact ih m

theorem mergeText_eq (m : Merging N Q) {pathsJson : Option Text} (h : Loads json pathsJson) :
    mergeText json m pathsJson = mergeEntries json m (entriesOf json pathsJson) := by
  cases pathsJson with
  | none => rfl
  | some text =>
      cases text with
      | nil => rfl
      | cons c text =>
          simp only [Loads, mergeText, entriesOf] at h ⊢
          cases hloads : json.loads (c :: text) with
          | raised =>
              rw [hloads] at h
              exact h.elim
          | decodeError => rfl
          | value v =>
              cases v with
              | list items => exact foldlM_mergeEntry m items
              | _ => rfl

/-- Another error than the one that is caught ends the loop. -/
theorem mergeText_eq_none (m : Merging N Q) {pathsJson : Option Text}
    (h : ¬ Loads json pathsJson) : mergeText json m pathsJson = none := by
  cases pathsJson with
  | none => exact (h trivial).elim
  | some text =>
      cases text with
      | nil => exact (h trivial).elim
      | cons c text =>
          simp only [Loads, mergeText] at h ⊢
          cases hloads : json.loads (c :: text) with
          | raised => rfl
          | _ =>
              rw [hloads] at h
              exact (h trivial).elim

/-- **The inner loop** appends the first entry of each key that was not seen. -/
theorem mergeEntries_spec (m : Merging N Q) {entries : List (Entry N)}
    (hkeys : ∀ entry ∈ entries, entryKey json entry ≠ none) :
    ∃ m', mergeEntries json m entries = some m' ∧ m'.1 = m.1 ++
      (firstsBy (entryKey json) entries).filter fun e => entryKey json e ∉ m.2.map some := by
  induction entries generalizing m with
  | nil => exact ⟨m, rfl, by simp⟩
  | cons entry entries ih =>
      obtain ⟨key, hkey⟩ := Option.ne_none_iff_exists'.mp (hkeys entry List.mem_cons_self)
      have ih := fun m => ih m fun e he => hkeys e (List.mem_cons_of_mem _ he)
      have hstep : mergeEntries json m (entry :: entries) =
          if key ∈ m.2 then mergeEntries json m entries
          else mergeEntries json (m.1 ++ [entry], key :: m.2) entries := by
        unfold mergeEntries
        rw [List.foldlM_cons]
        simp only [mergeEntry, hkey]
        split <;> rfl
      rw [hstep, filter_firstsBy_cons fun b c hbc => by rw [hbc]]
      by_cases hseen : key ∈ m.2
      · rw [if_pos hseen, if_neg (by simp [hkey, hseen])]
        exact ih m
      · rw [if_neg hseen, if_pos (by simp [hkey, hseen])]
        obtain ⟨m', hm', hmerged⟩ := ih (m.1 ++ [entry], key :: m.2)
        refine ⟨m', hm', ?_⟩
        rw [hmerged, List.append_assoc, List.singleton_append]
        refine congrArg (fun l => m.1 ++ entry :: l) (List.filter_congr fun e _ => ?_)
        rw [Bool.eq_iff_iff, Bool.and_eq_true, decide_eq_true_eq, decide_eq_true_eq,
          decide_eq_true_eq, List.map_cons, List.mem_cons, not_or, hkey]
        exact and_comm

/-- A key that cannot be hashed ends the loop. -/
theorem mergeEntries_eq_none (m : Merging N Q) {entries : List (Entry N)}
    (h : ∃ entry ∈ entries, entryKey json entry = none) : mergeEntries json m entries = none := by
  induction entries generalizing m with
  | nil =>
      obtain ⟨entry, hentry, -⟩ := h
      cases hentry
  | cons first entries ih =>
      change (mergeEntry json m (.dict first) >>= fun m => mergeEntries json m entries) = none
      cases hstep : mergeEntry json m (.dict first) with
      | none => rfl
      | some m' =>
          obtain ⟨entry, hentry, hkey⟩ := h
          rcases List.mem_cons.mp hentry with rfl | hentry
          · simp [mergeEntry, hkey] at hstep
          · exact ih m' ⟨entry, hentry, hkey⟩

/-- The outer loop runs the inner one over the entries of all texts. -/
theorem foldlM_mergeText (m : Merging N Q) {values : List (Option Text)}
    (h : ∀ value ∈ values, Loads json value) :
    values.foldlM (mergeText json) m =
      mergeEntries json m (values.flatMap (entriesOf json)) := by
  induction values generalizing m with
  | nil => rfl
  | cons value values ih =>
      rw [List.foldlM_cons, mergeText_eq m (h value List.mem_cons_self), List.flatMap_cons]
      unfold mergeEntries
      rw [List.foldlM_append]
      exact congrArg _ (funext fun m' => ih m' fun v hv => h v (List.mem_cons_of_mem _ hv))

/-- **The merged paths** are the union of the entries. -/
theorem mergeMessagePaths_of_readable {values : List (Option Text)}
    (h : ∀ value ∈ values, Readable json value) :
    mergeMessagePaths json values = some (unionPaths json values) := by
  have hkeys : ∀ entry ∈ values.flatMap (entriesOf json), entryKey json entry ≠ none := by
    intro entry hentry
    obtain ⟨value, hvalue, hmem⟩ := List.mem_flatMap.mp hentry
    exact (h value hvalue).2 entry hmem
  obtain ⟨m', hm', hmerged⟩ := mergeEntries_spec ([], []) hkeys
  have hmerged : m'.1 = unionEntries json values := by
    rw [hmerged, unionEntries]
    simp
  unfold mergeMessagePaths unionPaths
  rw [foldlM_mergeText _ fun value hvalue => (h value hvalue).1, hm', ← hmerged]
  rfl

theorem mergeMessagePaths_eq_none {values : List (Option Text)}
    (h : ∃ value ∈ values, ¬ Readable json value) : mergeMessagePaths json values = none := by
  unfold mergeMessagePaths
  suffices hfold : ∀ m : Merging N Q, values.foldlM (mergeText json) m = none by
    rw [hfold]
    rfl
  induction values with
  | nil =>
      obtain ⟨value, hvalue, -⟩ := h
      cases hvalue
  | cons first values ih =>
      intro m
      rw [List.foldlM_cons]
      cases hstep : mergeText json m first with
      | none => rfl
      | some m' =>
          obtain ⟨value, hvalue, hnot⟩ := h
          rcases List.mem_cons.mp hvalue with rfl | hvalue
          · exfalso
            by_cases hloads : Loads json value
            · have hbad : ∃ entry ∈ entriesOf json value, entryKey json entry = none := by
                by_contra hall
                push Not at hall
                exact hnot ⟨hloads, hall⟩
              rw [mergeText_eq m hloads, mergeEntries_eq_none m hbad] at hstep
              cases hstep
            · rw [mergeText_eq_none m hloads] at hstep
              cases hstep
          · exact ih ⟨value, hvalue, hnot⟩ m'

end Paths

/-! ### One group -/

/-- The rows of a group, the one with the least id first. -/
def groupOf (rows : List Message) (k : Key) : List Message := rows.filter (inGroup k)

/-- What the rows of a group become. -/
def mergedGroup (json : JsonModule N Q) (rows : List Message) : List Message :=
  match rows with
  | keeper :: _ :: _ => [mergeInto rows (unionPaths json (rows.map (·.paths))) keeper]
  | rows => rows

/-- If the group has duplicates, its paths can be merged, and one statement can delete them. -/
def Ready (json : JsonModule N Q) (maxVariables : Nat) (rows : List Message) : Prop :=
  1 < rows.length →
    (∀ row ∈ rows, Readable json row.paths) ∧ rows.length ≤ maxVariables + 1

/-- A raw packet after its message was moved. -/
def RawPacket.repoint (f : Nat → Nat) (p : RawPacket) : RawPacket :=
  { p with messageId := p.messageId.map f }

/-- Where the rows of some groups are moved to: to the first row of their group. -/
def pointTo (rows : List Message) : List Key → Nat → Nat
  | [], id => id
  | k :: ks, id =>
      if id ∈ (groupOf rows k).map (·.id) then (((groupOf rows k).head?).map (·.id)).getD id
      else pointTo rows ks id

section Groups

variable {json : JsonModule N Q} {maxVariables : Nat} {db : Database} {k : Key}

theorem Database.nodup_ids (db : Database) : (db.messages.map (·.id)).Nodup :=
  List.pairwise_map.mpr (db.sorted.imp fun h => Nat.ne_of_lt h)

theorem Database.eq_of_id (db : Database) {a b : Message} (ha : a ∈ db.messages)
    (hb : b ∈ db.messages) (h : a.id = b.id) : a = b :=
  List.inj_on_of_nodup_map db.nodup_ids ha hb h

theorem mem_groupOf {rows : List Message} {row : Message} :
    row ∈ groupOf rows k ↔ row ∈ rows ∧ inGroup k row = true := List.mem_filter

/-- A row is in one group. -/
theorem inGroup_unique {k' : Key} {row : Message} (h : inGroup k row = true)
    (h' : inGroup k' row = true) : k = k' := by
  unfold inGroup at h h'
  rw [Bool.and_eq_true, decide_eq_true_eq] at h h'
  exact h.2.symm.trans h'.2

theorem inGroup_of_ne {k' : Key} (hne : k' ≠ k) (row : Message) (h : inGroup k' row = true) :
    inGroup k row = false := by
  by_contra hin
  exact hne (inGroup_unique h (by simpa using hin))

/-- A group with duplicates has a keeper and a first duplicate. -/
theorem exists_of_long {rows : List Message} (hlong : 1 < rows.length) :
    ∃ keeper duplicate rest, rows = keeper :: duplicate :: rest := by
  cases rows with
  | nil => exact absurd hlong (Nat.not_lt_zero 1)
  | cons keeper dups =>
      cases dups with
      | nil => exact absurd hlong (lt_irrefl 1)
      | cons duplicate rest => exact ⟨keeper, duplicate, rest, rfl⟩

theorem mergedGroup_of_short (json : JsonModule N Q) {rows : List Message}
    (hshort : rows.length ≤ 1) : mergedGroup json rows = rows := by
  cases rows with
  | nil => rfl
  | cons keeper dups =>
      cases dups with
      | nil => rfl
      | cons => exact absurd hshort (by rw [List.length_cons, List.length_cons]; omega)

/-- The keeper is none of the duplicates. -/
theorem keeper_not_mem {keeper : Message} {dups : List Message}
    (hgroup : groupOf db.messages k = keeper :: dups) : keeper.id ∉ dups.map (·.id) := by
  intro hid
  obtain ⟨dup, hdup, hsame⟩ := List.mem_map.mp hid
  have hsorted : (groupOf db.messages k).Pairwise fun a b => a.id < b.id := db.sorted.filter _
  rw [hgroup] at hsorted
  have hlt := (List.pairwise_cons.mp hsorted).1 dup hdup
  omega

/-- The rows that a statement leaves alone. -/
theorem filter_replaceGroup {rows dups : List Message} {keeper : Message}
    {paths : Option Text} (hgroup : groupOf db.messages k = keeper :: dups) {q : Message → Bool}
    (hq : ∀ row, q row = true → inGroup k row = false) :
    (replaceGroup db rows paths keeper.id (dups.map (·.id))).messages.filter q =
      db.messages.filter q := by
  have hmem : ∀ row ∈ keeper :: dups, row ∈ db.messages ∧ inGroup k row = true := fun row hrow =>
    mem_groupOf.mp (hgroup ▸ hrow)
  have hkeeper := hmem keeper List.mem_cons_self
  have hout : ∀ row, inGroup k row = true → q row = false := fun row hrow => by
    by_contra hqr
    rw [hq row (by simpa using hqr)] at hrow
    cases hrow
  -- a row with `q` is neither the keeper nor a duplicate
  have hne : ∀ row ∈ db.messages, q row = true → row.id ≠ keeper.id := by
    intro row hrow hqr hid
    rw [db.eq_of_id hrow hkeeper.1 hid, hout keeper hkeeper.2] at hqr
    cases hqr
  have hdups : ∀ row ∈ db.messages, q row = true → row.id ∉ dups.map (·.id) := by
    intro row hrow hqr hid
    obtain ⟨dup, hdup, hsame⟩ := List.mem_map.mp hid
    have hdup := hmem dup (List.mem_cons_of_mem _ hdup)
    rw [← db.eq_of_id hdup.1 hrow hsame, hout dup hdup.2] at hqr
    cases hqr
  unfold replaceGroup
  dsimp only
  rw [List.filter_filter, List.filter_map]
  have hfilter : db.messages.filter ((fun row => q row && decide (row.id ∉ dups.map (·.id))) ∘
      fun row => if row.id = keeper.id then mergeInto rows paths row else row) =
      db.messages.filter q := by
    refine List.filter_congr fun row hrow => ?_
    rw [Function.comp_apply]
    by_cases hid : row.id = keeper.id
    · rw [if_pos hid, db.eq_of_id hrow hkeeper.1 hid, hout keeper hkeeper.2,
        hout (mergeInto rows paths keeper) hkeeper.2, Bool.false_and]
    · rw [if_neg hid]
      cases hqr : q row with
      | false => rfl
      | true => simpa using hdups row hrow hqr
  rw [hfilter]
  refine (List.map_congr_left fun row hrow => ?_).trans (List.map_id _)
  obtain ⟨hrow, hqr⟩ := List.mem_filter.mp hrow
  exact if_neg (hne row hrow hqr)

/-- The group is left with its keeper. -/
theorem group_replaceGroup {rows dups : List Message} {keeper : Message} {paths : Option Text}
    (hgroup : groupOf db.messages k = keeper :: dups) :
    groupOf (replaceGroup db rows paths keeper.id (dups.map (·.id))).messages k =
      [mergeInto rows paths keeper] := by
  have hkeeper := keeper_not_mem hgroup
  unfold replaceGroup groupOf
  dsimp only
  rw [List.filter_filter, List.filter_map]
  have hfilter : db.messages.filter
      ((fun row => inGroup k row && decide (row.id ∉ dups.map (·.id))) ∘
        fun row => if row.id = keeper.id then mergeInto rows paths row else row) =
      (groupOf db.messages k).filter fun row => row.id ∉ dups.map (·.id) := by
    unfold groupOf
    rw [List.filter_filter]
    refine List.filter_congr fun row _ => ?_
    rw [Function.comp_apply, Bool.and_comm]
    split <;> rfl
  have hnone : dups.filter (fun row => row.id ∉ dups.map (·.id)) = [] := by
    refine List.filter_eq_nil_iff.mpr fun row hrow => ?_
    simpa using ⟨row, hrow, rfl⟩
  rw [hfilter, hgroup, List.filter_cons_of_pos (by simpa using hkeeper), hnone, List.map_singleton,
    if_pos rfl]

theorem RawPacket.repoint_eq_self {f : Nat → Nat} (h : ∀ id, f id = id) (p : RawPacket) :
    p.repoint f = p := by
  obtain ⟨id, messageId⟩ := p
  cases messageId with
  | none => rfl
  | some messageId => simp [repoint, h]

/-- The statements that relink the duplicates, together. -/
theorem foldl_relink {keeperId : Nat} {ids : List Nat} (h : keeperId ∉ ids)
    (packets : List RawPacket) :
    ids.foldl (relink keeperId) packets =
      packets.map (RawPacket.repoint fun id => if id ∈ ids then keeperId else id) := by
  induction ids generalizing packets with
  | nil => exact ((List.map_congr_left fun p _ => p.repoint_eq_self fun _ => rfl).trans
      (List.map_id _)).symm
  | cons first ids ih =>
      rw [List.mem_cons, not_or] at h
      rw [List.foldl_cons, ih h.2]
      unfold relink
      rw [List.map_map]
      refine List.map_congr_left fun p _ => ?_
      obtain ⟨id, messageId⟩ := p
      cases messageId with
      | none => rfl
      | some messageId =>
          by_cases hid : messageId = first
          · simp [RawPacket.repoint, hid, h.2]
          · simp [RawPacket.repoint, hid]

/-- What one turn of the loop does. -/
structure GroupStep (json : JsonModule N Q) (db : Database) (k : Key) (db' : Database) : Prop where
  group : groupOf db'.messages k = mergedGroup json (groupOf db.messages k)
  others : ∀ q : Message → Bool, (∀ row, q row = true → inGroup k row = false) →
    db'.messages.filter q = db.messages.filter q
  packets : db'.rawPackets =
    db.rawPackets.map (List.map (RawPacket.repoint (pointTo db.messages [k])))

/-- A group without duplicates stays. -/
theorem mergeGroup_of_short (json : JsonModule N Q) (maxVariables : Nat)
    (h : (groupOf db.messages k).length ≤ 1) : mergeGroup json maxVariables db k = some db := by
  unfold mergeGroup
  dsimp only
  cases hgroup : db.messages.filter (inGroup k) with
  | nil => rfl
  | cons keeper dups =>
      cases dups with
      | nil => rfl
      | cons =>
          rw [groupOf, hgroup, List.length_cons, List.length_cons] at h
          omega

theorem mergeGroup_of_long (json : JsonModule N Q) (maxVariables : Nat)
    {keeper duplicate : Message} {rest : List Message}
    (hgroup : groupOf db.messages k = keeper :: duplicate :: rest) :
    mergeGroup json maxVariables db k =
      (mergeMessagePaths json ((keeper :: duplicate :: rest).map (·.paths))).bind fun paths =>
        if maxVariables < (duplicate :: rest).length then none
        else some (replaceGroup db (keeper :: duplicate :: rest) paths keeper.id
          ((duplicate :: rest).map (·.id))) := by
  unfold groupOf at hgroup
  unfold mergeGroup
  dsimp only
  rw [hgroup]
  dsimp only
  rw [List.length_map]
  rfl

/-- The turn of a group without duplicates. -/
theorem groupStep_refl (json : JsonModule N Q) (h : (groupOf db.messages k).length ≤ 1) :
    GroupStep json db k db := by
  have hpoint : ∀ id, pointTo db.messages [k] id = id := by
    intro id
    rw [pointTo]
    split
    next hmem =>
      obtain ⟨row, hrow, hid⟩ := List.mem_map.mp hmem
      obtain ⟨first, hfirst⟩ := List.length_eq_one_iff.mp
        (le_antisymm h (List.length_pos_of_mem hrow))
      rw [hfirst, List.mem_singleton] at hrow
      rw [hfirst, ← hid, hrow]
      rfl
    next => rfl
  refine ⟨(mergedGroup_of_short json h).symm, fun _ _ => rfl, ?_⟩
  · have hid : RawPacket.repoint (pointTo db.messages [k]) = id :=
      funext (RawPacket.repoint_eq_self hpoint)
    rw [hid, List.map_id_fun, Option.map_id, id]

/-- **One turn of the loop** merges a group that is ready. -/
theorem mergeGroup_of_ready (h : Ready json maxVariables (groupOf db.messages k)) :
    ∃ db', mergeGroup json maxVariables db k = some db' ∧ GroupStep json db k db' := by
  by_cases hlong : 1 < (groupOf db.messages k).length
  · obtain ⟨hreadable, hmax⟩ := h hlong
    obtain ⟨keeper, duplicate, rest, hgroup⟩ := exists_of_long hlong
    rw [hgroup] at hreadable hmax
    have hkeeper := keeper_not_mem hgroup
    rw [mergeGroup_of_long json maxVariables hgroup,
      mergeMessagePaths_of_readable (List.forall_mem_map.mpr hreadable)]
    refine ⟨_, if_neg (by rw [List.length_cons] at hmax; omega), ?_, ?_, ?_⟩
    · rw [group_replaceGroup hgroup, hgroup]
      rfl
    · exact fun q hq => filter_replaceGroup hgroup hq
    · refine congrArg (fun f => db.rawPackets.map f) (funext fun packets => ?_)
      rw [foldl_relink hkeeper]
      refine congrArg (fun f => packets.map (RawPacket.repoint f)) (funext fun id => ?_)
      rw [pointTo, hgroup, pointTo]
      by_cases hid : id = keeper.id
      · simp [hid]
      · simp [hid]
  · exact ⟨db, mergeGroup_of_short json maxVariables (by omega),
      groupStep_refl json (by omega)⟩

/-- A group that is not ready ends the migration. -/
theorem mergeGroup_eq_none (h : ¬ Ready json maxVariables (groupOf db.messages k)) :
    mergeGroup json maxVariables db k = none := by
  unfold Ready at h
  push Not at h
  obtain ⟨hlong, hnot⟩ := h
  obtain ⟨keeper, duplicate, rest, hgroup⟩ := exists_of_long hlong
  rw [hgroup] at hnot
  rw [mergeGroup_of_long json maxVariables hgroup]
  by_cases hreadable : ∀ row ∈ keeper :: duplicate :: rest, Readable json row.paths
  · have hmax := hnot hreadable
    rw [List.length_cons] at hmax
    rw [mergeMessagePaths_of_readable (List.forall_mem_map.mpr hreadable)]
    exact if_pos (by omega)
  · push Not at hreadable
    obtain ⟨row, hrow, hbad⟩ := hreadable
    rw [mergeMessagePaths_eq_none ⟨row.paths, List.mem_map_of_mem hrow, hbad⟩]
    rfl

end Groups

/-! ### The loop over the groups -/

section Loop

variable {json : JsonModule N Q} {maxVariables : Nat} {db : Database} {ks : List Key}

theorem RawPacket.repoint_repoint (f g : Nat → Nat) (p : RawPacket) :
    (p.repoint g).repoint f = p.repoint (f ∘ g) := by
  simp [repoint, Function.comp_def]

/-- Groups with the same rows move them to the same places. -/
theorem pointTo_congr {rows rows' : List Message}
    (h : ∀ k ∈ ks, groupOf rows k = groupOf rows' k) (id : Nat) :
    pointTo rows ks id = pointTo rows' ks id := by
  induction ks with
  | nil => rfl
  | cons k ks ih =>
      rw [pointTo, pointTo, h k List.mem_cons_self,
        ih fun k' hk' => h k' (List.mem_cons_of_mem _ hk')]

theorem pointTo_of_not_mem {rows : List Message} {id : Nat}
    (h : ∀ k ∈ ks, id ∉ (groupOf rows k).map (·.id)) : pointTo rows ks id = id := by
  induction ks with
  | nil => rfl
  | cons k ks ih =>
      rw [pointTo, if_neg (h k List.mem_cons_self),
        ih fun k' hk' => h k' (List.mem_cons_of_mem _ hk')]

/-- The ids of two groups are distinct. -/
theorem not_mem_other_group {k k' : Key} (hne : k' ≠ k) {id : Nat}
    (h : id ∈ (groupOf db.messages k).map (·.id)) :
    id ∉ (groupOf db.messages k').map (·.id) := by
  intro h'
  obtain ⟨a, ha, hida⟩ := List.mem_map.mp h
  obtain ⟨b, hb, hidb⟩ := List.mem_map.mp h'
  rw [mem_groupOf] at ha hb
  have hab := db.eq_of_id hb.1 ha.1 (hidb.trans hida.symm)
  exact hne (inGroup_unique (hab ▸ hb.2) ha.2)

/-- The first row of a group that has a row. -/
theorem head_mem {rows : List Message} {k : Key} {id : Nat}
    (h : id ∈ (groupOf rows k).map (·.id)) :
    (((groupOf rows k).head?).map (·.id)).getD id ∈ (groupOf rows k).map (·.id) := by
  cases hgroup : groupOf rows k with
  | nil => rw [hgroup] at h; cases h
  | cons keeper dups => exact List.mem_cons_self

/-- What the loop over some groups does. -/
structure MergeRun (json : JsonModule N Q) (db : Database) (ks : List Key) (db' : Database) :
    Prop where
  groups : ∀ k ∈ ks, groupOf db'.messages k = mergedGroup json (groupOf db.messages k)
  others : ∀ q : Message → Bool, (∀ k ∈ ks, ∀ row, q row = true → inGroup k row = false) →
    db'.messages.filter q = db.messages.filter q
  packets : db'.rawPackets =
    db.rawPackets.map (List.map (RawPacket.repoint (pointTo db.messages ks)))

/-- One group and then the others. -/
theorem MergeRun.cons {k : Key} {db₁ db' : Database} (hk : k ∉ ks) (step : GroupStep json db k db₁)
    (run : MergeRun json db₁ ks db') : MergeRun json db (k :: ks) db' := by
  have hne : ∀ k' ∈ ks, k' ≠ k := fun k' hk' heq => hk (heq ▸ hk')
  have hsame : ∀ k' ∈ ks, groupOf db₁.messages k' = groupOf db.messages k' := fun k' hk' =>
    step.others _ (inGroup_of_ne (hne k' hk'))
  refine ⟨fun k' hk' => ?_, fun q hq => ?_, ?_⟩
  · rcases List.mem_cons.mp hk' with rfl | hk'
    · exact (run.others _ fun k'' hk'' => inGroup_of_ne (hne k'' hk'').symm).trans step.group
    · rw [run.groups k' hk', hsame k' hk']
  · exact (run.others q fun k' hk' => hq k' (List.mem_cons_of_mem _ hk')).trans
      (step.others q (hq k List.mem_cons_self))
  · rw [run.packets, step.packets, Option.map_map]
    refine congrArg (fun f => db.rawPackets.map f) (funext fun packets => ?_)
    rw [Function.comp_apply, List.map_map]
    refine List.map_congr_left fun p _ => ?_
    rw [Function.comp_apply, RawPacket.repoint_repoint]
    refine congrArg p.repoint (funext fun id => ?_)
    rw [Function.comp_apply, pointTo_congr hsame, pointTo, pointTo, pointTo]
    split
    next hid =>
      -- the keeper of this group is in no later one
      exact pointTo_of_not_mem fun k' hk' => not_mem_other_group (hne k' hk') (head_mem hid)
    next => rfl

/-- **The loop** merges the groups if each of them is ready. -/
theorem foldlM_mergeGroup_of_ready (hnodup : ks.Nodup)
    (h : ∀ k ∈ ks, Ready json maxVariables (groupOf db.messages k)) :
    ∃ db', ks.foldlM (mergeGroup json maxVariables) db = some db' ∧ MergeRun json db ks db' := by
  induction ks generalizing db with
  | nil =>
      refine ⟨db, rfl, by simp, fun _ _ => rfl, ?_⟩
      have hid : RawPacket.repoint (pointTo db.messages []) = id :=
        funext (RawPacket.repoint_eq_self fun _ => rfl)
      rw [hid, List.map_id_fun, Option.map_id, id]
  | cons k ks ih =>
      obtain ⟨hk, hnodup⟩ := List.nodup_cons.mp hnodup
      obtain ⟨db₁, hfirst, step⟩ := mergeGroup_of_ready (h k List.mem_cons_self)
      have hready : ∀ k' ∈ ks, Ready json maxVariables (groupOf db₁.messages k') := by
        intro k' hk'
        have hsame := step.others _ (inGroup_of_ne fun heq => hk (heq ▸ hk'))
        rw [groupOf, hsame]
        exact h k' (List.mem_cons_of_mem _ hk')
      obtain ⟨db', hrest, run⟩ := ih hnodup hready
      refine ⟨db', ?_, run.cons hk step⟩
      rw [List.foldlM_cons, hfirst]
      exact hrest

theorem foldlM_mergeGroup_eq_none (hnodup : ks.Nodup)
    (h : ∃ k ∈ ks, ¬ Ready json maxVariables (groupOf db.messages k)) :
    ks.foldlM (mergeGroup json maxVariables) db = none := by
  induction ks generalizing db with
  | nil =>
      obtain ⟨k, hk, -⟩ := h
      cases hk
  | cons k ks ih =>
      obtain ⟨hk, hnodup⟩ := List.nodup_cons.mp hnodup
      rw [List.foldlM_cons]
      by_cases hready : Ready json maxVariables (groupOf db.messages k)
      · obtain ⟨db₁, hfirst, step⟩ := mergeGroup_of_ready hready
        rw [hfirst]
        obtain ⟨k', hk', hnot⟩ := h
        rcases List.mem_cons.mp hk' with rfl | hk'
        · exact (hnot hready).elim
        · refine ih hnodup ⟨k', hk', ?_⟩
          have hsame := step.others _ (inGroup_of_ne fun heq => hk (heq ▸ hk'))
          rwa [groupOf, hsame]
      · rw [mergeGroup_eq_none hready]
        rfl

end Loop

/-! ### The migration -/

/-- The row has a duplicate. -/
def duplicated (rows : List Message) (row : Message) : Bool :=
  incoming row && decide (1 < (groupOf rows row.key).length)

/-- The rows of one group, and the row that is left of them. -/
structure MergedInto (json : JsonModule N Q) (rows : List Message) (merged : Message) : Prop where
  least : merged.id ∈ rows.map (·.id) ∧ ∀ row ∈ rows, merged.id ≤ row.id
  receivedAt : merged.receivedAt ∈ rows.map (·.receivedAt) ∧
    ∀ row ∈ rows, merged.receivedAt ≤ row.receivedAt
  acked : ∃ acked, merged.acked = some acked ∧ acked ∈ rows.map (·.acked.getD 0) ∧
    ∀ row ∈ rows, row.acked.getD 0 ≤ acked
  paths : merged.paths = unionPaths json (rows.map (·.paths))
  union : OrderedUnion json ((rows.map (·.paths)).flatMap (entriesOf json))
    (unionEntries json (rows.map (·.paths)))

/-- The duplicates are merged without loss. -/
structure Merged (json : JsonModule N Q) (maxVariables : Nat) (before after : Database) :
    Prop where
  merged : ∀ k, 1 < (groupOf before.messages k).length →
    ∃ row, groupOf after.messages k = [row] ∧ MergedInto json (groupOf before.messages k) row
  one : ∀ row ∈ before.messages, incoming row →
    (groupOf after.messages row.key).length = 1
  others : after.messages.filter (fun row => !duplicated before.messages row) =
    before.messages.filter fun row => !duplicated before.messages row
  linked : ∃ f, after.rawPackets = before.rawPackets.map (List.map (RawPacket.repoint f)) ∧
    (∀ k, 1 < (groupOf before.messages k).length → ∀ row ∈ groupOf before.messages k,
      (groupOf after.messages k).map (·.id) = [f row.id]) ∧
    ∀ id, (∀ row ∈ before.messages, duplicated before.messages row = true → row.id ≠ id) →
      f id = id
  indexed : Indexed after.messages
  again : migrate json maxVariables after = some after

section Migration

variable {json : JsonModule N Q} {maxVariables : Nat} {before after db : Database}

theorem inGroup_iff {k : Key} {row : Message} :
    inGroup k row = true ↔ incoming row = true ∧ row.key = k := by
  unfold inGroup
  rw [Bool.and_eq_true, decide_eq_true_eq]

/-- The groups of the query are those with more than one row. -/
theorem mem_duplicateGroups {rows : List Message} {k : Key} :
    k ∈ duplicateGroups rows ↔ 1 < (groupOf rows k).length := by
  have hgroup : (rows.filter incoming).filter (fun row => row.key = k) = groupOf rows k := by
    rw [List.filter_filter]
    refine List.filter_congr fun row _ => ?_
    rw [inGroup, Bool.and_comm]
  unfold duplicateGroups
  rw [List.mem_map]
  constructor
  · rintro ⟨⟨k, g⟩, hg, rfl⟩
    obtain ⟨hg, hlong⟩ := List.mem_filter.mp hg
    rw [← hgroup, ← (mem_groupRows.mp hg).1]
    exact of_decide_eq_true hlong
  · intro hlong
    refine ⟨(k, groupOf rows k), List.mem_filter.mpr ⟨mem_groupRows.mpr ⟨hgroup.symm, ?_⟩,
      decide_eq_true hlong⟩, rfl⟩
    exact List.ne_nil_of_length_pos (by omega)

theorem nodup_duplicateGroups (rows : List Message) : (duplicateGroups rows).Nodup :=
  (nodup_groupRows _ _).sublist (List.filter_sublist.map _)

/-- A group with duplicates is left with one row. -/
theorem mergedGroup_of_long (json : JsonModule N Q) {rows : List Message}
    (hsorted : rows.Pairwise fun a b => a.id < b.id) (hlong : 1 < rows.length) :
    ∃ row, mergedGroup json rows = [row] ∧ MergedInto json rows row ∧
      row.id = ((rows.head?).map (·.id)).getD row.id := by
  obtain ⟨keeper, duplicate, rest, rfl⟩ := exists_of_long hlong
  have hmins : ((keeper :: duplicate :: rest).map (·.receivedAt)).min? ≠ none := by simp
  have hmaxs : ((keeper :: duplicate :: rest).map (·.acked.getD 0)).max? ≠ none := by simp
  obtain ⟨least, hleast⟩ := Option.ne_none_iff_exists'.mp hmins
  obtain ⟨most, hmost⟩ := Option.ne_none_iff_exists'.mp hmaxs
  obtain ⟨hleastMem, hle⟩ := List.min?_eq_some_iff.mp hleast
  obtain ⟨hmostMem, hge⟩ := List.max?_eq_some_iff.mp hmost
  refine ⟨_, rfl, ⟨⟨List.mem_cons_self, fun row hrow => ?_⟩, ?_, ?_, rfl,
    orderedUnion_unionEntries _⟩, rfl⟩
  · rcases List.mem_cons.mp hrow with rfl | hrow
    · exact le_refl _
    · exact Nat.le_of_lt ((List.pairwise_cons.mp hsorted).1 row hrow)
  · rw [mergeInto, hleast]
    exact ⟨hleastMem, fun row hrow => hle _ (List.mem_map_of_mem hrow)⟩
  · rw [mergeInto, hmost]
    exact ⟨most, rfl, hmostMem, fun row hrow => hge _ (List.mem_map_of_mem hrow)⟩

/-- Rows that share no group are indexed. -/
theorem indexed_of_short {rows : List Message} (h : ∀ k, (groupOf rows k).length ≤ 1) :
    Indexed rows := by
  refine List.nodup_iff_count_le_one.mpr fun k => ?_
  refine le_trans (le_of_eq ?_) (h k)
  rw [List.count, List.countP_map, List.countP_eq_length_filter, List.filter_filter, groupOf]
  refine congrArg List.length (List.filter_congr fun row _ => ?_)
  rw [inGroup, Bool.and_comm, Function.comp_apply, Bool.beq_eq_decide_eq]

theorem migrate_of_short (h : ∀ k, (groupOf db.messages k).length ≤ 1) :
    migrate json maxVariables db = some db := by
  have hnone : duplicateGroups db.messages = [] := by
    refine List.eq_nil_iff_forall_not_mem.mpr fun k hk => ?_
    have hlong := mem_duplicateGroups.mp hk
    have hshort := h k
    omega
  unfold migrate
  rw [hnone]
  exact if_pos (indexed_of_short h)

/-- A row of a group that is moved goes to the first one. -/
theorem pointTo_of_mem {ks : List Key} {k : Key} (hk : k ∈ ks) {id : Nat}
    (hid : id ∈ (groupOf db.messages k).map (·.id)) :
    pointTo db.messages ks id = (((groupOf db.messages k).head?).map (·.id)).getD id := by
  induction ks with
  | nil => cases hk
  | cons first ks ih =>
      rw [pointTo]
      split
      next hfirst =>
        by_cases heq : first = k
        · rw [heq]
        · exact (not_mem_other_group heq hid hfirst).elim
      next hfirst =>
        rcases List.mem_cons.mp hk with rfl | hk
        · exact (hfirst hid).elim
        · exact ih hk

theorem duplicated_of_inGroup {rows : List Message} {k : Key} {row : Message}
    (hk : 1 < (groupOf rows k).length) (hrow : inGroup k row = true) :
    duplicated rows row = true := by
  obtain ⟨hin, rfl⟩ := inGroup_iff.mp hrow
  rw [duplicated, hin, Bool.true_and]
  exact decide_eq_true hk

/-- **The loop over the groups of the query** merges the duplicates without loss. -/
theorem merged_of_run (run : MergeRun json before (duplicateGroups before.messages) after) :
    Merged json maxVariables before after := by
  have hsorted : ∀ k, (groupOf before.messages k).Pairwise fun a b => a.id < b.id := fun k =>
    before.sorted.filter _
  have hlongs : ∀ k, 1 < (groupOf before.messages k).length →
      ∃ row, groupOf after.messages k = [row] ∧ MergedInto json (groupOf before.messages k) row ∧
        row.id = (((groupOf before.messages k).head?).map (·.id)).getD row.id := by
    intro k hlong
    rw [run.groups k (mem_duplicateGroups.mpr hlong)]
    exact mergedGroup_of_long json (hsorted k) hlong
  have hshorts : ∀ k, ¬ 1 < (groupOf before.messages k).length →
      groupOf after.messages k = groupOf before.messages k := fun k hshort =>
    run.others _ fun k' hk' => inGroup_of_ne fun heq =>
      hshort (heq ▸ mem_duplicateGroups.mp hk')
  have hsmall : ∀ k, (groupOf after.messages k).length ≤ 1 := by
    intro k
    by_cases hlong : 1 < (groupOf before.messages k).length
    · obtain ⟨row, hrow, -⟩ := hlongs k hlong
      rw [hrow]
      exact le_refl _
    · rw [hshorts k hlong]
      omega
  refine ⟨fun k hlong => ?_, fun row hrow hin => ?_, ?_, ?_, indexed_of_short hsmall,
    migrate_of_short hsmall⟩
  · obtain ⟨row, hrow, hmerged, -⟩ := hlongs k hlong
    exact ⟨row, hrow, hmerged⟩
  · refine le_antisymm (hsmall _) ?_
    by_cases hlong : 1 < (groupOf before.messages row.key).length
    · obtain ⟨kept, hkept, -⟩ := hlongs row.key hlong
      rw [hkept]
      exact le_refl _
    · rw [hshorts row.key hlong]
      exact List.length_pos_of_mem (mem_groupOf.mpr ⟨hrow, inGroup_iff.mpr ⟨hin, rfl⟩⟩)
  · refine run.others _ fun k hk row hrow => ?_
    by_contra hin
    rw [duplicated_of_inGroup (mem_duplicateGroups.mp hk) (by simpa using hin)] at hrow
    cases hrow
  · refine ⟨_, run.packets, fun k hlong row hrow => ?_, fun id hid => ?_⟩
    · obtain ⟨kept, hkept, -, hid⟩ := hlongs k hlong
      rw [hkept, List.map_singleton, pointTo_of_mem (mem_duplicateGroups.mpr hlong)
        (List.mem_map_of_mem hrow)]
      cases hgroup : groupOf before.messages k with
      | nil => rw [hgroup] at hrow; cases hrow
      | cons keeper dups =>
          rw [hgroup] at hid
          exact congrArg (fun i => [i]) hid
    · refine pointTo_of_not_mem fun k hk hmem => ?_
      obtain ⟨row, hrow, hsame⟩ := List.mem_map.mp hmem
      obtain ⟨hrow, hin⟩ := mem_groupOf.mp hrow
      exact hid row hrow (duplicated_of_inGroup (mem_duplicateGroups.mp hk) hin) hsame

end Migration

/-- **The migration merges the duplicates without loss if and only if** the paths of every group
with duplicates can be read and hashed, and the duplicates of each fit into one statement. -/
theorem migration_merges_iff (json : JsonModule N Q) (maxVariables : Nat) (before : Database) :
    (∃ after, migrate json maxVariables before = some after ∧
        Merged json maxVariables before after) ↔
      ∀ k, Ready json maxVariables (groupOf before.messages k) := by
  constructor
  · rintro ⟨after, hafter, -⟩ k
    by_contra hnot
    have hlong : 1 < (groupOf before.messages k).length := by
      by_contra hshort
      exact hnot fun hlong => absurd hlong hshort
    unfold migrate at hafter
    rw [foldlM_mergeGroup_eq_none (nodup_duplicateGroups _)
      ⟨k, mem_duplicateGroups.mpr hlong, hnot⟩] at hafter
    cases hafter
  · intro hready
    obtain ⟨after, hafter, run⟩ := foldlM_mergeGroup_of_ready
      (nodup_duplicateGroups before.messages) fun k _ => hready k
    have hmerged : Merged json maxVariables before after := merged_of_run run
    refine ⟨after, ?_, hmerged⟩
    unfold migrate
    rw [hafter]
    exact if_pos hmerged.indexed

/-- A message of one conversation. -/
def sampleMessage (id : Nat) (paths : Option Text) : Message where
  id := id
  type := "PRIV".toList
  conversationKey := "aa".toList
  text := "hi".toList
  senderTimestamp := none
  receivedAt := 100
  paths := paths
  txtType := some 0
  signature := none
  outgoing := some 0
  acked := some 0
  senderName := none
  senderKey := none

/-- A list with one entry, whose path is a list. -/
def listPathText : Text := "[\x7b\"path\": []\x7d]".toList

/-- The module `json` on that text. -/
def listPathJson : JsonModule Int Int where
  loads text :=
    if text = listPathText then .value (.list [.dict [("path".toList, .list [])]])
    else .decodeError
  dumps _ := listPathText
  value n := n
  ofBool b := if b then 1 else 0

/-- Two messages, one with that text. -/
def listPathMessages : Database where
  messages := [sampleMessage 1 none, sampleMessage 2 (some listPathText)]
  sorted := by decide
  rawPackets := none

theorem migration_fails_on_list_path :
    ¬ ∃ after, migrate listPathJson 32766 listPathMessages = some after := by
  have hnone : (migrate listPathJson 32766 listPathMessages).isNone = true := by decide
  rw [Option.isNone_iff_eq_none] at hnone
  rw [hnone]
  rintro ⟨after, hafter⟩
  cases hafter

end DmMigration

end RemoteTerm
