import Mathlib
import RemoteTerm.Contacts.Routes
import RemoteTerm.Library.Text

/-!
# The contacts table

Rows of `contacts`, whose public keys are distinct, and the statements of
`ContactRepository` that resolve and update them. A contact is known by its
full key of 64 digits, or only by a prefix of it.

## Implementation notes

Positions and read marks are not read by anything modelled here and are left out,
and so are the route fields of an upsert, which its callers here do not set.
`ORDER BY public_key LIMIT 2` in the prefix query only caps a list of which the
length and a single element are used.
-/

namespace RemoteTerm

open Library

/-- `CONTACT_TYPE_REPEATER`. -/
def contactTypeRepeater : Nat := 2

/-- `CONTACT_TYPE_ROOM`. -/
def contactTypeRoom : Nat := 3

/-- A row of `contacts`. -/
structure Contact where
  publicKey : Text
  name : Option Text := none
  type : Nat := 0
  lastSeen : Option Int := none
  lastContacted : Option Int := none
  firstSeen : Option Int := none
  floodScopeOverride : Option Text := none
  routes : RouteColumns := {}
  deriving DecidableEq

/-- The fields of `ContactUpsert` that are modelled. -/
structure ContactUpsert where
  publicKey : Text
  name : Option Text := none
  type : Nat := 0
  lastSeen : Option Int := none
  lastContacted : Option Int := none
  firstSeen : Option Int := none

/-- A `contacts` table: `public_key` is the primary key. -/
structure ContactTable where
  rows : List Contact
  nodup : (rows.map Contact.publicKey).Nodup

namespace ContactTable

/-- The table without contacts. -/
def empty : ContactTable := ⟨[], by simp⟩

/-- `UPDATE` of columns other than the primary key. -/
def update (t : ContactTable) (publicKey : Text) (f : Contact → Contact)
    (hkey : ∀ c, (f c).publicKey = c.publicKey) : ContactTable where
  rows := t.rows.map fun c => if c.publicKey = publicKey then f c else c
  nodup := by
    have hmap : (t.rows.map fun c => if c.publicKey = publicKey then f c else c).map
        Contact.publicKey = t.rows.map Contact.publicKey := by
      rw [List.map_map]
      refine List.map_congr_left fun c _ => ?_
      by_cases hc : c.publicKey = publicKey <;> simp [hc, hkey]
    exact hmap ▸ t.nodup

end ContactTable

namespace ContactRepository

/-- `get_by_key`. -/
def getByKey (t : ContactTable) (publicKey : Text) : Option Contact :=
  t.rows.find? fun c => c.publicKey = lower publicKey

theorem getByKey_publicKey {t : ContactTable} {publicKey : Text} {c : Contact}
    (h : getByKey t publicKey = some c) : c.publicKey = lower publicKey := by
  simpa using List.find?_some h

/-- The answer of `get_by_key_or_prefix`; `ambiguous` is the exception it raises when
several contacts match a prefix. -/
inductive Resolution where
  | contact (c : Contact)
  | unknown
  | ambiguous
  deriving DecidableEq

/-- The contact of an answer, if it is one. -/
def Resolution.contact? : Resolution → Option Contact
  | .contact c => some c
  | _ => none

/-- `get_by_key_or_prefix`: an exact match first, then a unique prefix match. -/
def getByKeyOrPrefix (t : ContactTable) (keyOrPrefix : Text) : Resolution :=
  match getByKey t keyOrPrefix with
  | some c => .contact c
  | none =>
      match t.rows.filter fun c => like (lower keyOrPrefix ++ ['%']) c.publicKey with
      | [] => .unknown
      | [c] => .contact c
      | _ => .ambiguous

/-- `get_by_name`. -/
def getByName (t : ContactTable) (name : Text) : List Contact :=
  t.rows.filter fun c => c.name = some name

/-- `get_by_pubkey_first_byte`. -/
def getByPubkeyFirstByte (t : ContactTable) (hexByte : Text) : List Contact :=
  t.rows.filter fun c => c.publicKey.take 2 = lower hexByte

/-- A monotone timestamp column. -/
def laterOf (stored excluded : Option Int) : Option Int :=
  match excluded, stored with
  | none, s => s
  | some e, none => some e
  | some e, some s => if e > s then some e else some s

/-- The row that `upsert` leaves for a key that is present. -/
def mergeUpsert (u : ContactUpsert) (c : Contact) : Contact :=
  { c with
    name := u.name <|> c.name
    type := if u.type = 0 then c.type else u.type
    lastSeen := laterOf c.lastSeen u.lastSeen
    lastContacted := u.lastContacted <|> c.lastContacted
    firstSeen := c.firstSeen <|> u.firstSeen }

/-- `upsert`: insert a contact, or merge the new values into the stored row. -/
def upsert (t : ContactTable) (u : ContactUpsert) : ContactTable :=
  if h : lower u.publicKey ∈ t.rows.map Contact.publicKey then
    t.update (lower u.publicKey) (mergeUpsert u) fun _ => rfl
  else
    { rows := t.rows ++
        [{ publicKey := lower u.publicKey, name := u.name, type := u.type, lastSeen := u.lastSeen,
           lastContacted := u.lastContacted, firstSeen := u.firstSeen }]
      nodup := by
        rw [List.map_append, List.nodup_append]
        refine ⟨t.nodup, by simp, ?_⟩
        rintro a ha b hb rfl
        simp only [List.map_cons, List.map_nil, List.mem_singleton] at hb
        exact h (hb ▸ ha) }

/-- `delete`: messages of the contact are kept. -/
def delete (t : ContactTable) (publicKey : Text) : ContactTable where
  rows := t.rows.filter fun c => c.publicKey ≠ lower publicKey
  nodup := t.nodup.sublist (List.filter_sublist.map _)

/-- `update_last_contacted`. -/
def updateLastContacted (t : ContactTable) (publicKey : Text) (timestamp : Int) :
    ContactTable :=
  t.update (lower publicKey) (fun c => { c with lastContacted := some timestamp }) fun _ => rfl

/-- `touch_last_seen`. -/
def touchLastSeen (t : ContactTable) (publicKey : Text) (timestamp : Int) : ContactTable :=
  t.update (lower publicKey)
    (fun c => { c with lastSeen := laterOf c.lastSeen (some timestamp) }) fun _ => rfl

/-- `update_direct_path`. -/
def updateDirectPath (t : ContactTable) (publicKey path : Text) (pathLen : Int)
    (pathHashMode : Option Int) (updatedAt : Int) : ContactTable :=
  t.update (lower publicKey)
    (fun c => { c with
      routes := c.routes.updateDirectPath path pathLen pathHashMode
      lastSeen := laterOf c.lastSeen (some updatedAt) }) fun _ => rfl

section Identities

/-- What resolution reads of a contact, and the type that decides how it is stored. -/
def identity (c : Contact) : Text × Nat := (c.publicKey, c.type)

/-- The identities of a table, in rowid order. -/
def identities (t : ContactTable) : List (Text × Nat) := t.rows.map identity

theorem identities_update (t : ContactTable) (publicKey : Text) (f : Contact → Contact)
    (hkey : ∀ c, (f c).publicKey = c.publicKey) (hid : ∀ c, identity (f c) = identity c) :
    identities (t.update publicKey f hkey) = identities t := by
  simp only [identities, ContactTable.update, List.map_map]
  refine List.map_congr_left fun c _ => ?_
  by_cases hc : c.publicKey = publicKey <;> simp [hc, hid]

@[simp] theorem identities_updateLastContacted (t : ContactTable) (publicKey : Text)
    (timestamp : Int) : identities (updateLastContacted t publicKey timestamp) = identities t :=
  identities_update t _ _ _ fun _ => rfl

@[simp] theorem identities_touchLastSeen (t : ContactTable) (publicKey : Text)
    (timestamp : Int) : identities (touchLastSeen t publicKey timestamp) = identities t :=
  identities_update t _ _ _ fun _ => rfl

@[simp] theorem identities_updateDirectPath (t : ContactTable) (publicKey path : Text)
    (pathLen : Int) (pathHashMode : Option Int) (updatedAt : Int) :
    identities (updateDirectPath t publicKey path pathLen pathHashMode updatedAt) =
      identities t :=
  identities_update t _ _ _ fun _ => rfl

theorem getByKey_identity (t : ContactTable) (publicKey : Text) :
    (getByKey t publicKey).map identity =
      (identities t).find? fun c => c.1 = lower publicKey := by
  simp only [getByKey, identities, List.find?_map]
  rfl

/-- The identity of the contact that a key or prefix resolves to depends on the
identities of the table alone. -/
theorem getByKeyOrPrefix_identity {t t' : ContactTable} (h : identities t' = identities t)
    (keyOrPrefix : Text) :
    (getByKeyOrPrefix t' keyOrPrefix).contact?.map identity =
      (getByKeyOrPrefix t keyOrPrefix).contact?.map identity := by
  have hexact : (getByKey t' keyOrPrefix).map identity = (getByKey t keyOrPrefix).map identity := by
    rw [getByKey_identity, getByKey_identity, h]
  have hfilter : ∀ u : ContactTable,
      (u.rows.filter fun c => like (lower keyOrPrefix ++ ['%']) c.publicKey).map identity =
        (identities u).filter fun c => like (lower keyOrPrefix ++ ['%']) c.1 := by
    intro u
    simp [identities, List.filter_map, Function.comp_def, identity]
  have hmatching : (t'.rows.filter fun c => like (lower keyOrPrefix ++ ['%']) c.publicKey).map
      identity = (t.rows.filter fun c => like (lower keyOrPrefix ++ ['%']) c.publicKey).map
        identity := by
    rw [hfilter, hfilter, h]
  unfold getByKeyOrPrefix
  cases hc' : getByKey t' keyOrPrefix <;> cases hc : getByKey t keyOrPrefix <;>
    rw [hc, hc'] at hexact
  · revert hmatching
    rcases t'.rows.filter _ with _ | ⟨c', _ | ⟨d', rest'⟩⟩ <;>
      rcases t.rows.filter _ with _ | ⟨c, _ | ⟨d, rest⟩⟩ <;>
      simp [Resolution.contact?]
  · cases hexact
  · cases hexact
  · exact hexact

end Identities

end ContactRepository

end RemoteTerm
