import RemoteTerm.Library.Table
import RemoteTerm.Library.Text

/-!
# The messages table

Rows of `messages`, the two partial unique indexes that deduplicate them, and
the statements of `MessageRepository` that read or write the table.

## Implementation notes

The `paths` column is JSON text in the database. The repository writes it only
with `json.dumps` and `json_insert`, so a row here carries the list it denotes.
Prefix claims rewrite index columns and are modelled with the contacts table.
-/

namespace RemoteTerm

open Library

/-- The `type` column. -/
inductive MessageType where
  | priv
  | chan
  deriving DecidableEq, Repr

/-- One entry of the `paths` column: a route on which the message was heard. -/
structure MessagePath where
  path : Text
  receivedAt : Int
  pathLen : Option Int := none
  rssi : Option Int := none
  snr : Option Rat := none
  deriving DecidableEq

/-- A row of `messages`. -/
structure MessageRow where
  id : Nat
  type : MessageType
  conversationKey : Text
  text : Text
  senderTimestamp : Option Int
  receivedAt : Int
  paths : Option (List MessagePath)
  txtType : Nat
  signature : Option Text
  outgoing : Bool
  acked : Nat
  senderName : Option Text
  senderKey : Option Text
  transportCode : Option Nat
  region : Option Text
  deriving DecidableEq

/-- An entry of one of the two dedup indexes: `idx_messages_dedup_null_safe` files
channel messages, `idx_messages_incoming_priv_dedup` incoming direct messages. -/
inductive DedupKey where
  | channel (conversationKey text : Text) (timestamp : Int)
  | incomingDirect (conversationKey text : Text) (timestamp : Int) (senderKey : Text)
  deriving DecidableEq

namespace MessageRow

/-- The index entry of a row; an outgoing direct message has none. -/
def dedupKey (r : MessageRow) : Option DedupKey :=
  match r.type with
  | .chan => some (.channel r.conversationKey r.text (r.senderTimestamp.getD 0))
  | .priv =>
      if r.outgoing then none
      else some (.incomingDirect r.conversationKey r.text (r.senderTimestamp.getD 0)
        (r.senderKey.getD []))

/-- The columns that `get_by_content` compares; the direction only when one is asked for. -/
def matchesContent (r : MessageRow) (msgType : MessageType) (conversationKey text : Text)
    (senderTimestamp : Option Int) (outgoing : Option Bool) : Bool :=
  r.type = msgType ∧ r.conversationKey = conversationKey ∧ r.text = text ∧
    r.senderTimestamp = senderTimestamp ∧ outgoing.getD r.outgoing = r.outgoing

@[simp] theorem matchesContent_iff {r : MessageRow} {msgType : MessageType}
    {conversationKey text : Text} {senderTimestamp : Option Int} {outgoing : Option Bool} :
    r.matchesContent msgType conversationKey text senderTimestamp outgoing = true ↔
      r.type = msgType ∧ r.conversationKey = conversationKey ∧ r.text = text ∧
        r.senderTimestamp = senderTimestamp ∧ outgoing.getD r.outgoing = r.outgoing := by
  simp [matchesContent]

end MessageRow

/-- How `messages` is keyed and indexed. -/
def messageSchema : Schema MessageRow DedupKey := ⟨MessageRow.id, MessageRow.dedupKey⟩

@[simp] theorem messageSchema_id (r : MessageRow) : messageSchema.id r = r.id := rfl

@[simp] theorem messageSchema_key (r : MessageRow) : messageSchema.key r = r.dedupKey := rfl

/-- A `messages` table; it satisfies both dedup indexes. -/
abbrev MessageTable := Table messageSchema

/-- The arguments of `MessageRepository.create`. -/
structure NewMessage where
  msgType : MessageType
  text : Text
  receivedAt : Int
  conversationKey : Text
  senderTimestamp : Option Int := none
  path : Option Text := none
  pathLen : Option Int := none
  rssi : Option Int := none
  snr : Option Rat := none
  txtType : Nat := 0
  signature : Option Text := none
  outgoing : Bool := false
  senderName : Option Text := none
  senderKey : Option Text := none
  transportCode : Option Nat := none
  region : Option Text := none
  deriving DecidableEq

namespace NewMessage

/-- The single path of a new row. -/
def paths (m : NewMessage) : Option (List MessagePath) :=
  m.path.map fun p =>
    [{ path := p, receivedAt := m.receivedAt, pathLen := m.pathLen, rssi := m.rssi, snr := m.snr }]

/-- The row that `create` inserts under a rowid: the sender key in lower case, no acks. -/
def toRow (m : NewMessage) (id : Nat) : MessageRow where
  id := id
  type := m.msgType
  conversationKey := m.conversationKey
  text := m.text
  senderTimestamp := m.senderTimestamp
  receivedAt := m.receivedAt
  paths := m.paths
  txtType := m.txtType
  signature := m.signature
  outgoing := m.outgoing
  acked := 0
  senderName := m.senderName
  senderKey := m.senderKey.map lower
  transportCode := m.transportCode
  region := m.region

/-- The index entry that a new message asks for. -/
def dedupKey (m : NewMessage) : Option DedupKey := (m.toRow 0).dedupKey

@[simp] theorem toRow_dedupKey (m : NewMessage) (id : Nat) : (m.toRow id).dedupKey = m.dedupKey :=
  rfl

end NewMessage

namespace MessageRepository

/-- `create`: the new rowid, or `none` when a dedup index rejects the row. -/
def create (t : MessageTable) (m : NewMessage) : Option Nat × MessageTable :=
  t.insertOrIgnore m.toRow fun _ => rfl

/-- `UPDATE messages ... WHERE id = ?` on columns outside the indexes. -/
def updateById (t : MessageTable) (id : Nat) (f : MessageRow → MessageRow)
    (hid : ∀ r, (f r).id = r.id) (hkey : ∀ r, (f r).dedupKey = r.dedupKey) : MessageTable :=
  t.modify (fun r => r.id = id) f hid hkey

theorem updateById_rows (t : MessageTable) (id : Nat) (f : MessageRow → MessageRow)
    (hid : ∀ r, (f r).id = r.id) (hkey : ∀ r, (f r).dedupKey = r.dedupKey) :
    (updateById t id f hid hkey).rows = t.rows.map fun r => if r.id = id then f r else r := by
  simp only [updateById, Table.modify, decide_eq_true_eq]

/-- Append a path to a row, starting a list when it had none. -/
def appendPath (p : MessagePath) (r : MessageRow) : MessageRow :=
  { r with paths := some (r.paths.getD [] ++ [p]) }

/-- `add_path`: `json_insert` at the end of the list. -/
def addPath (t : MessageTable) (id : Nat) (p : MessagePath) : MessageTable :=
  updateById t id (appendPath p) (fun _ => rfl) fun _ => rfl

/-- One more ack. -/
def bumpAck (r : MessageRow) : MessageRow := { r with acked := r.acked + 1 }

/-- `increment_ack_count`. -/
def incrementAckCount (t : MessageTable) (id : Nat) : MessageTable :=
  updateById t id bumpAck (fun _ => rfl) fun _ => rfl

theorem addPath_rows (t : MessageTable) (id : Nat) (p : MessagePath) :
    (addPath t id p).rows = t.rows.map fun r => if r.id = id then appendPath p r else r :=
  updateById_rows t id (appendPath p) (fun _ => rfl) fun _ => rfl

theorem incrementAckCount_rows (t : MessageTable) (id : Nat) :
    (incrementAckCount t id).rows = t.rows.map fun r => if r.id = id then bumpAck r else r :=
  updateById_rows t id bumpAck (fun _ => rfl) fun _ => rfl

/-- `get_by_id`. -/
def getById (t : MessageTable) (id : Nat) : Option MessageRow := t.rows.find? fun r => r.id = id

/-- `get_by_content`: the row with the smallest rowid among those with this content. -/
def getByContent (t : MessageTable) (msgType : MessageType) (conversationKey text : Text)
    (senderTimestamp : Option Int) (outgoing : Option Bool := none) : Option MessageRow :=
  t.first fun r => r.matchesContent msgType conversationKey text senderTimestamp outgoing

/-- A row that holds an index entry is the only row under it. -/
theorem countP_dedupKey {t : MessageTable} {k : DedupKey} {r : MessageRow}
    (h : t.holder k = some r) : t.rows.countP (fun q => q.dedupKey = some k) = 1 := by
  have hcount := t.countP_key k
  simp only [h, Option.isSome_some, if_true] at hcount
  convert hcount
  rfl

theorem create_eq_none_iff (t : MessageTable) (m : NewMessage) :
    (create t m).1 = none ↔ ∃ k r, m.dedupKey = some k ∧ t.holder k = some r :=
  t.insertOrIgnore_eq_none_iff

/-- A rejected row leaves the table as it was. -/
theorem create_of_none {t : MessageTable} {m : NewMessage} (h : (create t m).1 = none) :
    (create t m).2 = t :=
  t.insertOrIgnore_of_none h

/-- A stored row is appended under the next rowid. -/
theorem create_of_some {t : MessageTable} {m : NewMessage} {n : Nat}
    (h : (create t m).1 = some n) :
    n = t.nextId ∧ (create t m).2.rows = t.rows ++ [m.toRow t.nextId] ∧
      (create t m).2.nextId = t.nextId + 1 :=
  t.insertOrIgnore_of_some h

theorem create_of_free {t : MessageTable} {m : NewMessage} {k : DedupKey}
    (hk : m.dedupKey = some k) (h : t.holder k = none) : (create t m).1 = some t.nextId :=
  t.insertOrIgnore_of_free hk h

theorem create_of_taken {t : MessageTable} {m : NewMessage} {k : DedupKey} {r : MessageRow}
    (hk : m.dedupKey = some k) (h : t.holder k = some r) : create t m = (none, t) :=
  t.insertOrIgnore_of_taken hk h

theorem holder_create {t : MessageTable} {m : NewMessage} {n : Nat}
    (h : (create t m).1 = some n) (k : DedupKey) :
    (create t m).2.holder k =
      if m.dedupKey = some k then some (m.toRow t.nextId) else t.holder k :=
  t.holder_insertOrIgnore h k

theorem getById_eq_some_iff (t : MessageTable) {id : Nat} {r : MessageRow} :
    getById t id = some r ↔ r ∈ t.rows ∧ r.id = id := by
  constructor
  · intro h
    exact ⟨List.mem_of_find?_eq_some h, by simpa using List.find?_some h⟩
  · rintro ⟨hr, rfl⟩
    cases hf : getById t r.id with
    | none =>
        simp only [getById, List.find?_eq_none] at hf
        simpa using hf r hr
    | some q =>
        have hq : q ∈ t.rows := List.mem_of_find?_eq_some hf
        have hid : q.id = r.id := by simpa using List.find?_some hf
        rw [t.eq_of_id hq hr hid]

theorem getByContent_eq_some_iff (t : MessageTable) {msgType : MessageType}
    {conversationKey text : Text} {senderTimestamp : Option Int} {outgoing : Option Bool}
    {r : MessageRow} :
    getByContent t msgType conversationKey text senderTimestamp outgoing = some r ↔
      r ∈ t.rows ∧ r.matchesContent msgType conversationKey text senderTimestamp outgoing ∧
        ∀ q ∈ t.rows, q.id < r.id →
          q.matchesContent msgType conversationKey text senderTimestamp outgoing = false :=
  t.first_eq_some_iff

theorem getByContent_eq_none_iff (t : MessageTable) {msgType : MessageType}
    {conversationKey text : Text} {senderTimestamp : Option Int} {outgoing : Option Bool} :
    getByContent t msgType conversationKey text senderTimestamp outgoing = none ↔
      ∀ r ∈ t.rows,
        r.matchesContent msgType conversationKey text senderTimestamp outgoing = false :=
  t.first_eq_none_iff

end MessageRepository

end RemoteTerm
