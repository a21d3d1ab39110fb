import RemoteTerm.Library.Table
import RemoteTerm.Decoder.PathUtils

/-!
# The raw packets table

Rows of `raw_packets`, deduplicated by a hash of the payload, and their link to
the message that a packet decrypted to.

## Implementation notes

`sha256` is a parameter. The process-wide count of undecrypted packets is a
cache of a query on this table, and has a module of its own.
-/

namespace RemoteTerm

open Library

/-- A row of `raw_packets`. -/
structure RawPacketRow where
  id : Nat
  timestamp : Int
  data : Bytes
  messageId : Option Nat := none
  payloadHash : Option Bytes
  deriving DecidableEq

/-- How `raw_packets` is keyed and indexed: `idx_raw_packets_payload_hash`. -/
def rawPacketSchema : Schema RawPacketRow Bytes := ⟨RawPacketRow.id, RawPacketRow.payloadHash⟩

/-- A `raw_packets` table; no two rows have one payload hash. -/
abbrev RawPacketTable := Table rawPacketSchema

/-- `extract_payload`. -/
def extractPayload (rawPacket : Bytes) : Option Bytes :=
  (parsePacketEnvelope rawPacket).map ParsedPacketEnvelope.payload

namespace RawPacketRepository

/-- The deduplication hash: of the payload, or of the whole packet when it is malformed. -/
def payloadHash (sha256 : Bytes → Bytes) (data : Bytes) : Bytes :=
  match extractPayload data with
  | some (b :: payload) => sha256 (b :: payload)
  | _ => sha256 data

/-- The row of a packet that was not seen before. -/
def newRow (sha256 : Bytes → Bytes) (data : Bytes) (timestamp : Int) (id : Nat) : RawPacketRow where
  id := id
  timestamp := timestamp
  data := data
  payloadHash := some (payloadHash sha256 data)

theorem newRow_id (sha256 : Bytes → Bytes) (data : Bytes) (timestamp : Int) (id : Nat) :
    rawPacketSchema.id (newRow sha256 data timestamp id) = id := rfl

/-- `create`: the rowid of the packet's row, and whether that row is new. -/
def create (sha256 : Bytes → Bytes) (t : RawPacketTable) (data : Bytes) (timestamp : Int) :
    Option (Nat × Bool) × RawPacketTable :=
  match t.insertOrIgnore (newRow sha256 data timestamp) (newRow_id sha256 data timestamp) with
  | (some id, t') => (some (id, true), t')
  | (none, t') => ((t'.holder (payloadHash sha256 data)).map fun r => (r.id, false), t')

/-- `mark_decrypted`. -/
def markDecrypted (t : RawPacketTable) (packetId messageId : Nat) : RawPacketTable :=
  t.modify (fun r => r.id = packetId) (fun r => { r with messageId := some messageId })
    (fun _ => rfl) fun _ => rfl

/-- `get_linked_message_id`. -/
def getLinkedMessageId (t : RawPacketTable) (packetId : Nat) : Option Nat :=
  (t.rows.find? fun r => r.id = packetId).bind RawPacketRow.messageId

/-- One batch of `_stream_undecrypted_rows`: the first unlinked rows after a rowid. -/
def undecryptedBatch (t : RawPacketTable) (lastId : Int) (batchSize : Nat) :
    List RawPacketRow :=
  (t.rows.filter fun r => r.messageId = none ∧ lastId < r.id).take batchSize

section Create

variable {sha256 : Bytes → Bytes} {t t' : RawPacketTable} {data : Bytes} {timestamp : Int}

/-- A payload that is stored answers its row. -/
theorem create_of_known {r : RawPacketRow} (h : t.holder (payloadHash sha256 data) = some r) :
    create sha256 t data timestamp = (some (r.id, false), t) := by
  have hins : t.insertOrIgnore (newRow sha256 data timestamp) (fun _ => rfl) = (none, t) :=
    t.insertOrIgnore_of_taken rfl h
  rw [create, hins]
  simp [h]

/-- A new payload answers the row it is stored in. -/
theorem create_of_new (timestamp : Int) (h : t.holder (payloadHash sha256 data) = none) :
    ∃ t', create sha256 t data timestamp = (some (t.nextId, true), t') ∧
      ∀ k, t'.holder k =
        if k = payloadHash sha256 data then some (newRow sha256 data timestamp t.nextId)
        else t.holder k := by
  have hins : (t.insertOrIgnore (newRow sha256 data timestamp) fun _ => rfl).1 = some t.nextId :=
    t.insertOrIgnore_of_free rfl h
  refine ⟨(t.insertOrIgnore (newRow sha256 data timestamp) fun _ => rfl).2, ?_, fun k => ?_⟩
  · unfold create
    split
    next id u hu =>
      obtain rfl : id = t.nextId := by simpa [hu] using hins
      rw [hu]
    next u hu => simp [hu] at hins
  · rw [t.holder_insertOrIgnore hins]
    simp [newRow, rawPacketSchema, eq_comm]

/-- Storing a packet always answers. -/
theorem create_answers (sha256 : Bytes → Bytes) (t : RawPacketTable) (data : Bytes)
    (timestamp : Int) :
    ∃ created t', create sha256 t data timestamp = (some created, t') := by
  cases h : t.holder (payloadHash sha256 data) with
  | some r => exact ⟨_, _, create_of_known h⟩
  | none =>
      obtain ⟨t', ht, -⟩ := create_of_new timestamp h
      exact ⟨_, t', ht⟩

/-- Storing a packet leaves a row under its hash and keeps every other row. -/
theorem create_spec {created : Nat × Bool}
    (h : create sha256 t data timestamp = (some created, t')) :
    (∃ p, t'.holder (payloadHash sha256 data) = some p ∧ p.id = created.1) ∧
      ∀ k p, t.holder k = some p → t'.holder k = some p := by
  cases hold : t.holder (payloadHash sha256 data) with
  | some r =>
      rw [create_of_known hold] at h
      simp only [Prod.mk.injEq, Option.some.injEq] at h
      obtain ⟨rfl, rfl⟩ := h
      exact ⟨⟨r, hold, rfl⟩, fun _ _ hp => hp⟩
  | none =>
      obtain ⟨u, hu, hholder⟩ := create_of_new timestamp hold
      rw [hu] at h
      simp only [Prod.mk.injEq, Option.some.injEq] at h
      obtain ⟨rfl, rfl⟩ := h
      refine ⟨⟨_, by rw [hholder, if_pos rfl], rfl⟩, fun k p hp => ?_⟩
      rw [hholder, if_neg]
      · exact hp
      · rintro rfl
        simp [hold] at hp

end Create

theorem holder_markDecrypted (t : RawPacketTable) (packetId messageId : Nat) (k : Bytes) :
    (markDecrypted t packetId messageId).holder k =
      (t.holder k).map fun r =>
        if decide (r.id = packetId) then { r with messageId := some messageId } else r :=
  t.holder_modify (fun r => r.id = packetId) (fun r => { r with messageId := some messageId })
    (fun _ => rfl) (fun _ => rfl) k

/-- A row after a packet is linked. -/
def linkRow (packetId messageId : Nat) (r : RawPacketRow) : RawPacketRow :=
  if r.id = packetId then { r with messageId := some messageId } else r

theorem markDecrypted_rows (t : RawPacketTable) (packetId messageId : Nat) :
    (markDecrypted t packetId messageId).rows = t.rows.map (linkRow packetId messageId) := by
  simp only [markDecrypted, Table.modify, decide_eq_true_eq]
  rfl

/-- Linking one packet leaves the links of the others. -/
theorem getLinkedMessageId_markDecrypted_of_ne (t : RawPacketTable) {packetId p : Nat}
    (messageId : Nat) (h : p ≠ packetId) :
    getLinkedMessageId (markDecrypted t packetId messageId) p = getLinkedMessageId t p := by
  have hid : ∀ r, (linkRow packetId messageId r).id = r.id := by
    intro r
    unfold linkRow
    split <;> rfl
  simp only [getLinkedMessageId, markDecrypted_rows, List.find?_map, Function.comp_def, hid]
  cases hf : t.rows.find? fun r => decide (r.id = p) with
  | none => rfl
  | some r =>
      have hr : r.id = p := by simpa using List.find?_some hf
      simp [linkRow, hr, h]

end RawPacketRepository

end RemoteTerm
