import Mathlib
import RemoteTerm.Decoder.Region
import RemoteTerm.Library.Machine
import RemoteTerm.Repository.Messages
import RemoteTerm.Repository.RawPackets

/-!
# Region tags

Channel messages carry the transport code of their packet and the region that
the known regions resolve it to. An update of the known regions starts a
backfill that tags the stored messages again, page by page, while packets come
in and are tagged with the regions that were read for them.

## Implementation notes

Tasks interleave at their calls, so an event is the code between two calls. The
two tables are functions of the rowid. What a packet decrypts to is part of the
event that stores it. The state remembers the messages that ingest created or
that the last update met, and those that a backfill wrote; the program sees
neither.
-/

namespace RemoteTerm

open Library

/-- The columns of a message that tagging reads or writes. -/
structure TaggedMessage where
  type : MessageType
  conversationKey : Text
  text : Text
  senderTimestamp : Option Int
  transportCode : Option Nat := none
  region : Option Text := none
  deriving DecidableEq

/-- The columns of a raw packet that tagging reads or writes. -/
structure RetainedPacket where
  data : Bytes
  messageId : Option Nat := none
  deriving DecidableEq

/-- An update of the known regions between its read and its write. -/
structure RegionUpdate where
  regions : List Text
  changed : Bool

/-- `backfill_message_regions` with its stream: the captured regions, the rest of the batch. -/
structure RegionBackfill where
  regions : List Text
  lastId : Nat := 0
  rows : List (Nat × Bytes) := []
  running : Bool := true

/-- How far the ingest of a channel packet is. -/
inductive IngestStage where
  | received (packetId : Nat)
  | resolved (packetId : Nat) (scope : Option Nat × Option Text)
  | stored (packetId messageId : Nat)

/-- The ingest of a channel packet. -/
structure ChannelIngest where
  rawBytes : Bytes
  stage : IngestStage

/-- The tables, the settings and the running tasks. -/
structure RegionState where
  messages : Nat → Option TaggedMessage
  nextMessage : Nat
  packets : Nat → Option RetainedPacket
  nextPacket : Nat
  knownRegions : List Text
  updates : List RegionUpdate := []
  backfills : List RegionBackfill := []
  ingests : List ChannelIngest := []
  covered : List Nat := []
  touched : List Nat := []

/-- What happens between two calls. -/
inductive RegionEvent where
  | readSettings (regions : List Text)
  | commit (i : Nat)
  | fetch (i : Nat)
  | tag (i : Nat)
  | receive (rawBytes : Bytes)
  | resolve (i : Nat) (settingsRead : Bool)
  | store (i : Nat) (conversationKey text : Text) (senderTimestamp : Option Int)
  | link (i : Nat)
  | createOther (m : TaggedMessage)

/-- The transport code and the region that a backfill writes for a packet. -/
def backfillTag (crypto : Crypto) (knownRegions : List Text) (data : Bytes) :
    Option (Option Nat × Option Text) :=
  (parsePacketEnvelope data).bind fun env =>
    env.transportCodes.map fun codes =>
      (some codes.1, resolveRegion crypto env.payloadType env.payload codes.1 knownRegions)

namespace RegionState

variable (crypto : Crypto) (sha256 : Bytes → Bytes) (s : RegionState)

/-- The first raw packet of a message. -/
def packetOf (messageId : Nat) : Option RetainedPacket :=
  (List.range s.nextPacket).findSome? fun p =>
    (s.packets p).filter fun r => r.messageId = some messageId

/-- The channel messages after a rowid that have a raw packet, with its data. -/
def streamRows (lastId : Nat) : List (Nat × Bytes) :=
  (List.range s.nextMessage).filterMap fun id =>
    if lastId < id ∧ (s.messages id).any (fun m => m.type = .chan) then
      (s.packetOf id).map fun r => (id, r.data)
    else none

/-- A batch of `stream_chan_messages_with_raw`. -/
def streamBatch (lastId batchSize : Nat) : List (Nat × Bytes) :=
  (s.streamRows lastId).take batchSize

/-- `set_transport_scope`. -/
def setTransportScope (messageId : Nat) (scope : Option Nat × Option Text) : RegionState :=
  { s with
    messages := Function.update s.messages messageId ((s.messages messageId).map fun m =>
      { m with transportCode := scope.1, region := scope.2 })
    touched := s.touched ++ [messageId] }

/-- The rowid of a new message, which the tables hold from now on. -/
def insertMessage (m : TaggedMessage) : RegionState :=
  { s with
    messages := Function.update s.messages s.nextMessage (some m)
    nextMessage := s.nextMessage + 1 }

/-- The message that the dedup index holds for a content. -/
def findMessage (conversationKey text : Text) (senderTimestamp : Option Int) : Option Nat :=
  (List.range s.nextMessage).find? fun id =>
    (s.messages id).any fun m => m.type = .chan ∧ m.conversationKey = conversationKey ∧
      m.text = text ∧ m.senderTimestamp = senderTimestamp

/-- The raw packet that the payload hash holds for a packet. -/
def findPacket (rawBytes : Bytes) : Option Nat :=
  (List.range s.nextPacket).find? fun p =>
    (s.packets p).any fun r =>
      RawPacketRepository.payloadHash sha256 r.data =
        RawPacketRepository.payloadHash sha256 rawBytes

/-- The write of an update, which starts a backfill when the regions changed. -/
def commit (u : RegionUpdate) : RegionState :=
  if u.changed then
    { s with
      knownRegions := u.regions
      backfills := { regions := u.regions } :: s.backfills
      covered := List.range s.nextMessage }
  else { s with knownRegions := u.regions }

/-- A backfill reads its next batch, and ends when there is none. -/
def fetch (i : Nat) (b : RegionBackfill) : RegionState :=
  if b.running ∧ b.rows = [] then
    let rows := s.streamBatch b.lastId 500
    { s with backfills := s.backfills.set i { b with rows := rows, running := !rows.isEmpty } }
  else s

/-- A backfill handles the next row of its batch. -/
def tagNext (i : Nat) (b : RegionBackfill) : RegionState :=
  match b.rows with
  | [] => s
  | row :: rest =>
      let moved := { s with
        backfills := s.backfills.set i { b with lastId := row.1, rows := rest } }
      match backfillTag crypto b.regions row.2 with
      | none => moved
      | some scope => moved.setTransportScope row.1 scope

/-- `RawPacketRepository.create`. -/
def receive (rawBytes : Bytes) : RegionState :=
  match s.findPacket sha256 rawBytes with
  | some p => { s with ingests := s.ingests ++ [⟨rawBytes, .received p⟩] }
  | none =>
      { s with
        packets := Function.update s.packets s.nextPacket (some { data := rawBytes })
        nextPacket := s.nextPacket + 1
        ingests := s.ingests ++ [⟨rawBytes, .received s.nextPacket⟩] }

/-- An ingest reads the settings and resolves the region of its packet. -/
def resolve (i : Nat) (settingsRead : Bool) (g : ChannelIngest) : RegionState :=
  match g.stage with
  | .received p =>
      let resolved := (parsePacket g.rawBytes).map (packetScope crypto s.knownRegions)
      let scope := resolved.getD (none, none)
      -- an exception leaves the packet without a region
      let scope := if settingsRead then scope else (scope.1, none)
      { s with ingests := s.ingests.set i { g with stage := .resolved p scope } }
  | _ => s

/-- `create_message_from_decrypted`: a new message, or the stored one. -/
def store (i : Nat) (g : ChannelIngest) (conversationKey text : Text)
    (senderTimestamp : Option Int) : RegionState :=
  match g.stage with
  | .resolved p scope =>
      match s.findMessage conversationKey text senderTimestamp with
      | some id => { s with ingests := s.ingests.set i { g with stage := .stored p id } }
      | none =>
          let m : TaggedMessage := ⟨.chan, conversationKey, text, senderTimestamp, scope.1, scope.2⟩
          { s.insertMessage m with
            ingests := s.ingests.set i { g with stage := .stored p s.nextMessage }
            covered := s.covered ++ [s.nextMessage] }
  | _ => s

/-- `mark_decrypted`. -/
def link (i : Nat) (g : ChannelIngest) : RegionState :=
  match g.stage with
  | .stored p id =>
      { s with
        packets := Function.update s.packets p ((s.packets p).map fun r =>
          { r with messageId := some id })
        ingests := s.ingests.eraseIdx i }
  | _ => s

/-- The state after an event. -/
def apply : RegionEvent → RegionState
  | .readSettings regions =>
      { s with updates := s.updates ++ [⟨regions, decide (regions ≠ s.knownRegions)⟩] }
  | .commit i => (s.updates[i]?).elim s fun u => { s.commit u with updates := s.updates.eraseIdx i }
  | .fetch i => (s.backfills[i]?).elim s (s.fetch i)
  | .tag i => (s.backfills[i]?).elim s (s.tagNext crypto i)
  | .receive rawBytes => s.receive sha256 rawBytes
  | .resolve i settingsRead => (s.ingests[i]?).elim s (s.resolve crypto i settingsRead)
  | .store i conversationKey text senderTimestamp =>
      (s.ingests[i]?).elim s fun g => s.store i g conversationKey text senderTimestamp
  | .link i => (s.ingests[i]?).elim s (s.link i)
  | .createOther m => s.insertMessage m

/-- No update, backfill or ingest is running. -/
def Quiet : Prop :=
  s.updates = [] ∧ (∀ b ∈ s.backfills, b.running = false) ∧ s.ingests = []

end RegionState

end RemoteTerm
