import RemoteTerm.Services.App

/-!
# Storing messages and reconciling duplicates

`services/messages.py`: a new message is inserted, and an observation of a
message that is already stored adds a path, an ack or a packet link to its row.

## Implementation notes

The four observation fields that every function passes on are one record. The
functions return rowids; their broadcasts are left out.
-/

namespace RemoteTerm

open Library

/-- How and when a message was heard. -/
structure Observation where
  path : Option Text
  receivedAt : Int
  pathLen : Option Int := none
  rssi : Option Int := none
  snr : Option Rat := none
  deriving DecidableEq

/-- The `paths` entry of an observation; one without a path has none. -/
def Observation.entry (o : Observation) : Option MessagePath :=
  o.path.map fun p =>
    { path := p, receivedAt := o.receivedAt, pathLen := o.pathLen, rssi := o.rssi, snr := o.snr }

/-- Add the path of an observation to a row, if it carries one. -/
def addObservedPath (messageId : Nat) (o : Observation) : Task Unit :=
  match o.entry with
  | some p => await (.addPath messageId p)
  | none => pure ()

/-- An echo of an outgoing channel message is an ack; direct messages have their own. -/
def incrementEchoAck (existing : MessageRow) : Task Unit :=
  if existing.outgoing ∧ existing.type = .chan then do
    let _ ← await (.incrementAckCount existing.id)
    pure ()
  else pure ()

/-- Link the raw packet of an observation to a row, if there is one. -/
def markDecrypted (packetId : Option Nat) (messageId : Nat) : Task Unit :=
  match packetId with
  | some id => await (.markDecrypted id messageId)
  | none => pure ()

/-- `reconcile_duplicate_message`. -/
def reconcileDuplicateMessage (existing : MessageRow) (packetId : Option Nat) (o : Observation) :
    Task Unit := do
  addObservedPath existing.id o
  incrementEchoAck existing
  markDecrypted packetId existing.id

/-- `handle_duplicate_message`: find the stored row by its content and reconcile into it. -/
def handleDuplicateMessage (packetId : Option Nat) (msgType : MessageType)
    (conversationKey text : Text) (senderTimestamp : Option Int) (outgoing : Option Bool)
    (o : Observation) : Task Unit := do
  let existing ← await (.getByContent msgType conversationKey text senderTimestamp outgoing)
  match existing with
  | none => pure ()
  | some existing => reconcileDuplicateMessage existing packetId o

/-- The contact that a sender name stands for, when the name is unique. -/
def resolveSenderKey (sender : Option Text) : Task (Option Text) :=
  match sender with
  | none | some [] => pure none
  | some name => do
      let candidates ← await (.getContactsByName name)
      match candidates with
      | [c] => pure (some c.publicKey)
      | _ => pure none

/-- The stored text of a channel message. -/
def channelText (sender : Option Text) (messageText : Text) : Text :=
  match sender with
  | none | some [] => messageText
  | some name => name ++ [':', ' '] ++ messageText

/-- `received_at or int(time.time())`. -/
def receivedOrNow (receivedAt : Option Int) (now : Int) : Int :=
  if receivedAt.getD 0 = 0 then now else receivedAt.getD 0

theorem receivedOrNow_idem (receivedAt : Option Int) (now : Int) :
    receivedOrNow (some (receivedOrNow receivedAt now)) now = receivedOrNow receivedAt now := by
  by_cases h : receivedAt.getD 0 = 0 <;> simp [receivedOrNow, h]

/-- The arguments of `create_message_from_decrypted`, and the clock it may read. -/
structure DecryptedChannelMessage where
  packetId : Nat
  channelKey : Text
  sender : Option Text
  messageText : Text
  timestamp : Int
  receivedAt : Option Int := none
  path : Option Text := none
  pathLen : Option Int := none
  rssi : Option Int := none
  snr : Option Rat := none
  transportCode : Option Nat := none
  region : Option Text := none
  now : Int

namespace DecryptedChannelMessage

/-- The observation that a decrypted packet makes. -/
def observation (d : DecryptedChannelMessage) : Observation where
  path := d.path
  receivedAt := receivedOrNow d.receivedAt d.now
  pathLen := d.pathLen
  rssi := d.rssi
  snr := d.snr

/-- The row that is offered to the table. -/
def newMessage (d : DecryptedChannelMessage) (senderKey : Option Text) : NewMessage where
  msgType := .chan
  text := channelText d.sender d.messageText
  conversationKey := upper d.channelKey
  senderTimestamp := some d.timestamp
  receivedAt := d.observation.receivedAt
  path := d.observation.path
  pathLen := d.observation.pathLen
  rssi := d.observation.rssi
  snr := d.observation.snr
  senderName := d.sender
  senderKey := senderKey
  transportCode := d.transportCode
  region := d.region

end DecryptedChannelMessage

/-- Offer an observed channel message to the table; a rejected one is a duplicate. The
direction is not asked for, so that an echo finds the row of our own send. -/
def storeChannelMessage (sender : Option Text) (row : Option Text → NewMessage)
    (packetId : Option Nat) (o : Observation) : Task (Option Nat) := do
  let senderKey ← resolveSenderKey sender
  let msgId ← await (.createMessage (row senderKey))
  match msgId with
  | none => do
      handleDuplicateMessage packetId .chan (row senderKey).conversationKey (row senderKey).text
        (row senderKey).senderTimestamp none o
      pure none
  | some msgId => do
      markDecrypted packetId msgId
      pure (some msgId)

/-- `create_message_from_decrypted`. -/
def createMessageFromDecrypted (d : DecryptedChannelMessage) : Task (Option Nat) :=
  storeChannelMessage d.sender d.newMessage (some d.packetId) d.observation

/-- The arguments of `create_fallback_channel_message`. -/
structure FallbackChannelMessage where
  conversationKey : Text
  messageText : Text
  senderTimestamp : Int
  receivedAt : Int
  path : Option Text
  pathLen : Option Int
  txtType : Nat
  senderName : Option Text

namespace FallbackChannelMessage

/-- The observation that a library event makes. -/
def observation (d : FallbackChannelMessage) : Observation where
  path := d.path
  receivedAt := d.receivedAt
  pathLen := d.pathLen

/-- The row that is offered to the table. -/
def newMessage (d : FallbackChannelMessage) (senderKey : Option Text) : NewMessage where
  msgType := .chan
  text := channelText d.senderName d.messageText
  conversationKey := upper d.conversationKey
  senderTimestamp := some d.senderTimestamp
  receivedAt := d.receivedAt
  path := d.path
  pathLen := d.pathLen
  txtType := d.txtType
  senderName := d.senderName
  senderKey := senderKey

end FallbackChannelMessage

/-- `create_fallback_channel_message`. -/
def createFallbackChannelMessage (d : FallbackChannelMessage) : Task (Option Nat) :=
  storeChannelMessage d.senderName d.newMessage none d.observation

/-- The arguments of `create_outgoing_channel_message`. -/
structure OutgoingChannelMessage where
  conversationKey : Text
  text : Text
  senderTimestamp : Int
  receivedAt : Int
  senderName : Option Text
  senderKey : Option Text

/-- The row that is offered to the table. -/
def OutgoingChannelMessage.newMessage (d : OutgoingChannelMessage) : NewMessage where
  msgType := .chan
  text := d.text
  conversationKey := d.conversationKey
  senderTimestamp := some d.senderTimestamp
  receivedAt := d.receivedAt
  outgoing := true
  senderName := d.senderName
  senderKey := d.senderKey

/-- `create_outgoing_channel_message`: the rowid and the acks the row already has. -/
def createOutgoingChannelMessage (d : OutgoingChannelMessage) : Task (Option (Nat × Nat)) := do
  let msgId ← await (.createMessage d.newMessage)
  match msgId with
  | none => pure none
  | some msgId => do
      let stored ← await (.getAckAndPaths msgId)
      pure (some (msgId, stored.1))

/-- `create_outgoing_direct_message`. -/
def createOutgoingDirectMessage (conversationKey text : Text) (senderTimestamp receivedAt : Int) :
    Task (Option Nat) :=
  await (.createMessage
    { msgType := .priv, text := text, conversationKey := conversationKey,
      senderTimestamp := some senderTimestamp, receivedAt := receivedAt, outgoing := true })

section Calls

variable {ok : Op → Prop}

theorem addObservedPath_calls (hpath : ∀ id p, ok (.addPath id p)) (messageId : Nat)
    (o : Observation) : (addObservedPath messageId o).Calls ok := by
  unfold addObservedPath
  cases o.entry with
  | none => simp
  | some p => simpa using hpath messageId p

theorem markDecrypted_calls {packetId : Option Nat}
    (hmark : ∀ p ∈ packetId, ∀ id, ok (.markDecrypted p id)) (messageId : Nat) :
    (markDecrypted packetId messageId).Calls ok := by
  unfold markDecrypted
  cases packetId with
  | none => simp
  | some p => simpa using hmark p rfl messageId

/-- Reconciling adds a path, bumps the ack and links the packet, and calls nothing else. -/
theorem reconcileDuplicateMessage_calls {packetId : Option Nat}
    (hpath : ∀ id p, ok (.addPath id p)) (hack : ∀ id, ok (.incrementAckCount id))
    (hmark : ∀ p ∈ packetId, ∀ id, ok (.markDecrypted p id)) (existing : MessageRow)
    (o : Observation) : (reconcileDuplicateMessage existing packetId o).Calls ok := by
  refine Program.Calls.bind (addObservedPath_calls hpath _ _) fun _ => ?_
  refine Program.Calls.bind ?_ fun _ => markDecrypted_calls hmark _
  unfold incrementEchoAck
  split
  · simpa using hack existing.id
  · simp

theorem handleDuplicateMessage_calls {packetId : Option Nat} {msgType : MessageType}
    {conversationKey text : Text} {senderTimestamp : Option Int} {outgoing : Option Bool}
    {o : Observation}
    (hread : ok (.getByContent msgType conversationKey text senderTimestamp outgoing))
    (hpath : ∀ id p, ok (.addPath id p)) (hack : ∀ id, ok (.incrementAckCount id))
    (hmark : ∀ p ∈ packetId, ∀ id, ok (.markDecrypted p id)) :
    (handleDuplicateMessage packetId msgType conversationKey text senderTimestamp outgoing
      o).Calls ok := by
  refine Program.Calls.bind (by simpa using hread) fun existing => ?_
  cases existing with
  | none => simp
  | some existing => exact reconcileDuplicateMessage_calls hpath hack hmark _ _

end Calls

section Reconcile

open MessageRepository

variable {sha256 : Bytes → Bytes} {s s' : App}

/-- The messages table after an observation is reconciled into a row. -/
def reconciledMessages (t : MessageTable) (existing : MessageRow) (o : Observation) :
    MessageTable :=
  let withPath := o.entry.elim t (addPath t existing.id)
  if existing.outgoing ∧ existing.type = .chan then incrementAckCount withPath existing.id
  else withPath

/-- The raw packets table after a packet is linked. -/
def linkedPackets (t : RawPacketTable) (packetId : Option Nat) (messageId : Nat) :
    RawPacketTable :=
  packetId.elim t fun id => RawPacketRepository.markDecrypted t id messageId

/-- A row after an observation is reconciled into it. -/
def observedRow (o : Observation) (r : MessageRow) : MessageRow :=
  let withPath := o.entry.elim r fun p => appendPath p r
  if r.outgoing ∧ r.type = .chan then bumpAck withPath else withPath

@[simp] theorem markDecrypted_eval {packetId : Option Nat} {messageId : Nat} {x : Unit} :
    Program.Eval (process sha256) (markDecrypted packetId messageId) s x s' ↔
      s' = { s with rawPackets := linkedPackets s.rawPackets packetId messageId } := by
  cases packetId <;> simp [markDecrypted, linkedPackets, Program.await]

/-- Reconciling writes the row's path and ack, and links the packet. -/
theorem reconcileDuplicateMessage_eval {existing : MessageRow} {packetId : Option Nat}
    {o : Observation} {x : Unit} :
    Program.Eval (process sha256) (reconcileDuplicateMessage existing packetId o) s x s' ↔
      s' = { s with
        messages := reconciledMessages s.messages existing o
        rawPackets := linkedPackets s.rawPackets packetId existing.id } := by
  have hpath : ∀ {t : App}, Program.Eval (process sha256) (addObservedPath existing.id o) s () t ↔
      t = { s with messages := o.entry.elim s.messages (addPath s.messages existing.id) } := by
    intro t
    unfold addObservedPath
    cases o.entry <;> simp [Program.await]
  have hecho : ∀ {t u : App}, Program.Eval (process sha256) (incrementEchoAck existing) t () u ↔
      u = { t with
        messages := if existing.outgoing ∧ existing.type = .chan then
          incrementAckCount t.messages existing.id else t.messages } := by
    intro t u
    unfold incrementEchoAck
    split <;> simp
  simp [reconcileDuplicateMessage, Program.eval_bind_iff, hpath, hecho, reconciledMessages]

/-- Reconciling adds no row. -/
theorem reconciledMessages_length (t : MessageTable) (existing : MessageRow) (o : Observation) :
    (reconciledMessages t existing o).rows.length = t.rows.length := by
  have hpath : (o.entry.elim t (addPath t existing.id)).rows.length = t.rows.length := by
    cases o.entry with
    | none => rfl
    | some p => simp [addPath_rows]
  simp only [reconciledMessages]
  split
  · simpa [incrementAckCount_rows] using hpath
  · exact hpath

theorem holder_addPath (t : MessageTable) (id : Nat) (p : MessagePath) (k : DedupKey) :
    (addPath t id p).holder k =
      (t.holder k).map fun r => if decide (r.id = id) then appendPath p r else r :=
  t.holder_modify (fun r => r.id = id) (appendPath p) (fun _ => rfl) (fun _ => rfl) k

theorem holder_incrementAckCount (t : MessageTable) (id : Nat) (k : DedupKey) :
    (incrementAckCount t id).holder k =
      (t.holder k).map fun r => if decide (r.id = id) then bumpAck r else r :=
  t.holder_modify (fun r => r.id = id) bumpAck (fun _ => rfl) (fun _ => rfl) k

/-- The reconciled row keeps its index entry. -/
theorem holder_reconciledMessages {t : MessageTable} {k : DedupKey} {r : MessageRow}
    (o : Observation) (h : t.holder k = some r) :
    (reconciledMessages t r o).holder k = some (observedRow o r) := by
  have hpath : (o.entry.elim t (addPath t r.id)).holder k =
      some (o.entry.elim r fun p => appendPath p r) := by
    cases o.entry <;> simp [holder_addPath, h]
  have hid : (o.entry.elim r fun p => appendPath p r).id = r.id := by
    cases o.entry <;> rfl
  simp only [reconciledMessages, observedRow]
  split
  · simp [holder_incrementAckCount, hpath, hid]
  · exact hpath

end Reconcile

end RemoteTerm
