import RemoteTerm.Send.ChannelScope
import RemoteTerm.Services.Messages

/-!
# Sending channel messages

`send_channel_message_to_channel`: under the radio lock a channel message is
given a timestamp, stored as sent and transmitted. A send that fails deletes its
row again, and every send gives its timestamp back at the end.

## Implementation notes

What happens on the radio during a scoped send does not touch the messages, so
its answers are the environment's. The task that watches for an echo transmits a
stored message again under its own timestamp and is left out.
-/

namespace RemoteTerm

open Library

/-- The calls of a task that sends channel messages or direct messages. -/
inductive SendOp where
  | app (op : Op)
  | transmit (op : ScopedOp)
  | deleteMessage (id : Nat)

/-- What each call answers. -/
@[reducible] def SendOp.Ans : SendOp → Type
  | .app op => op.Ans
  | .transmit op => op.Ans
  | .deleteMessage _ => Unit

/-- A task that sends messages. -/
abbrev SendTask (α : Type) := Program SendOp SendOp.Ans α

/-- A task of the process as a part of a send. -/
abbrev inApp {α : Type} (p : Task α) : SendTask α :=
  p.hoist fun (op : Op) => (Program.await (SendOp.app op) : SendTask op.Ans)

/-- A scoped send as a part of a send. -/
abbrev onAir {α : Type} (p : ScopedTask α) : SendTask α :=
  p.hoist fun (op : ScopedOp) => (Program.await (SendOp.transmit op) : SendTask op.Ans)

/-- What the environment supplies to one call of a send. -/
structure SendChoice where
  app : Choice := {}
  transmit : (op : ScopedOp) → op.Ans

/-- `delete_by_id`: raw packets that were linked to the message are unlinked. -/
def MessageRepository.deleteById (s : App) (id : Nat) : App :=
  { s with
    messages := s.messages.delete fun r => r.id = id
    rawPackets := s.rawPackets.modify (fun p => p.messageId = some id)
      (fun p => { p with messageId := none }) (fun _ => rfl) fun _ => rfl }

/-- Perform one call of a send. -/
def performSend (sha256 : Bytes → Bytes) (c : SendChoice) :
    (op : SendOp) → App → Option (op.Ans × App)
  | .app op, s => perform sha256 c.app op s
  | .transmit op, s => some (c.transmit op, s)
  | .deleteMessage id, s => some ((), MessageRepository.deleteById s id)

/-- The calls of sends, in any environment. -/
def sending (sha256 : Bytes → Bytes) : Program.Semantics SendOp SendOp.Ans App :=
  Program.Semantics.ofFunction (performSend sha256)

/-- `int.to_bytes(width, "little")` of a number that fits. -/
def littleEndianBytes : Nat → Nat → Bytes
  | 0, _ => []
  | width + 1, n => UInt8.ofNat (n % 256) :: littleEndianBytes width (n / 256)

/-- `sender_timestamp.to_bytes(4, "little")`, with `none` for an `OverflowError`. -/
def timestampBytes (senderTimestamp : Int) : Option Bytes :=
  if 0 ≤ senderTimestamp ∧ senderTimestamp < 2 ^ 32 then
    some (littleEndianBytes 4 senderTimestamp.toNat)
  else none

namespace ChannelSend

/-- The text as it is stored: with the radio's name, when it is known. -/
def textWithSender (c : ChannelSend) : Text :=
  if c.radioName ≠ [] then c.radioName ++ [':', ' '] ++ c.text else c.text

/-- The key under which the timestamp of the message is reserved. -/
def reservationKey (c : ChannelSend) : ReservationKey := ⟨.chan, c.channelKey, c.textWithSender⟩

/-- The message that is stored as sent. -/
def outgoing (c : ChannelSend) (senderTimestamp : Int) : OutgoingChannelMessage where
  conversationKey := c.channelKey
  text := c.textWithSender
  senderTimestamp := senderTimestamp
  receivedAt := c.sentAt
  senderName := nonEmpty c.radioName
  senderKey := c.publicKey.bind nonEmpty

end ChannelSend

/-- What the radio operation of a send leaves: its timestamp and row, if it got so far, and how
it ended. -/
structure ChannelTransmission where
  senderTimestamp : Option Int := none
  messageId : Option Nat := none
  outcome : ScopedOutcome

/-- Store and transmit under an allocated timestamp. -/
def storeAndTransmit (m : ManagerView) (c : ChannelSend) (senderTimestamp : Int) :
    SendTask ChannelTransmission :=
  match timestampBytes senderTimestamp with
  | none => pure ⟨some senderTimestamp, none, .raised⟩
  | some bytes => do
      let message ← inApp (createOutgoingChannelMessage (c.outgoing senderTimestamp))
      match message with
      | none => pure ⟨some senderTimestamp, none, .raised⟩
      | some message => do
          let outcome ← onAir (sendChannelMessageWithEffectiveScope m c bytes)
          pure ⟨some senderTimestamp, some message.1, outcome⟩

/-- The radio operation of `send_channel_message_to_channel`; `none` when the unrolled search for
a timestamp is used up. -/
def transmitChannelMessage (m : ManagerView) (c : ChannelSend) (rounds : Nat) :
    SendTask (Option ChannelTransmission) := do
  let grant ← inApp (await .acquireRadio)
  match grant with
  | .granted => do
      let allocated ← inApp (allocateOutgoingSenderTimestamp c.reservationKey rounds c.sentAt)
      match allocated with
      | none => do
          inApp (await .releaseRadio)
          pure none
      | some senderTimestamp => do
          let transmission ← storeAndTransmit m c senderTimestamp
          inApp (await .releaseRadio)
          pure (some transmission)
  | _ => pure (some { outcome := .raised })

/-- The handler of exceptions: the row of a send that failed is deleted. -/
def discardFailed (t : ChannelTransmission) : SendTask Unit :=
  match t.outcome, t.messageId with
  | .event true, some id | .raised, some id => Program.await (SendOp.deleteMessage id)
  | _, _ => pure ()

/-- The timestamp of a send is given back, however the send ended. -/
def releaseAllocated (c : ChannelSend) (t : ChannelTransmission) : SendTask Unit :=
  match t.senderTimestamp with
  | some senderTimestamp =>
      inApp (await (.releaseReservation c.reservationKey senderTimestamp))
  | none => pure ()

/-- How a channel send ends. -/
inductive ChannelSendResult where
  | raised
  | cancelled
  | allocating
  | stored (messageId : Nat)
  deriving DecidableEq

/-- What a send answers after its radio operation. -/
def finishChannelSend (t : ChannelTransmission) : SendTask ChannelSendResult :=
  match t.outcome, t.messageId with
  | .event false, some id => do
      let _ ← inApp (await (.getAckAndPaths id))
      let _ ← inApp (await .getSettings)
      pure (.stored id)
  | .cancelled, _ => pure .cancelled
  | _, _ => pure .raised

/-- `send_channel_message_to_channel`. -/
def sendChannelMessageToChannel (m : ManagerView) (c : ChannelSend) (rounds : Nat) :
    SendTask ChannelSendResult := do
  let transmission ← transmitChannelMessage m c rounds
  match transmission with
  | none => pure .allocating
  | some t => do
      discardFailed t
      releaseAllocated c t
      finishChannelSend t

end RemoteTerm
