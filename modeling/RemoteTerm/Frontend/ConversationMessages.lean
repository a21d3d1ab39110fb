import Mathlib
import RemoteTerm.Frontend.MessageCache

/-!
# The messages of the open conversation

The list that the browser shows, the content keys that it has seen, and the acks
that arrived before their message. New messages come from live events and from
pages of the server; both are compared with the seen keys.

## Implementation notes

The list, the seen keys and the pending acks are one record here. The seen keys
are a set of the source, and a list here whose membership is all that is used.
-/

namespace RemoteTerm

open Library

/-- `MAX_PENDING_ACKS`. -/
def maxPendingAcks : Nat := 500

/-- `PendingAckUpdate`. -/
structure PendingAckUpdate where
  ackCount : Nat
  paths : Option (List MessagePath) := none
  packetId : Option (Option Nat) := none
  deriving DecidableEq

/-- `mergePendingAck`. -/
def mergePendingAck (existing : Option PendingAckUpdate) (ackCount : Nat)
    (paths : Option (List MessagePath)) (packetId : Option (Option Nat)) : PendingAckUpdate :=
  match existing with
  | none => { ackCount, paths, packetId }
  | some existing =>
      if existing.ackCount < ackCount then
        { ackCount, paths := paths <|> existing.paths, packetId := packetId <|> existing.packetId }
      else if ackCount < existing.ackCount then existing
      else
        let packetIdChanged := packetId.isSome && decide (packetId ≠ existing.packetId)
        match paths with
        | none => if packetIdChanged then { existing with packetId } else existing
        | some p =>
            if (existing.paths.map List.length).all fun n => decide (n ≤ p.length) then
              { ackCount, paths := some p, packetId }
            else if packetIdChanged then { existing with packetId }
            else existing

/-- The pending acks in the order of their last update. -/
abbrev PendingAcks := OrderedMap Nat PendingAckUpdate

namespace PendingAcks

/-- `setPendingAck`. -/
def setPendingAck (acks : PendingAcks) (messageId ackCount : Nat)
    (paths : Option (List MessagePath)) (packetId : Option (Option Nat)) : PendingAcks :=
  let merged := mergePendingAck (acks.get? messageId) ackCount paths packetId
  let updated := (acks.pop messageId).set messageId merged
  if maxPendingAcks < updated.size then
    match updated.entries.head? with
    | some (oldestMessageId, _) => updated.pop oldestMessageId
    | none => updated
  else updated

/-- `applyPendingAck`: the message with its pending ack, which is used up. -/
def applyPendingAck (acks : PendingAcks) (m : Message) : Message × PendingAcks :=
  match acks.get? m.id with
  | none => (m, acks)
  | some pending =>
      (m.withAck pending.ackCount pending.paths pending.packetId, acks.pop m.id)

/-- `data.map((msg) => applyPendingAck(msg))`. -/
def applyPendingAcks (acks : PendingAcks) : List Message → List Message × PendingAcks
  | [] => ([], acks)
  | m :: rest =>
      let (m', acks') := applyPendingAck acks m
      let (rest', acks'') := applyPendingAcks acks' rest
      (m' :: rest', acks'')

end PendingAcks

/-- `reconcileConversationMessages`: `none` when the page says nothing new. -/
def reconcileConversationMessages (current fetched : List Message) : Option (List Message) :=
  let agrees := fun m : Message =>
    match current.reverse.find? fun c => c.id = m.id with
    | none => false
    | some c =>
        decide (c.acked = m.acked ∧ c.pathsLen = m.pathsLen ∧ c.text = m.text ∧
          c.packetId = m.packetId)
  if fetched.all agrees then none
  else some (fetched ++ current.filter fun m => decide (m.id ∉ fetched.map fun f => f.id))

section Append

/-- The messages that `appendUniqueMessages` adds, given the rowids and the keys seen so far. -/
def uniqueAdditions (seenIds : List Nat) (seenContent : List Text) : List Message → List Message
  | [] => []
  | m :: rest =>
      if m.id ∈ seenIds ∨ m.contentKey ∈ seenContent then uniqueAdditions seenIds seenContent rest
      else m :: uniqueAdditions (m.id :: seenIds) (m.contentKey :: seenContent) rest

/-- `appendUniqueMessages`. -/
def appendUniqueMessages (current incoming : List Message) : List Message :=
  current ++ uniqueAdditions (current.map fun m => m.id) (current.map Message.contentKey) incoming

/-- The list of the open conversation and the content keys it has seen. -/
structure ActiveMessages where
  messages : List Message := []
  seenMessageContent : List Text := []
  pendingAcks : PendingAcks := OrderedMap.empty

namespace ActiveMessages

/-- The bound of the seen keys. -/
def maxSeenContent : Nat := 1000

/-- Add a key to the seen ones; when they are too many, only those of the list are kept. -/
def noteContent (a : ActiveMessages) (contentKey : Text) : List Text :=
  if maxSeenContent < (contentKey :: a.seenMessageContent).length then
    contentKey :: a.messages.map Message.contentKey
  else contentKey :: a.seenMessageContent

/-- `appendActiveMessageIfNew`: whether the message was new. -/
def appendActiveMessageIfNew (a : ActiveMessages) (msg : Message) : Bool × ActiveMessages :=
  let (m, pendingAcks) := a.pendingAcks.applyPendingAck msg
  if m.contentKey ∈ a.seenMessageContent then (false, { a with pendingAcks })
  else
    (true,
      { messages := if m.id ∈ a.messages.map fun n => n.id then a.messages else a.messages ++ [m]
        seenMessageContent := a.noteContent m.contentKey
        pendingAcks })

end ActiveMessages

end Append

end RemoteTerm
