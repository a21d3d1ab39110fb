import Mathlib
import RemoteTerm.Frontend.MessageIdentity
import RemoteTerm.Library.OrderedMap
import RemoteTerm.Repository.Pagination

/-!
# The conversation message cache

The messages of the conversations that were open last, with the content keys
that recognise repeats. An entry that grows past its limit keeps the messages
that arrived last; the cache itself drops the conversation that was used first.

## Implementation notes

A JavaScript `Map` iterates in insertion order; deleting and setting a key moves
it to the end. The content keys of an entry are those of its messages in every
method, which the entry carries as a field.
-/

namespace RemoteTerm

open Library

namespace Message

/-- The content key of a message. -/
def contentKey (m : Message) : Text := getMessageContentKey m.toMessageRow

/-- The ack count raised to a reported one, with the paths and the packet that were reported. -/
def withAck (m : Message) (ackCount : Nat) (paths : Option (List MessagePath))
    (packetId : Option (Option Nat)) : Message :=
  { m with
    acked := max m.acked ackCount
    paths := paths.elim m.paths fun p => some p
    packetId := packetId.getD m.packetId }

@[simp] theorem withAck_id (m : Message) (ackCount : Nat) (paths : Option (List MessagePath))
    (packetId : Option (Option Nat)) : (m.withAck ackCount paths packetId).id = m.id := rfl

@[simp] theorem withAck_acked (m : Message) (ackCount : Nat) (paths : Option (List MessagePath))
    (packetId : Option (Option Nat)) :
    (m.withAck ackCount paths packetId).acked = max m.acked ackCount := rfl

@[simp] theorem withAck_contentKey (m : Message) (ackCount : Nat)
    (paths : Option (List MessagePath)) (packetId : Option (Option Nat)) :
    (m.withAck ackCount paths packetId).contentKey = m.contentKey := rfl

/-- `message.paths?.length ?? 0`. -/
def pathsLen (m : Message) : Nat := (m.paths.map List.length).getD 0

/-- The reported paths, unless the message already has more. -/
def longerPaths (m : Message) (paths : Option (List MessagePath)) : Option (List MessagePath) :=
  paths.filter fun p => decide (m.pathsLen ≤ p.length)

end Message

/-- `MAX_CACHED_CONVERSATIONS`. -/
def maxCachedConversations : Nat := 20

/-- `MAX_MESSAGES_PER_ENTRY`. -/
def maxMessagesPerEntry : Nat := 200

/-- `CachedConversationEntry`. -/
structure CachedConversationEntry where
  messages : List Message
  hasOlderMessages : Bool

/-- `InternalCachedConversationEntry`. -/
structure InternalCachedConversationEntry extends CachedConversationEntry where
  contentKeys : List Text
  keyed : contentKeys = messages.map Message.contentKey

/-- Replace the first message with a rowid. -/
def replaceMessage (messages : List Message) (id : Nat) (f : Message → Message) : List Message :=
  match messages with
  | [] => []
  | m :: rest => if m.id = id then f m :: rest else m :: replaceMessage rest id f

theorem replaceMessage_map {β : Type} {g : Message → β} {f : Message → Message}
    (hf : ∀ m, g (f m) = g m) (messages : List Message) (id : Nat) :
    (replaceMessage messages id f).map g = messages.map g := by
  induction messages with
  | nil => rfl
  | cons m rest ih =>
      unfold replaceMessage
      split
      · simp only [List.map_cons, hf]
      · simp only [List.map_cons, ih]

/-- `ConversationMessageCache`. -/
abbrev ConversationMessageCache := OrderedMap Text InternalCachedConversationEntry

namespace ConversationMessageCache

/-- `normalizeEntry`. -/
def normalizeEntry (entry : CachedConversationEntry) : InternalCachedConversationEntry :=
  if maxMessagesPerEntry < entry.messages.length then
    let messages :=
      (entry.messages.mergeSort fun a b => decide (b.receivedAt ≤ a.receivedAt)).take
        maxMessagesPerEntry
    ⟨⟨messages, true⟩, messages.map Message.contentKey, rfl⟩
  else ⟨entry, entry.messages.map Message.contentKey, rfl⟩

variable (cache : ConversationMessageCache)

/-- Drop the conversation that was used first, when there are too many. -/
def evict : ConversationMessageCache :=
  if maxCachedConversations < cache.size then
    match cache.entries.head? with
    | some (lruKey, _) => cache.pop lruKey
    | none => cache
  else cache

/-- `get`. -/
def get (id : Text) : Option CachedConversationEntry × ConversationMessageCache :=
  match cache.get? id with
  | none => (none, cache)
  | some entry => (some entry.toCachedConversationEntry, (cache.pop id).set id entry)

/-- The `set` of the cache. -/
def store (id : Text) (entry : CachedConversationEntry) : ConversationMessageCache :=
  evict ((cache.pop id).set id (normalizeEntry entry))

/-- `addMessage`: whether the message was new. -/
def addMessage (id : Text) (msg : Message) : Bool × ConversationMessageCache :=
  match cache.get? id with
  | none => (true, evict (cache.set id ⟨⟨[msg], true⟩, [msg.contentKey], rfl⟩))
  | some entry =>
      if msg.contentKey ∈ entry.contentKeys then (false, cache)
      else if msg.id ∈ entry.messages.map fun m => m.id then (false, cache)
      else
        (true, (cache.pop id).set id
          (normalizeEntry ⟨entry.messages ++ [msg], entry.hasOlderMessages⟩))

/-- The entry after an ack of one of its messages. -/
def ackEntry (entry : InternalCachedConversationEntry) (messageId ackCount : Nat)
    (paths : Option (List MessagePath)) (packetId : Option (Option Nat)) :
    InternalCachedConversationEntry where
  messages := replaceMessage entry.messages messageId fun m =>
    m.withAck ackCount (m.longerPaths paths) packetId
  hasOlderMessages := entry.hasOlderMessages
  contentKeys := entry.contentKeys
  keyed := entry.keyed.trans (replaceMessage_map (fun m => m.withAck_contentKey ..) ..).symm

/-- `updateAck`: in the first conversation that holds the message. -/
def updateAck (messageId ackCount : Nat) (paths : Option (List MessagePath))
    (packetId : Option (Option Nat)) : ConversationMessageCache :=
  match cache.entries.find? fun e => e.2.messages.any fun m => m.id = messageId with
  | none => cache
  | some (id, entry) => cache.set id (ackEntry entry messageId ackCount paths packetId)

/-- The messages of the renamed conversation behind those that the new key has. -/
def mergeRenamed (newMessages oldMessages : List Message) : List Message :=
  match oldMessages with
  | [] => newMessages
  | m :: rest =>
      if m.id ∈ newMessages.map fun n => n.id then mergeRenamed newMessages rest
      else mergeRenamed (newMessages ++ [m]) rest

/-- `rename`. -/
def rename (oldId newId : Text) : ConversationMessageCache :=
  if oldId = newId then cache
  else
    match cache.get? oldId with
    | none => cache
    | some oldEntry =>
        match cache.get? newId with
        | none => (cache.pop oldId).set newId oldEntry
        | some newEntry =>
            (cache.pop oldId).set newId
              (normalizeEntry ⟨mergeRenamed newEntry.messages oldEntry.messages,
                newEntry.hasOlderMessages || oldEntry.hasOlderMessages⟩)

end ConversationMessageCache

end RemoteTerm
