import Mathlib
import RemoteTerm.Frontend.ConversationMessages
import RemoteTerm.Library.Machine

/-!
# Acks of the shown messages

The server counts the acks of a message and reports each growth. The browser
shows the count of each message of the open conversation, which reaches it by
live reports, by reports that waited for their message, from the cache, and with
the pages that it fetches.

## Implementation notes

A response is an action with the rows of its page, and a request leaves no trace:
a page may arrive at any time, and belongs to a conversation. A state of React
and the reference that follows it, such as `messages` and `messagesRef`, are one
field. The state remembers the
greatest ack count of each message that was reported, or that the server had when
the browser started; the browser does not see it. Keys of channels and of
contacts differ, so a conversation is its key.
-/

namespace RemoteTerm

open Library

/-- `MESSAGE_PAGE_SIZE`. -/
def messagePageSize : Nat := 200

/-- A `message_acked` event. -/
structure AckEvent where
  messageId : Nat
  ackCount : Nat
  paths : Option (List MessagePath) := none
  packetId : Option (Option Nat) := none

/-- The hook, the counts of the server and the events that are on their way. -/
structure AckState where
  active : ActiveMessages := {}
  openId : Option Text := none
  hasOlder : Bool := false
  hasNewer : Bool := false
  cache : ConversationMessageCache := OrderedMap.empty
  serverAcked : Nat → Nat
  sent : List AckEvent := []
  delivered : Nat → Nat

/-- What happens to the shown acks. -/
inductive AckAction where
  | grow (ack : AckEvent)
  | deliver (i : Nat)
  | message (m : Message)
  | latest (conversationId : Text) (rows : List Message)
  | reconcile (conversationId : Text) (rows : List Message)
  | older (conversationId : Text) (rows : List Message)
  | newer (conversationId : Text) (rows : List Message)
  | around (conversationId : Text) (rows : List Message) (hasOlder hasNewer : Bool)
  | jumpToBottom
  | switch (conversationId : Option Text)
  | target (conversationId : Text)

namespace AckState

variable (s : AckState)

/-- The shown messages. -/
def messages : List Message := s.active.messages

/-- A new list with the content keys of its messages. -/
def showing (messages : List Message) (pendingAcks : PendingAcks) : AckState :=
  { s with active := ⟨messages, messages.map Message.contentKey, pendingAcks⟩ }

/-- `updateMessageAck`. -/
def updateMessageAck (a : AckEvent) : ActiveMessages :=
  if a.messageId ∈ s.messages.map fun m => m.id then
    { s.active with
      messages := replaceMessage s.messages a.messageId fun m =>
        m.withAck a.ackCount (m.longerPaths a.paths) a.packetId
      pendingAcks := s.active.pendingAcks.pop a.messageId }
  else
    { s.active with
      pendingAcks :=
        s.active.pendingAcks.setPendingAck a.messageId a.ackCount a.paths a.packetId }

/-- `receiveMessageAck`. -/
def receiveMessageAck (a : AckEvent) : AckState :=
  { s with
    active := s.updateMessageAck a
    cache := s.cache.updateAck a.messageId a.ackCount a.paths a.packetId
    delivered :=
      Function.update s.delivered a.messageId (max (s.delivered a.messageId) a.ackCount) }

/-- `observeMessage`. -/
def observeMessage (msg : Message) : AckState :=
  let (m, pendingAcks) := s.active.pendingAcks.applyPendingAck msg
  let active := { s.active with pendingAcks }
  if s.openId = some m.conversationKey then
    if s.hasNewer then { s with active }
    else { s with active := (active.appendActiveMessageIfNew m).2 }
  else { s with active, cache := (s.cache.addMessage m.conversationKey m).2 }

/-- A page that `reconcileConversationMessages` merges; `fetchLatestMessages` takes over the content
keys also of an unchanged list. -/
def takePage (rows : List Message) (always : Bool) : AckState :=
  let (fetched, pendingAcks) := s.active.pendingAcks.applyPendingAcks rows
  let shown : AckState :=
    match reconcileConversationMessages s.messages fetched with
    | some merged => s.showing merged pendingAcks
    | none =>
        if always then s.showing s.messages pendingAcks
        else { s with active := { s.active with pendingAcks } }
  { shown with hasOlder := decide (messagePageSize ≤ rows.length) }

/-- `fetchOlderMessages`. -/
def takeOlder (rows : List Message) : AckState :=
  let (fetched, pendingAcks) := s.active.pendingAcks.applyPendingAcks rows
  let merged := appendUniqueMessages s.messages fetched
  let shown : AckState :=
    if merged.length = s.messages.length then { s with active := { s.active with pendingAcks } }
    else s.showing merged pendingAcks
  { shown with hasOlder := decide (messagePageSize ≤ rows.length) }

/-- `fetchNewerMessages`. -/
def takeNewer (rows : List Message) : AckState :=
  let (fetched, pendingAcks) := s.active.pendingAcks.applyPendingAcks rows
  let newMessages := fetched.filter fun m => decide (m.contentKey ∉ s.active.seenMessageContent)
  { s with
    active :=
      { messages := s.messages ++ newMessages
        seenMessageContent := newMessages.map Message.contentKey ++ s.active.seenMessageContent
        pendingAcks }
    hasNewer := decide (messagePageSize ≤ rows.length) }

/-- The messages around a target. -/
def takeAround (rows : List Message) (hasOlder hasNewer : Bool) : AckState :=
  let (fetched, pendingAcks) := s.active.pendingAcks.applyPendingAcks rows
  { s.showing fetched pendingAcks with hasOlder, hasNewer }

/-- The list of the open conversation goes to the cache, unless newer messages are missing. -/
def cacheOpen : ConversationMessageCache :=
  match s.openId with
  | none => s.cache
  | some prevId =>
      if s.messages ≠ [] ∧ s.hasNewer = false then s.cache.store prevId ⟨s.messages, s.hasOlder⟩
      else s.cache

/-- The conversation-switch effect up to what it shows: the list that is left goes to the cache. -/
def leave (conversationId : Option Text) : AckState :=
  if s.openId = conversationId then s
  else { s with cache := s.cacheOpen, openId := conversationId, hasNewer := false }

/-- `setMessages([])`. -/
def clear : AckState := { s with active := { s.active with messages := [] } }

/-- The conversation-switch effect without a target message. -/
def switchTo (conversationId : Option Text) : AckState :=
  if s.openId = conversationId then s
  else
    match conversationId with
    | none => { (s.leave none).clear with hasOlder := false }
    | some newId =>
        match (s.leave (some newId)).cache.get newId with
        | (some cached, cache) =>
            { (s.leave (some newId)).showing cached.messages s.active.pendingAcks with
              cache
              hasOlder := cached.hasOlderMessages }
        | (none, _) => (s.leave (some newId)).clear

/-- `jumpToBottom` and `reloadCurrentConversation`, up to the request. -/
def jumpToBottom : AckState :=
  match s.openId with
  | none => s
  | some id => { s.clear with hasNewer := false, cache := s.cache.pop id }

/-- A response counts only for the open conversation. -/
def whenOpen (conversationId : Text) (next : AckState) : AckState :=
  if s.openId = some conversationId then next else s

/-- The state after an action. -/
def apply : AckAction → AckState
  | .grow a =>
      if s.serverAcked a.messageId < a.ackCount then
        { s with
          serverAcked := Function.update s.serverAcked a.messageId a.ackCount
          sent := s.sent ++ [a] }
      else s
  | .deliver i => (s.sent[i]?).elim s fun a =>
      { s.receiveMessageAck a with sent := s.sent.eraseIdx i }
  | .message m => s.observeMessage m
  | .latest conversationId rows => s.whenOpen conversationId (s.takePage rows true)
  | .reconcile conversationId rows => s.whenOpen conversationId (s.takePage rows false)
  | .older conversationId rows => s.whenOpen conversationId (s.takeOlder rows)
  | .newer conversationId rows => s.whenOpen conversationId (s.takeNewer rows)
  | .around conversationId rows hasOlder hasNewer =>
      s.whenOpen conversationId (s.takeAround rows hasOlder hasNewer)
  | .jumpToBottom => s.jumpToBottom
  | .switch conversationId => s.switchTo conversationId
  | .target conversationId => (s.leave (some conversationId)).clear

/-- The ack count that is shown for a message. -/
def shownAck (id : Nat) : Option Nat :=
  (s.messages.find? fun m => decide (m.id = id)).map fun m => m.acked

end AckState

end RemoteTerm
