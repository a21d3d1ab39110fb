import RemoteTerm.Frontend.AckDisplay
import RemoteTerm.Library.Machine

/-!
# The loaded history of the open conversation

The browser shows a window of a conversation's messages. It grows by live events, by
pages of the newest messages that are merged after a reconnect and after a switch to a
cached conversation, by pages before and after it, and a jump replaces it.

## Implementation notes

A step is one event of the browser or of the server; what a step of the browser sets is
rendered before the next one. A request is answered at one time and handled at a later one.
The id of a conversation is a whole key, so a page selects the rows of just this key, and it
determines whether the conversation is a channel. Acks, block lists and renames are not part
of these runs, so an answer and an event show a message as it is stored. The first page that
is fetched ahead before the application starts is not modelled: opening a conversation asks for
its page. The seen keys and the merges are those of the modules before this one.
-/

namespace RemoteTerm

open Library

/-- The default of `context`. -/
def aroundContext : Nat := 100

/-! ### The answers of the server -/

/-- The messages of a conversation. -/
def conversationRows (rows : List Message) (id : Text) : List Message :=
  rows.filter fun m => m.conversationKey = id

/-- The newest messages of a list of rows first. -/
def newestRows (rows : List Message) : List Message :=
  orderBy (OrderDual.toDual ∘ Message.cursor) rows

/-- `getMessages` without a cursor. -/
def latestPage (rows : List Message) (id : Text) : List Message :=
  (newestRows (conversationRows rows id)).take messagePageSize

/-- `getMessages` with `before` and `before_id`. -/
def olderPage (rows : List Message) (id : Text) (before : Cursor) : List Message :=
  (newestRows ((conversationRows rows id).filter fun m => m.cursor < before)).take messagePageSize

/-- `getMessages` with `after` and `after_id`. -/
def newerPage (rows : List Message) (id : Text) (after : Cursor) : List Message :=
  (orderBy Message.cursor
    ((conversationRows rows id).filter fun m => after < m.cursor)).take messagePageSize

/-- An answer; the flags are those of `getMessagesAround`. -/
structure HistoryAnswer where
  messages : List Message
  hasOlder : Bool := false
  hasNewer : Bool := false

/-- `getMessagesAround`. -/
def aroundPage (rows : List Message) (id : Text) (messageId : Nat) : HistoryAnswer :=
  let rows := conversationRows rows id
  match rows.find? fun m => m.id = messageId with
  | none => { messages := [] }
  | some target =>
      let beforeRows :=
        (newestRows (rows.filter fun m => m.cursor < target.cursor)).take (aroundContext + 1)
      let afterRows :=
        (orderBy Message.cursor (rows.filter fun m => target.cursor < m.cursor)).take
          (aroundContext + 1)
      { messages := (beforeRows.take aroundContext).reverse ++ [target] ++
          afterRows.take aroundContext
        hasOlder := decide (beforeRows.length > aroundContext)
        hasNewer := decide (afterRows.length > aroundContext) }

/-! ### The browser -/

/-- What a request asks for, and what its handler has captured. -/
inductive HistoryRequestKind where
  | latest
  | reconcile (requestId : Nat)
  | older (before : Cursor) (fetchedFrom : List Message)
  | newer (after : Cursor)
  | around (messageId : Nat)

/-- A request: whether the next run of the effect aborts it, and its answer. -/
structure HistoryRequest where
  kind : HistoryRequestKind
  conversation : Text
  abortable : Bool := true
  answer : Option HistoryAnswer := none

/-- The server's table, the events under way, and the state of the hook. -/
structure HistoryState where
  rows : List Message := []
  connected : Bool := true
  events : List Message := []
  activeConversation : Option Text := none
  targetMessageId : Option Nat := none
  messages : List Message := []
  seenMessageContent : List Text := []
  hasOlderMessages : Bool := false
  hasNewerMessages : Bool := false
  cache : ConversationMessageCache := OrderedMap.empty
  requests : List HistoryRequest := []
  latestReconcileRequestId : Nat := 0
  pendingReconnectReconcile : Bool := false
  olderFetchedFrom : Option (List Message) := none

/-- A step of the server or of the browser. -/
inductive HistoryAction where
  | store (m : Message)
  | deliver
  | disconnect
  | reconnect
  | navigate (conversation : Option Text) (target : Option Nat)
  | loadOlder
  | loadNewer
  | answer (i : Nat)
  | receive (i : Nat)

/-- The message that comes first by its cursor. -/
def oldestOf : List Message → Option Message
  | [] => none
  | m :: rest =>
      match oldestOf rest with
      | none => some m
      | some o => if o.cursor < m.cursor then some o else some m

/-- The message that comes last by its cursor. -/
def newestOf : List Message → Option Message
  | [] => none
  | m :: rest =>
      match newestOf rest with
      | none => some m
      | some o => if m.cursor < o.cursor then some o else some m

namespace HistoryRequestKind

/-- A page before the window. -/
def isOlder : HistoryRequestKind → Bool
  | .older .. => true
  | _ => false

/-- A page after the window. -/
def isNewer : HistoryRequestKind → Bool
  | .newer _ => true
  | _ => false

/-- The window of a jump. -/
def isAround : HistoryRequestKind → Bool
  | .around _ => true
  | _ => false

end HistoryRequestKind

/-- What the server answers. -/
def HistoryRequest.answerOf (r : HistoryRequest) (rows : List Message) : HistoryAnswer :=
  match r.kind with
  | .latest => { messages := latestPage rows r.conversation }
  | .reconcile _ => { messages := latestPage rows r.conversation }
  | .older before _ => { messages := olderPage rows r.conversation before }
  | .newer after => { messages := newerPage rows r.conversation after }
  | .around messageId => aroundPage rows r.conversation messageId

namespace HistoryState

variable (s : HistoryState)

/-- `reconcileFromBackend`. -/
def reconcileFromBackend (id : Text) (abortable : Bool) : HistoryState :=
  { s with
    latestReconcileRequestId := s.latestReconcileRequestId + 1
    requests := s.requests ++
      [{ kind := .reconcile (s.latestReconcileRequestId + 1), conversation := id, abortable }] }

/-- `reconcileOnReconnect`. -/
def reconcileOnReconnect : HistoryState :=
  match s.activeConversation with
  | none => s
  | some id =>
      if s.hasNewerMessages then { s with pendingReconnectReconcile := true }
      else reconcileFromBackend { s with pendingReconnectReconcile := false } id false

/-- `observeMessage`. -/
def observeMessage (msg : Message) : HistoryState :=
  if s.activeConversation = some msg.conversationKey then
    if s.hasNewerMessages then s
    else
      let active : ActiveMessages :=
        { messages := s.messages, seenMessageContent := s.seenMessageContent }
      let next := (active.appendActiveMessageIfNew msg).2
      { s with messages := next.messages, seenMessageContent := next.seenMessageContent }
  else { s with cache := (s.cache.addMessage msg.conversationKey msg).2 }

/-- `fetchOlderMessages`, up to its request. -/
def fetchOlderMessages : HistoryState :=
  match s.activeConversation, oldestOf s.messages with
  | some id, some oldestMessage =>
      if s.requests.any (fun r => r.kind.isOlder) || !s.hasOlderMessages ||
          decide (s.olderFetchedFrom = some s.messages) then s
      else
        { s with requests := s.requests ++
            [{ kind := .older oldestMessage.cursor s.messages, conversation := id }] }
  | _, _ => s

/-- `fetchNewerMessages`, up to its request. -/
def fetchNewerMessages : HistoryState :=
  match s.activeConversation, newestOf s.messages with
  | some id, some newestMessage =>
      if s.requests.any (fun r => r.kind.isNewer) || !s.hasNewerMessages then s
      else
        { s with requests := s.requests ++
            [{ kind := .newer newestMessage.cursor, conversation := id }] }
  | _, _ => s

/-- What the run of the effect does first: aborts, and the new ids. -/
def abortRequests (conversation : Option Text) (target : Option Nat) : HistoryState :=
  { s with
    activeConversation := conversation
    targetMessageId := target
    requests := s.requests.filter fun r => !r.abortable
    latestReconcileRequestId := 0
    pendingReconnectReconcile := false }

/-- The cache with the conversation that is left. -/
def cacheLeft (conversation : Option Text) : ConversationMessageCache :=
  match s.activeConversation with
  | none => s.cache
  | some prevId =>
      if conversation ≠ some prevId ∧ s.messages ≠ [] ∧ s.hasNewerMessages = false then
        s.cache.store prevId ⟨s.messages, s.hasOlderMessages⟩
      else s.cache

/-- Open a conversation from its cache entry, or load it. -/
def openConversation (id : Text) : HistoryState :=
  match s.cache.get id with
  | (some cached, cache) =>
      reconcileFromBackend
        { s with
          cache
          messages := cached.messages
          seenMessageContent := cached.messages.map Message.contentKey
          hasOlderMessages := cached.hasOlderMessages } id true
  | (none, cache) =>
      { s with
        cache
        messages := []
        requests := s.requests ++ [{ kind := .latest, conversation := id }] }

/-- The effect on a change of the conversation or of the target. -/
def navigate (conversation : Option Text) (target : Option Nat) : HistoryState :=
  if conversation = s.activeConversation ∧ target = s.targetMessageId then s
  else
    let aborted := s.abortRequests conversation target
    if conversation = s.activeConversation ∧ target = none then aborted
    else
      let left :=
        { aborted with
          olderFetchedFrom := none
          hasNewerMessages :=
            if conversation = s.activeConversation then s.hasNewerMessages else false
          cache := s.cacheLeft conversation }
      match conversation, target with
      | none, _ => { left with messages := [], hasOlderMessages := false }
      | some id, some messageId =>
          { left with
            messages := []
            requests := left.requests ++ [{ kind := .around messageId, conversation := id }] }
      | some id, none => left.openConversation id

/-! ### The handlers of the answers -/

/-- The end of `fetchLatestMessages`. -/
def finishLatest (data : List Message) : HistoryState :=
  let nextMessages := (reconcileConversationMessages s.messages data).getD s.messages
  { s with
    messages := nextMessages
    seenMessageContent := nextMessages.map Message.contentKey
    hasOlderMessages := decide (messagePageSize ≤ data.length) }

/-- The end of `reconcileFromBackend`. -/
def finishReconcile (data : List Message) : HistoryState :=
  let s := { s with hasOlderMessages := decide (messagePageSize ≤ data.length) }
  match reconcileConversationMessages s.messages data with
  | none => s
  | some merged =>
      { s with messages := merged, seenMessageContent := merged.map Message.contentKey }

/-- The end of `fetchOlderMessages`. -/
def finishOlder (fetchedFrom data : List Message) : HistoryState :=
  let merged := appendUniqueMessages s.messages data
  { s with
    messages := merged
    seenMessageContent :=
      if merged = s.messages then s.seenMessageContent else merged.map Message.contentKey
    hasOlderMessages := decide (messagePageSize ≤ data.length)
    olderFetchedFrom := some fetchedFrom }

/-- The end of `fetchNewerMessages`. -/
def finishNewer (id : Text) (data : List Message) : HistoryState :=
  let newMessages := data.filter fun m => m.contentKey ∉ s.seenMessageContent
  let stillHasNewerMessages := decide (messagePageSize ≤ data.length)
  let next :=
    { s with
      messages := s.messages ++ newMessages
      seenMessageContent := newMessages.map Message.contentKey ++ s.seenMessageContent
      hasNewerMessages := stillHasNewerMessages }
  if !stillHasNewerMessages && s.pendingReconnectReconcile then
    reconcileFromBackend { next with pendingReconnectReconcile := false } id false
  else next

/-- The end of a jump. -/
def finishAround (answer : HistoryAnswer) : HistoryState :=
  { s with
    messages := answer.messages
    seenMessageContent := answer.messages.map Message.contentKey
    hasOlderMessages := answer.hasOlder
    hasNewerMessages := answer.hasNewer }

/-- An answer is handled, unless its conversation or its request is not the current one. -/
def handle (r : HistoryRequest) (answer : HistoryAnswer) : HistoryState :=
  if s.activeConversation ≠ some r.conversation then s
  else
    match r.kind with
    | .latest => s.finishLatest answer.messages
    | .reconcile requestId =>
        if s.latestReconcileRequestId ≠ requestId then s else s.finishReconcile answer.messages
    | .older _ fetchedFrom => s.finishOlder fetchedFrom answer.messages
    | .newer _ => s.finishNewer r.conversation answer.messages
    | .around _ => s.finishAround answer

/-- One step. -/
def apply : HistoryAction → HistoryState
  | .store m =>
      if m.id ∈ s.rows.map (fun r => r.id) then s
      else
        { s with
          rows := s.rows ++ [m]
          events := if s.connected then s.events ++ [m] else s.events }
  | .deliver =>
      match s.events with
      | [] => s
      | m :: rest => observeMessage { s with events := rest } m
  | .disconnect => { s with connected := false, events := [] }
  | .reconnect => if s.connected then s else reconcileOnReconnect { s with connected := true }
  | .navigate conversation target => s.navigate conversation target
  | .loadOlder => s.fetchOlderMessages
  | .loadNewer => s.fetchNewerMessages
  | .answer i =>
      match s.requests[i]? with
      | none => s
      | some r =>
          if r.answer.isSome then s
          else { s with requests := s.requests.set i { r with answer := some (r.answerOf s.rows) } }
  | .receive i =>
      match s.requests[i]? with
      | none => s
      | some r =>
          match r.answer with
          | none => s
          | some answer => handle { s with requests := s.requests.eraseIdx i } r answer

/-! ### What the browser should show -/

/-- No request is pending, the browser is connected and no event is under way. A reconnect
reconciles in its own step, so nothing is left to reconcile. -/
def Quiet : Prop := s.requests = [] ∧ s.connected = true ∧ s.events = []

/-- The loaded messages are a window of the conversation without a gap, and the flags tell
whether there are messages before and after it. -/
def Gapless (id : Text) : Prop :=
  (∀ m ∈ s.messages, m ∈ conversationRows s.rows id) ∧
  (∀ m ∈ conversationRows s.rows id, ∀ a ∈ s.messages, ∀ b ∈ s.messages,
    a.cursor < m.cursor → m.cursor < b.cursor → m ∈ s.messages) ∧
  (s.messages ≠ [] → (∃ m ∈ conversationRows s.rows id, ∀ a ∈ s.messages, m.cursor < a.cursor) →
    s.hasOlderMessages = true) ∧
  (s.messages ≠ [] → (∃ m ∈ conversationRows s.rows id, ∀ a ∈ s.messages, a.cursor < m.cursor) →
    s.hasNewerMessages = true)

/-! ### The steps after which no gap is left -/

/-- The page of a request is merged into the list when it is handled. -/
def accepts (r : HistoryRequest) : Bool :=
  decide (s.activeConversation = some r.conversation) &&
    match r.kind with
    | .latest => true
    | .reconcile requestId => decide (requestId = s.latestReconcileRequestId)
    | _ => false

/-- A page that was answered and is to be merged. -/
def Page (p : List Message) : Prop :=
  ∃ r ∈ s.requests, s.accepts r = true ∧ ∃ a, r.answer = some a ∧ a.messages = p

/-- A message that is loaded, or part of a page that is to be merged. -/
def Loaded (m : Message) : Prop := m ∈ s.messages ∨ ∃ p, s.Page p ∧ m ∈ p

/-- A page that is to be merged is still to be answered. -/
def Unanswered : Prop := ∃ r ∈ s.requests, s.accepts r = true ∧ r.answer = none

/-- A jump waits for its window. -/
def Jumping : Prop := ∃ r ∈ s.requests, r.kind.isAround = true

/-- **The condition of a step.** A message is stored behind the messages of its conversation,
with a content of its own. A delivered message that counts as seen is loaded or may still come.
During a jump from the end of a conversation the browser does not reconnect and no older page
is loaded, and a jump goes to a message of its conversation. The target is cleared when nothing
is to be merged. A page of the newest messages reaches back to all that is missing. An answer
that says that nothing is newer is handled while what was stored after it is under way. -/
def InStep : HistoryAction → Prop
  | .store m => ∀ r ∈ conversationRows s.rows m.conversationKey,
      r.cursor < m.cursor ∧ r.contentKey ≠ m.contentKey
  | .deliver => ∀ m ∈ s.events.head?, s.activeConversation = some m.conversationKey →
      s.hasNewerMessages = false → ¬ s.Jumping → m.contentKey ∈ s.seenMessageContent →
        s.Loaded m ∨ s.Unanswered
  | .reconnect => s.hasNewerMessages = false → ¬ s.Jumping
  | .navigate conversation target =>
      (conversation = s.activeConversation → target = none → s.targetMessageId ≠ none →
        (∀ r ∈ s.requests, s.accepts r = false) ∧ ¬ s.Jumping) ∧
      ∀ id ∈ conversation, ∀ messageId ∈ target,
        ∃ m ∈ conversationRows s.rows id, m.id = messageId
  | .loadOlder => s.hasNewerMessages = false → ¬ s.Jumping
  | .answer i => ∀ r ∈ s.requests[i]?, s.accepts r = true → s.connected = true →
      ∀ m ∈ conversationRows s.rows r.conversation, m ∉ s.events → ¬ s.Loaded m →
        ((∀ x, s.Loaded x → m.cursor < x.cursor) ∧ ∀ p, s.Page p → messagePageSize ≤ p.length) ∨
          m ∈ latestPage s.rows r.conversation
  | .receive i => ∀ r ∈ s.requests[i]?, ∀ a ∈ r.answer, s.connected = true →
      match r.kind with
      | .newer after => a.messages.length < messagePageSize →
          s.pendingReconnectReconcile = false →
            ∀ m ∈ conversationRows s.rows r.conversation, after < m.cursor →
              m ∉ a.messages → m ∈ s.events
      | .around _ => a.hasNewer = false →
          ∀ m ∈ conversationRows s.rows r.conversation, (∀ x ∈ a.messages, x.cursor < m.cursor) →
            m ∈ s.events
      | _ => True
  | .disconnect | .loadNewer => True

end HistoryState

end RemoteTerm
