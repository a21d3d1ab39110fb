import Mathlib
import RemoteTerm.Frontend.UnreadSnapshots

/-!
# Unread state between the browser and the server

The server stores messages and sends an event for each, answers `/unreads` and
sets read marks; the browser counts events, takes answers, and asks for a mark
when a conversation is opened. All of this is under way at once.

## Implementation notes

Events arrive in order. An answer is made from the tables at one moment and
arrives later. The settings and the rows of channels and contacts stay as they
are, and a request to the server does not fail. Whether the list of messages takes
a message as new is left open.
-/

namespace RemoteTerm

open Library

/-- A conversation: its type and its key. -/
abbrev Conversation := MessageType × Text

/-- The state key of a conversation. -/
def stateKeyOf (c : Conversation) : Text := conversationStateKey c.1 c.2

/-- The conversation of a message. -/
def MessageRow.conversation (m : MessageRow) : Conversation := (m.type, m.conversationKey)

/-- The settings that both sides filter by; `canonicalize` is how a regular expression with
the flag `i` compares characters. -/
structure UnreadSettings where
  name : Option Text
  blockedKeys : List Text
  blockedNames : List Text
  canonicalize : Char → Char

namespace UnreadSettings

variable (settings : UnreadSettings)

/-- `isMessageBlocked`. -/
def isMessageBlocked (m : MessageRow) : Bool :=
  !m.outgoing &&
    (m.type = .priv && decide (lower m.conversationKey ∈ settings.blockedKeys) ||
      m.type = .chan && (m.senderKey.any fun k =>
        !k.isEmpty && decide (lower k ∈ settings.blockedKeys)) ||
      m.senderName.any fun n => !n.isEmpty && decide (n ∈ settings.blockedNames))

/-- `messageContainsMention`. -/
def messageContainsMention (text : Text) : Bool :=
  match truthy settings.name with
  | none => false
  | some name => decide ((MessageRepository.mentionText name).map settings.canonicalize <:+:
      text.map settings.canonicalize)

/-- The server's clause of a message that is shown. -/
def Shown (m : MessageRow) : Prop :=
  MessageRepository.blockedIncomingClause settings.blockedKeys settings.blockedNames m = true

/-- A message that adds to a count. -/
def Incoming (m : MessageRow) : Prop := m.outgoing = false ∧ settings.Shown m

instance (m : MessageRow) : Decidable (settings.Shown m) :=
  inferInstanceAs (Decidable (_ = true))

instance (m : MessageRow) : Decidable (settings.Incoming m) :=
  inferInstanceAs (Decidable (_ ∧ _))

/-- The unread messages of a conversation. -/
def unread (db : UnreadTables) (c : Conversation) : List MessageRow :=
  db.unreadMessages settings.blockedKeys settings.blockedNames c.1 c.2

/-- The answer of `/unreads`. -/
def answer (db : UnreadTables) : UnreadAnswer :=
  db.getUnreadCounts settings.name settings.blockedKeys settings.blockedNames

end UnreadSettings

namespace UnreadTables

variable (db : UnreadTables)

/-- A message is stored. -/
def insert (m : MessageRow) (h : m.id ∉ db.messages.map MessageRow.id) : UnreadTables :=
  { db with
    messages := db.messages ++ [m]
    messageIds := by
      rw [List.map_append]
      refine List.nodup_append.mpr ⟨db.messageIds, List.nodup_singleton _, ?_⟩
      intro a ha b hb heq
      rw [List.map_singleton, List.mem_singleton] at hb
      exact h (hb ▸ heq ▸ ha) }

/-- `isMutedChannel`. -/
def isMutedChannel (m : MessageRow) : Bool :=
  m.type = .chan && !m.conversationKey.isEmpty &&
    db.channels.any fun c => decide (c.key = m.conversationKey) && decide (c.muted.getD 0 ≠ 0)

/-- `_resolve_contact_or_404`: the contact of the key, or the only one with this prefix. A key is
hexadecimal, so `LIKE` meets no wildcard in it. -/
def resolveContact (key : Text) : Option ContactReadState :=
  match db.contacts.find? fun ct => ct.publicKey = lower key with
  | some ct => some ct
  | none =>
      match db.contacts.filter fun ct => lower key <+: lower ct.publicKey with
      | [ct] => some ct
      | _ => none

/-- The row that a request to mark a conversation as read goes to. -/
def markTarget (c : Conversation) : Option Text :=
  match c.1 with
  | .chan => (db.channels.find? fun ch => ch.key = upper c.2).map ChannelReadState.key
  | .priv => (db.resolveContact c.2).map fun ct => lower ct.publicKey

/-- A conversation with a row of its own. -/
def HasRow (c : Conversation) : Prop :=
  match c.1 with
  | .chan => ∃ ch ∈ db.channels, ch.key = c.2
  | .priv => ∃ ct ∈ db.contacts, ct.publicKey = c.2

/-- A channel row that is marked, if it has the key. -/
def markChannel (key : Text) (now : Int) (ch : ChannelReadState) : ChannelReadState :=
  if ch.key = key then { ch with lastReadAt := some now } else ch

/-- A contact row that is marked, if it has the key. -/
def markContact (key : Text) (now : Int) (ct : ContactReadState) : ContactReadState :=
  if ct.publicKey = key then { ct with lastReadAt := some now } else ct

@[simp]
theorem markChannel_key (key : Text) (now : Int) (ch : ChannelReadState) :
    (markChannel key now ch).key = ch.key := by
  unfold markChannel
  split <;> rfl

@[simp]
theorem markChannel_muted (key : Text) (now : Int) (ch : ChannelReadState) :
    (markChannel key now ch).muted = ch.muted := by
  unfold markChannel
  split <;> rfl

@[simp]
theorem markContact_publicKey (key : Text) (now : Int) (ct : ContactReadState) :
    (markContact key now ct).publicKey = ct.publicKey := by
  unfold markContact
  split <;> rfl

/-- `update_last_read_at`. -/
def updateLastReadAt (type : MessageType) (key : Text) (now : Int) : UnreadTables :=
  match type with
  | .chan =>
      { db with
        channels := db.channels.map (markChannel key now)
        channelKeys := by
          have hkeys : db.channels.map (ChannelReadState.key ∘ markChannel key now) =
              db.channels.map ChannelReadState.key :=
            List.map_congr_left fun ch _ => markChannel_key key now ch
          rw [List.map_map, hkeys]
          exact db.channelKeys }
  | .priv =>
      { db with
        contacts := db.contacts.map (markContact key now)
        contactKeys := by
          have hkeys : db.contacts.map (ContactReadState.publicKey ∘ markContact key now) =
              db.contacts.map ContactReadState.publicKey :=
            List.map_congr_left fun ct _ => markContact_publicKey key now ct
          rw [List.map_map, hkeys]
          exact db.contactKeys }

/-- `mark_channel_read` and `mark_contact_read`. -/
def markRead (c : Conversation) (now : Int) : UnreadTables :=
  match db.markTarget c with
  | none => db
  | some key => db.updateLastReadAt c.1 key now

end UnreadTables

/-- The server's tables, the browser, and what is under way between them. -/
structure UnreadTraffic where
  db : UnreadTables
  client : UnreadState := {}
  openConversation : Option Conversation := none
  events : List MessageRow := []
  answers : List (Option UnreadTables) := [none]
  marks : List Conversation := []
  loaded : Bool := false

/-- What happens next. -/
inductive UnreadAction where
  | store (m : MessageRow)
  | deliver (isNewMessage : Bool) (now : Int)
  | openConversation (c : Conversation)
  | leave
  | markRead (i : Nat) (now : Int)
  | request
  | answer (i : Nat)
  | receive (i : Nat) (markOpen : Bool)

namespace UnreadTraffic

variable (settings : UnreadSettings) (s : UnreadTraffic)

/-- `onMessage`, as far as it goes into the unread state. -/
def onMessage (m : MessageRow) (isNewMessage : Bool) (now : Int) : UnreadState :=
  if settings.isMessageBlocked m then s.client
  else if s.db.isMutedChannel m then s.client
  else
    s.client.recordMessageEvent m isNewMessage (settings.messageContainsMention m.text) now

/-- The state after an action. The first answer is that of the load at start; a later one
marks the open conversation as read again. -/
def apply : UnreadAction → UnreadTraffic
  | .store m =>
      if h : m.id ∈ s.db.messages.map MessageRow.id then s
      else { s with db := s.db.insert m h, events := s.events ++ [m] }
  | .deliver isNewMessage now =>
      match s.events with
      | [] => s
      | m :: rest =>
          { s with client := s.onMessage settings m isNewMessage now, events := rest }
  | .openConversation c =>
      if s.openConversation = some c then s
      else
        { s with
          client := s.client.markRead (stateKeyOf c)
          openConversation := some c
          marks := s.marks ++ [c] }
  | .leave => { s with client := { s.client with activeKey := none }, openConversation := none }
  | .markRead i now =>
      match s.marks[i]? with
      | none => s
      | some c => { s with db := s.db.markRead c now, marks := s.marks.eraseIdx i }
  | .request => { s with answers := s.answers ++ [none] }
  | .answer i =>
      match s.answers[i]? with
      | some none => { s with answers := s.answers.set i (some s.db) }
      | _ => s
  | .receive i markOpen =>
      match s.answers[i]? with
      | some (some t) =>
          { s with
            client := s.client.applyUnreads
              (t.snapshot settings.name settings.blockedKeys settings.blockedNames)
            answers := s.answers.eraseIdx i
            marks := if markOpen then s.marks ++ s.openConversation.toList else s.marks
            loaded := true }
      | _ => s

/-- The events of a conversation that add to its count. -/
def pendingOf (c : Conversation) : List MessageRow :=
  s.events.filter fun m => m.conversation = c ∧ settings.Incoming m

/-- The events of a conversation that are shown. -/
def shownOf (c : Conversation) : List MessageRow :=
  s.events.filter fun m => m.conversation = c ∧ settings.Shown m

/-- Nothing is under way. -/
structure Quiet : Prop where
  events : s.events = []
  answers : s.answers = []
  marks : s.marks = []

/-- **What the browser shows is what the server would answer**: the counts and mentions of the
counted conversations that are not open, with each unread message counted once, and the time of
the last message of every conversation. -/
structure AgreesWithServer : Prop where
  count : ∀ c, s.db.Counted c.1 c.2 → s.openConversation ≠ some c →
    s.client.count (stateKeyOf c) = ((settings.answer s.db).counts (stateKeyOf c)).getD 0
  mention : ∀ c, s.db.Counted c.1 c.2 → s.openConversation ≠ some c →
    (s.client.mentions (stateKeyOf c)).getD false =
      ((settings.answer s.db).mentions (stateKeyOf c)).getD false
  once : ∀ c, s.db.Counted c.1 c.2 → s.openConversation ≠ some c →
    (s.client.countedMessages (stateKeyOf c)).Perm (settings.unread s.db c)
  lastTime : ∀ c, s.client.lastMessageTimes (stateKeyOf c) =
    (settings.answer s.db).lastMessageTimes (stateKeyOf c)

/-- A message that both sides treat alike: they agree on whether it is blocked, and, if it is
shown, it belongs to a counted conversation, it is not older than what is shown of it, and they
agree on whether it mentions the user. -/
structure TreatedAlike (m : MessageRow) : Prop where
  blocked : settings.isMessageBlocked m = false ↔ settings.Shown m
  counted : settings.Shown m → s.db.Counted m.type m.conversationKey
  keyed : settings.Shown m → m.conversationKey ≠ []
  stamped : settings.Shown m → m.receivedAt ≠ 0
  mention : settings.Incoming m →
    settings.messageContainsMention m.text = UnreadTables.mentionClause settings.name m

/-- A conversation that is left: no event of it is under way that would be counted, and the server
has nothing unread in it, or its read mark is under way. -/
def LeftRead : Prop :=
  ∀ c ∈ s.openConversation, s.pendingOf settings c = [] ∧
    (c ∈ s.marks ∨ settings.unread s.db c = [])

/-- The steps after which the browser can agree with the server. -/
def InStep : UnreadAction → Prop
  | .store m => s.TreatedAlike settings m ∧
      (settings.Shown m → ∀ n ∈ s.db.shownMessages settings.blockedKeys settings.blockedNames
        m.type m.conversationKey, n.receivedAt ≤ m.receivedAt) ∧
      (settings.Incoming m → s.openConversation ≠ some m.conversation →
        m.conversation ∉ s.marks ∧ s.db.lastReadMark m.type m.conversationKey < m.receivedAt)
  | .deliver isNewMessage _ => ∀ m ∈ s.events.head?, settings.Incoming m →
      s.openConversation ≠ some m.conversation → isNewMessage = true
  | .openConversation c => s.openConversation ≠ some c → s.LeftRead settings
  | .leave => s.LeftRead settings
  | .markRead i now => ∀ c, s.marks[i]? = some c →
      (∀ key ∈ s.db.markTarget c, key = c.2) ∧
      (s.openConversation ≠ some c → s.db.markTarget c = some c.2 ∧ s.db.HasRow c ∧
        ∀ m ∈ s.db.messagesOf c.1 c.2, m.receivedAt ≤ now)
  | .receive i _ => ∀ t, s.answers[i]? = some (some t) →
      (∀ c, s.db.Counted c.1 c.2 → s.openConversation ≠ some c →
        (settings.unread t c ++ s.pendingOf settings c).Perm (settings.unread s.db c) ∧
          (c ∈ s.marks → settings.unread t c = [] ∧ s.pendingOf settings c = [])) ∧
      ∀ c, s.shownOf settings c = [] → (settings.answer t).lastMessageTimes (stateKeyOf c) =
        (settings.answer s.db).lastMessageTimes (stateKeyOf c)
  | _ => True

end UnreadTraffic

end RemoteTerm
