import Mathlib
import RemoteTerm.Library.Grouping
import RemoteTerm.Repository.Pagination

/-!
# The query of the unread counts

`get_unread_counts` with its statements: the unread messages of the channels and
of the direct conversations, the last read marks, and the last message of each
conversation by a recursive skip scan.

## Implementation notes

A statement is a list of rows, with `GROUP BY` and dictionaries from the library.
Text columns compare by code points, as SQLite compares their bytes in UTF-8. The
tables are lists under their primary keys.
-/

namespace RemoteTerm

open Library

/-- The columns of `channels` that the query reads. -/
structure ChannelReadState where
  key : Text
  lastReadAt : Option Int := none
  muted : Option Int := some 0

/-- The columns of `contacts` that the query reads. -/
structure ContactReadState where
  publicKey : Text
  lastReadAt : Option Int := none

/-- The tables under the query. -/
structure UnreadTables where
  messages : List MessageRow
  channels : List ChannelReadState
  contacts : List ContactReadState
  messageIds : (messages.map MessageRow.id).Nodup
  channelKeys : (channels.map ChannelReadState.key).Nodup
  contactKeys : (contacts.map ContactReadState.publicKey).Nodup

/-- The answer of the query; a value that may be null is an option. -/
structure UnreadAnswer where
  counts : Text → Option Nat
  mentions : Text → Option Bool
  lastMessageTimes : Text → Option Int
  lastReadAts : Text → Option (Option Int)
  firstUnreadIds : Text → Option (Option Nat)

/-- A row of the two statements that count. -/
structure UnreadRow where
  conversationKey : Text
  unreadCount : Nat
  hasMention : Bool
  firstUnreadId : Option Nat

/-- The prefix of the state keys of a type. -/
def MessageType.statePrefix : MessageType → Text
  | .chan => "channel-".toList
  | .priv => "contact-".toList

/-- The state key of a conversation. -/
def conversationStateKey (type : MessageType) (conversationKey : Text) : Text :=
  type.statePrefix ++ conversationKey

namespace UnreadTables

variable (db : UnreadTables) (name : Option Text) (blockedKeys blockedNames : List Text)

/-- `mention_token`. -/
def mentionToken : Option Text := (truthy name).map MessageRepository.mentionText

/-- `has_mention` of one message; an absent token is an empty parameter. -/
def mentionClause (m : MessageRow) : Bool :=
  let token := (mentionToken name).getD []
  !token.isEmpty && decide (lower token <:+: lower m.text)

/-- The `WHERE` clause of an unread message, with the mark of its conversation. -/
def unreadClause (lastReadAt : Option Int) (m : MessageRow) : Bool :=
  !m.outgoing && decide (lastReadAt.getD 0 < m.receivedAt) &&
    MessageRepository.blockedIncomingClause blockedKeys blockedNames m

/-- `first_unread_sql`. -/
def firstUnread (type : MessageType) (key : Text) (lastReadAt : Option Int) : Option Nat :=
  let rows := db.messages.filter fun f =>
    f.type = type && f.conversationKey = key && unreadClause blockedKeys blockedNames lastReadAt f
  ((orderBy MessageRow.cursor rows).take 1).head?.map MessageRow.id

/-- The `CROSS JOIN` of the channels with their unread messages. -/
def channelJoin : List (ChannelReadState × MessageRow) :=
  (db.channels.flatMap fun c => db.messages.map fun m => (c, m)).filter fun row =>
    row.2.type = .chan && row.2.conversationKey = row.1.key && row.1.muted.getD 0 = 0 &&
      unreadClause blockedKeys blockedNames row.1.lastReadAt row.2

/-- The unread messages of the channels, `GROUP BY c.key`. -/
def channelUnreads : List UnreadRow :=
  (groupRows (fun row => row.1.key) (db.channelJoin blockedKeys blockedNames)).map
    fun (key, group) =>
    { conversationKey := key
      unreadCount := group.length
      hasMention := group.any fun row => mentionClause name row.2
      firstUnreadId := db.firstUnread blockedKeys blockedNames .chan key
        (group.head?.bind fun row => row.1.lastReadAt) }

/-- The contacts that a message joins; a message without one joins `NULL`. -/
def joinContacts (m : MessageRow) : List (Option ContactReadState) :=
  match db.contacts.filter fun ct => ct.publicKey = m.conversationKey with
  | [] => [none]
  | cts => cts.map some

/-- The `LEFT JOIN` of the unread direct messages with the contacts. -/
def contactJoin : List (MessageRow × Option ContactReadState) :=
  (db.messages.flatMap fun m => (db.joinContacts m).map fun ct => (m, ct)).filter fun row =>
    row.1.type = .priv &&
      unreadClause blockedKeys blockedNames (row.2.bind ContactReadState.lastReadAt) row.1

/-- The unread direct messages, `GROUP BY m.conversation_key`. -/
def contactUnreads : List UnreadRow :=
  (groupRows (fun row => row.1.conversationKey) (db.contactJoin blockedKeys blockedNames)).map
    fun (key, group) =>
    { conversationKey := key
      unreadCount := group.length
      hasMention := group.any fun row => mentionClause name row.1
      firstUnreadId := db.firstUnread blockedKeys blockedNames .priv key
        (group.head?.bind fun row => row.2.bind ContactReadState.lastReadAt) }

/-- The conversations of the skip scan: each type, and each key of the type. -/
def conversations : List (MessageType × Text) :=
  (skipScan (db.messages.map fun m => m.type.column)).flatMap fun column =>
    (skipScan ((db.messages.filter fun m => m.type.column = column).map
      MessageRow.conversationKey)).map fun key =>
        (if column = MessageType.chan.column then .chan else .priv, key)

/-- `last_message_time` of a conversation. -/
def lastMessageTime (type : MessageType) (key : Text) : Option Int :=
  let rows := db.messages.filter fun m => m.type = type && m.conversationKey = key &&
    MessageRepository.blockedIncomingClause blockedKeys blockedNames m
  ((MessageRepository.newestFirst rows).take 1).head?.map MessageRow.receivedAt

/-- The rows of the two statements that count, with their state keys. -/
def unreadRows : List (Text × UnreadRow) :=
  (db.channelUnreads name blockedKeys blockedNames).map (fun row =>
      (conversationStateKey .chan row.conversationKey, row)) ++
    (db.contactUnreads name blockedKeys blockedNames).map fun row =>
      (conversationStateKey .priv row.conversationKey, row)

/-- The conversations with a last message, and its time. -/
def lastTimes : List (Text × Int) :=
  db.conversations.filterMap fun conversation =>
    (db.lastMessageTime blockedKeys blockedNames conversation.1 conversation.2).map fun time =>
      (conversationStateKey conversation.1 conversation.2, time)

/-- `get_unread_counts`. -/
def getUnreadCounts : UnreadAnswer :=
  let rows := db.unreadRows name blockedKeys blockedNames
  let lastReadAts := toDict
    (db.channels.map (fun c => (conversationStateKey .chan c.key, c.lastReadAt)) ++
      db.contacts.map fun ct => (conversationStateKey .priv ct.publicKey, ct.lastReadAt))
  let lastMessageTimes := toDict (db.lastTimes blockedKeys blockedNames)
  { counts := toDict (rows.map fun row => (row.1, row.2.unreadCount))
    mentions := toDict ((rows.filter fun row =>
      (mentionToken name).isSome && row.2.hasMention).map fun row => (row.1, true))
    lastMessageTimes := lastMessageTimes
    lastReadAts := fun key => if (lastMessageTimes key).isSome then lastReadAts key else none
    firstUnreadIds := toDict (rows.map fun row => (row.1, row.2.firstUnreadId)) }

end UnreadTables

end RemoteTerm
