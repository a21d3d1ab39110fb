import RemoteTerm.Decoder.Region
import RemoteTerm.Repository.Messages
import RemoteTerm.Services.App

/-!
# Filters on the messages table

The `WHERE` clauses that `MessageRepository` builds from a conversation key, a
search query, a mention and the blocked senders. A search query is free text
with operators `user:` and `channel:`, whose values may be quoted.

## Implementation notes

`contacts` and `channels` are joined on their primary keys, so a message has at
most one row of each. A clause is a Boolean function of a row; SQL's third truth
value arises only for a `NULL` name or sender key, and there the clauses are
false. Keys are hexadecimal, so letter case is changed on ASCII letters only.
-/

namespace RemoteTerm

open Library

/-- The text that the `type` column stores. -/
def MessageType.column : MessageType → Text
  | .priv => ['P', 'R', 'I', 'V']
  | .chan => ['C', 'H', 'A', 'N']

/-- A filter that Python takes as absent when it is empty. -/
def truthy (filter : Option Text) : Option Text := filter.filter fun s => !s.isEmpty

/-- `text LIKE pattern ESCAPE '\'`. -/
def likeEscaped : Text → Text → Bool
  | [], text => text.isEmpty
  | p :: pattern, text =>
      if p = '\\' then
        match pattern, text with
        | c :: pattern, d :: rest => (lowerChar d = lowerChar c) && likeEscaped pattern rest
        | _, _ => false
      else if p = '%' then text.tails.any (likeEscaped pattern)
      else
        match text with
        | [] => false
        | d :: rest => (p = '_' ∨ lowerChar d = lowerChar p) && likeEscaped pattern rest

namespace MessageRepository

/-- `_escape_like`. -/
def escapeLike (value : Text) : Text :=
  value.flatMap fun c => if c = '\\' ∨ c = '%' ∨ c = '_' then ['\\', c] else [c]

/-- `_looks_like_hex_prefix`. -/
def looksLikeHexPrefix (value : Text) : Bool := !value.isEmpty && isHex value

/-- `_normalize_conversation_key`: the clause on `conversation_key` that a key of a
contact, a key of a channel or a prefix selects by. -/
def matchesConversationKey (conversationKey column : Text) : Bool :=
  if conversationKey.length = 64 then column = lower conversationKey
  else if conversationKey.length = 32 then column = upper conversationKey
  else like (conversationKey ++ ['%']) column

section SearchQuery

/-- `_SearchQuery`. -/
structure SearchQuery where
  freeText : Text
  userTerms : List Text
  channelTerms : List Text
  deriving DecidableEq, Repr

/-- An operator of a search query: its keyword as written, and its raw value. -/
structure SearchOperator where
  keyword : Text
  rawValue : Text
  deriving DecidableEq, Repr

/-- A pattern letter under `re.IGNORECASE`; the long s also folds to `s`. -/
def ignoreCaseEq (letter c : Char) : Bool :=
  lowerChar c = letter ∨ letter = 's' ∧ c.toNat = 0x17f

/-- The text at the start that reads as a keyword and a colon, and what follows. -/
def keywordAt (keyword s : Text) : Option (Text × Text) :=
  let word := s.take keyword.length
  if word.length = keyword.length ∧ (keyword.zip word).all fun (l, c) => ignoreCaseEq l c then
    match s.drop keyword.length with
    | ':' :: rest => some (word, rest)
    | _ => none
  else none

/-- The raw value up to the closing quote, and what follows the quote. -/
def quotedValue : Text → Option (Text × Text)
  | [] => none
  | [c] => if c = '"' then some ([], []) else none
  | c :: d :: rest =>
      if c = '"' then some ([], d :: rest)
      else if c = '\\' then
        if d = '\n' then none
        else (quotedValue rest).map fun (v, r) => (c :: d :: v, r)
      else (quotedValue (d :: rest)).map fun (v, r) => (c :: v, r)

/-- The value of an operator: a quoted text, or else everything up to white space. -/
def operatorValue (s : Text) : Option (Text × Text) :=
  let bare :=
    let word := s.takeWhile fun c => !isWhitespace c
    if word.isEmpty then none else some (word, s.drop word.length)
  match s with
  | '"' :: rest => (quotedValue rest).or bare
  | _ => bare

/-- `_SEARCH_OPERATOR_RE` at the start of a text, and the length of the match. -/
def operatorAt (s : Text) : Option (SearchOperator × Nat) := do
  let (keyword, rest) ←
    (keywordAt ['u', 's', 'e', 'r'] s).or (keywordAt ['c', 'h', 'a', 'n', 'n', 'e', 'l'] s)
  let (rawValue, rest) ← operatorValue rest
  return (⟨keyword, rawValue⟩, s.length - rest.length)

/-- `finditer`: the fragments between the matches and the matches. `skip` characters of
the last match remain; a match starts only behind white space or at the start. -/
def findOperators (skip : Nat) (boundary : Bool) (fragment : Text) :
    Text → List Text × List SearchOperator
  | [] => ([fragment], [])
  | c :: rest =>
      match skip with
      | skip + 1 => findOperators skip (isWhitespace c) fragment rest
      | 0 =>
          match if boundary then operatorAt (c :: rest) else none with
          | some (op, length) =>
              let found := findOperators (length - 1) (isWhitespace c) [] rest
              (fragment :: found.1, op :: found.2)
          | none => findOperators 0 (isWhitespace c) (fragment ++ [c]) rest

/-- `str.replace` of a pair of characters by one. -/
def replacePair (a b out : Char) : Text → Text
  | x :: y :: rest =>
      if x = a ∧ y = b then out :: replacePair a b out rest
      else x :: replacePair a b out (y :: rest)
  | s => s

/-- `_unescape_search_quoted_value`. -/
def unescapeSearchQuotedValue (value : Text) : Text :=
  replacePair '\\' '\\' '\\' (replacePair '\\' '"' '"' value)

/-- `_parse_search_query`. -/
def parseSearchQuery (q : Text) : SearchQuery :=
  let (fragments, ops) := findOperators 0 true [] q
  let isUser := fun op : SearchOperator => decide (lower op.keyword = ['u', 's', 'e', 'r'])
  let values := fun ops : List SearchOperator =>
    ops.map fun op => unescapeSearchQuotedValue op.rawValue
  if ops.isEmpty then ⟨q, [], []⟩
  else
    { freeText := [' '].intercalate ((fragments.map strip).filter fun f => !f.isEmpty)
      userTerms := values (ops.filter isUser)
      channelTerms := values (ops.filter fun op => !isUser op) }

end SearchQuery

section Clauses

/-- `name = value COLLATE NOCASE`. -/
def nameMatches (name : Option Text) (value : Text) : Bool :=
  name.any fun n => decide (lower n = lower value)

/-- `_build_channel_scope_clause`, on the channel joined to the message. -/
def channelScopeClause (app : App) (value : Text) (r : MessageRow) : Bool :=
  r.type = .chan ∧
    (nameMatches ((app.channels.find? fun c => c.key = r.conversationKey).map Channel.name) value ∨
      looksLikeHexPrefix value ∧
        if value.length = 32 then r.conversationKey = upper value
        else likeEscaped (escapeLike (upper value) ++ ['%']) r.conversationKey)

/-- `_build_user_scope_clause`, on the contact joined to the message. -/
def userScopeClause (app : App) (value : Text) (r : MessageRow) : Bool :=
  let matchesKey := fun column : Text =>
    if value.length = 64 then decide (column = lower value)
    else likeEscaped (escapeLike (lower value) ++ ['%']) column
  let contact := app.contacts.rows.find? fun c => c.publicKey = r.conversationKey
  r.type = .priv ∧ nameMatches (contact.bind Contact.name) value ∨
    r.type = .chan ∧ nameMatches r.senderName value ∨
    looksLikeHexPrefix value ∧
      (r.type = .priv ∧ matchesKey r.conversationKey ∨
        r.type = .chan ∧ r.senderKey.any matchesKey)

/-- `_build_blocked_incoming_clause`: incoming messages of blocked senders are hidden. -/
def blockedIncomingClause (blockedKeys blockedNames : List Text) (r : MessageRow) : Bool :=
  !(!r.outgoing &&
    (r.type = .priv ∧ r.conversationKey ∈ blockedKeys ∨
      r.type = .chan ∧ r.senderKey.any (fun k => decide (k ∈ blockedKeys)) ∨
      r.senderName.any fun n => decide (n ∈ blockedNames)))

/-- `@[name]`, the text that mentions a radio. -/
def mentionText (name : Text) : Text := ['@', '['] ++ name ++ [']']

end Clauses

/-- The arguments by which both `get_all` and `get_around` select messages. -/
structure ConversationFilter where
  msgType : Option Text := none
  conversationKey : Option Text := none
  blockedKeys : List Text := []
  blockedNames : List Text := []

/-- The clauses that both methods build. -/
def ConversationFilter.selects (f : ConversationFilter) (r : MessageRow) : Bool :=
  blockedIncomingClause f.blockedKeys f.blockedNames r &&
    (truthy f.msgType).all (fun t => decide (r.type.column = t)) &&
    (truthy f.conversationKey).all fun k => matchesConversationKey k r.conversationKey

/-- The arguments by which `get_all` selects messages. -/
structure MessageFilter extends ConversationFilter where
  q : Option Text := none
  mentionName : Option Text := none

/-- The `WHERE` clause of `get_all` without its cursor. -/
def MessageFilter.selects (f : MessageFilter) (app : App) (r : MessageRow) : Bool :=
  let query := (truthy f.q).map parseSearchQuery
  f.toConversationFilter.selects r &&
    query.all (fun s => s.userTerms.isEmpty || s.userTerms.any (userScopeClause app · r)) &&
    query.all (fun s => s.channelTerms.isEmpty || s.channelTerms.any (channelScopeClause app · r)) &&
    (truthy f.mentionName).all (fun name =>
      !r.outgoing && decide (lower (mentionText name) <:+: lower r.text)) &&
    (truthy (query.map SearchQuery.freeText)).all fun free =>
      likeEscaped (['%'] ++ escapeLike free ++ ['%']) r.text

end MessageRepository

end RemoteTerm
