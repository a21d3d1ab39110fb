import RemoteTerm.Library.Pages
import RemoteTerm.Repository.MessageSearch

/-!
# Cursor pagination of the messages

`get_all` with its two cursors and `get_around`, and what a reader of their
pages sees of the messages that pass a filter.

## Implementation notes

`messages.id` is the rowid, so a cursor is a pair of integers in lexicographic
order, as SQLite compares row values.
-/

namespace RemoteTerm

open Library

/-- A stored message as the API shows it: with the first raw packet linked to it. -/
structure Message extends MessageRow where
  packetId : Option Nat
  deriving DecidableEq

/-- The pair `(received_at, id)` by which pages are ordered. -/
abbrev Cursor := Int ×ₗ Int

/-- Where a message stands in the order of the pages. -/
def MessageRow.cursor (r : MessageRow) : Cursor := toLex (r.receivedAt, (r.id : Int))

/-- Where an answered message stands in the order of the pages. -/
def Message.cursor (m : Message) : Cursor := m.toMessageRow.cursor

namespace MessageRepository

/-- `_row_to_message` on the columns of `_message_select`. -/
def rowToMessage (app : App) (r : MessageRow) : Message :=
  { r with
    packetId := (app.rawPackets.rows.find? fun p => p.messageId = some r.id).map RawPacketRow.id }

@[simp] theorem rowToMessage_cursor (app : App) (r : MessageRow) :
    (rowToMessage app r).cursor = r.cursor := rfl

/-- `ORDER BY received_at DESC, id DESC`. -/
def newestFirst (rows : List MessageRow) : List MessageRow :=
  orderBy (OrderDual.toDual ∘ MessageRow.cursor) rows

/-- `get_all`. -/
def getAll (app : App) (f : MessageFilter) (limit : Nat) (offset : Nat := 0)
    (before beforeId after afterId : Option Int := none) : List Message :=
  let rows := app.messages.rows.filter (f.selects app)
  let page :=
    match after, afterId with
    | some after, some afterId =>
        (orderBy MessageRow.cursor
          (rows.filter fun r => toLex (after, afterId) < r.cursor)).take limit
    | none, some afterId =>
        (orderBy MessageRow.id (rows.filter fun r => afterId < r.id)).take limit
    | some after, none =>
        (orderBy MessageRow.cursor (rows.filter fun r => after < r.receivedAt)).take limit
    | none, none =>
        match before, beforeId with
        | some before, some beforeId =>
            (newestFirst (rows.filter fun r => r.cursor < toLex (before, beforeId))).take limit
        | _, _ => ((newestFirst rows).drop offset).take limit
  page.map (rowToMessage app)

/-- `get_around`: the messages, `has_older` and `has_newer`. -/
def getAround (app : App) (f : ConversationFilter) (messageId : Nat) (contextSize : Nat) :
    List Message × Bool × Bool :=
  let rows := app.messages.rows.filter f.selects
  match rows.find? fun r => r.id = messageId with
  | none => ([], false, false)
  | some target =>
      let beforeRows :=
        (newestFirst (rows.filter fun r => r.cursor < target.cursor)).take (contextSize + 1)
      let hasOlder := decide (beforeRows.length > contextSize)
      let afterRows :=
        (orderBy MessageRow.cursor (rows.filter fun r => target.cursor < r.cursor)).take
          (contextSize + 1)
      let hasNewer := decide (afterRows.length > contextSize)
      let messages := (beforeRows.take contextSize).reverse ++ [target] ++
        afterRows.take contextSize
      (messages.map (rowToMessage app), hasOlder, hasNewer)

section History

/-- The messages that pass a filter, in the order of their cursors. -/
def history (app : App) (p : MessageRow → Bool) : List Message :=
  (orderBy MessageRow.cursor (app.messages.rows.filter p)).map (rowToMessage app)

theorem mem_history {app : App} {p : MessageRow → Bool} {m : Message} :
    m ∈ history app p ↔ ∃ r ∈ app.messages.rows, p r = true ∧ rowToMessage app r = m := by
  simp [history, and_assoc]

theorem length_history (app : App) (p : MessageRow → Bool) :
    (history app p).length = app.messages.rows.countP p := by
  rw [history, List.length_map, (orderBy_perm _ _).length_eq, List.countP_eq_length_filter]

/-- Rowids are distinct, and so are cursors. -/
theorem nodup_cursors (t : MessageTable) (p : MessageRow → Bool) :
    ((t.rows.filter p).map MessageRow.cursor).Nodup := by
  have hids : (t.rows.filter p).Pairwise fun a b => a.cursor ≠ b.cursor := by
    refine (t.sorted.imp fun {a b} hab heq => ?_).filter p
    have hid : (a.id : Int) = b.id := congrArg (fun c : Cursor => (ofLex c).2) heq
    simp only [messageSchema_id] at hab
    omega
  exact List.pairwise_map.mpr hids

theorem history_pairwise (app : App) (p : MessageRow → Bool) :
    (history app p).Pairwise fun a b => a.cursor < b.cursor := by
  rw [history, List.pairwise_map]
  exact orderBy_pairwise (nodup_cursors app.messages p)

/-- A further condition on the cursor filters the history. -/
theorem history_filter (app : App) (p : MessageRow → Bool) (q : Cursor → Bool) :
    (orderBy MessageRow.cursor ((app.messages.rows.filter p).filter fun r => q r.cursor)).map
        (rowToMessage app) =
      (history app p).filter fun m => q m.cursor := by
  rw [orderBy_filter (nodup_cursors app.messages p), history, List.filter_map]
  rfl

/-- The newest messages first, under a further condition on the cursor. -/
theorem newestFirst_filter (app : App) (p : MessageRow → Bool) (q : Cursor → Bool) :
    (newestFirst ((app.messages.rows.filter p).filter fun r => q r.cursor)).map
        (rowToMessage app) =
      (history app p).reverse.filter fun m => q m.cursor := by
  have hkeys : (((app.messages.rows.filter p).filter fun r => q r.cursor).map
      MessageRow.cursor).Nodup :=
    (nodup_cursors app.messages p).sublist (List.filter_sublist.map _)
  rw [newestFirst, orderBy_toDual hkeys, List.map_reverse, history_filter, List.filter_reverse]

end History

section GetAll

/-- A page before a cursor: the next messages of the history backwards. -/
theorem getAll_before (app : App) (f : MessageFilter) (limit : Nat) (cursor : Option Cursor) :
    getAll app f limit 0 (cursor.map fun c => (ofLex c).1) (cursor.map fun c => (ofLex c).2) =
      (beyond (· > ·) Message.cursor cursor (history app (f.selects app)).reverse).take limit := by
  cases cursor with
  | none =>
      have h := newestFirst_filter app (f.selects app) fun _ => true
      simp only [List.filter_true] at h
      simp [getAll, List.map_take, h]
  | some c =>
      have h := newestFirst_filter app (f.selects app) fun d => decide (d < c)
      simp only [getAll, Option.map_some, List.map_take, beyond, Option.all_some]
      exact congrArg (List.take limit) h

/-- A page after a cursor: the next messages of the history. -/
theorem getAll_after (app : App) (f : MessageFilter) (limit : Nat) (c : Cursor) :
    getAll app f limit 0 none none (some (ofLex c).1) (some (ofLex c).2) =
      (beyond (· < ·) Message.cursor (some c) (history app (f.selects app))).take limit := by
  have h := history_filter app (f.selects app) fun d => decide (c < d)
  simp only [getAll, List.map_take, beyond, Option.all_some]
  exact congrArg (List.take limit) h

/-- A client that scrolls back: `get_all` with the `before` cursor of the last row. -/
def readOlder (app : App) (f : MessageFilter) (limit requests : Nat) (cursor : Option Cursor) :
    Option (List Message) :=
  readPages
    (fun c => getAll app f limit 0 (c.map fun c => (ofLex c).1) (c.map fun c => (ofLex c).2))
    Message.cursor limit requests cursor

/-- A client that scrolls forward: `get_all` with the `after` cursor of the last row. -/
def readNewer (app : App) (f : MessageFilter) (limit requests : Nat) (cursor : Cursor) :
    Option (List Message) :=
  readPages
    (fun c => getAll app f limit 0 none none (c.map fun c => (ofLex c).1)
      (c.map fun c => (ofLex c).2))
    Message.cursor limit requests (some cursor)

theorem readOlder_eq (app : App) (f : MessageFilter) {limit requests : Nat}
    (cursor : Option Cursor) (hlimit : 1 ≤ limit)
    (hrequests : (history app (f.selects app)).length < requests) :
    readOlder app f limit requests cursor =
      some (beyond (· > ·) Message.cursor cursor (history app (f.selects app)).reverse) := by
  apply readPages_eq hlimit
  · rw [List.pairwise_reverse]
    exact history_pairwise app (f.selects app)
  · exact fun c => getAll_before app f limit (some c)
  · exact getAll_before app f limit cursor
  · calc (beyond (· > ·) Message.cursor cursor (history app (f.selects app)).reverse).length
        ≤ (history app (f.selects app)).reverse.length := List.length_filter_le _ _
      _ = (history app (f.selects app)).length := List.length_reverse
      _ < requests := hrequests

theorem readNewer_eq (app : App) (f : MessageFilter) {limit requests : Nat} (cursor : Cursor)
    (hlimit : 1 ≤ limit) (hrequests : (history app (f.selects app)).length < requests) :
    readNewer app f limit requests cursor =
      some (beyond (· < ·) Message.cursor (some cursor) (history app (f.selects app))) := by
  apply readPages_eq hlimit (history_pairwise app (f.selects app))
  · exact fun c => getAll_after app f limit c
  · exact getAll_after app f limit cursor
  · exact (List.length_filter_le _ _).trans_lt hrequests

end GetAll

section GetAround

variable {app : App} {f : ConversationFilter} {messageId contextSize : Nat}

/-- The window around a message that passes the filter is a stretch of the history, and
its flags tell whether the history goes on at either end. -/
theorem getAround_of_found {r : MessageRow}
    (hr : (app.messages.rows.filter f.selects).find? (fun r => r.id = messageId) = some r) :
    ∃ older newer, history app f.selects =
        older ++ ((getAround app f messageId contextSize).1 ++ newer) ∧
      rowToMessage app r ∈ (getAround app f messageId contextSize).1 ∧
      ((getAround app f messageId contextSize).2.1 = true ↔ older ≠ []) ∧
      ((getAround app f messageId contextSize).2.2 = true ↔ newer ≠ []) := by
  have hkeys := nodup_cursors app.messages f.selects
  have hmem : r ∈ orderBy MessageRow.cursor (app.messages.rows.filter f.selects) :=
    mem_orderBy.mpr (List.mem_of_find?_eq_some hr)
  have hsplit := split_of_pairwise (orderBy_pairwise hkeys) hmem
  rw [← orderBy_filter hkeys, ← orderBy_filter hkeys] at hsplit
  have hbefore : newestFirst ((app.messages.rows.filter f.selects).filter fun q =>
      decide (q.cursor < r.cursor)) =
      (orderBy MessageRow.cursor ((app.messages.rows.filter f.selects).filter fun q =>
        decide (q.cursor < r.cursor))).reverse :=
    orderBy_toDual (hkeys.sublist (List.filter_sublist.map _))
  simp only [getAround, hr, hbefore]
  generalize orderBy MessageRow.cursor ((app.messages.rows.filter f.selects).filter fun q =>
    decide (q.cursor < r.cursor)) = older at hsplit
  generalize orderBy MessageRow.cursor ((app.messages.rows.filter f.selects).filter fun q =>
    decide (r.cursor < q.cursor)) = newer at hsplit
  refine ⟨(older.reverse.drop contextSize).reverse.map (rowToMessage app),
    (newer.drop contextSize).map (rowToMessage app), ?_, ?_, ?_, ?_⟩
  · rw [history, hsplit, window_of_split contextSize]
    simp only [List.map_append]
  · simp
  · rw [length_take_probe]
    simp only [ne_eq, List.map_eq_nil_iff, List.reverse_eq_nil_iff]
  · rw [length_take_probe]
    simp only [ne_eq, List.map_eq_nil_iff]

/-- A message that does not pass the filter has no window. -/
theorem getAround_of_missing
    (hr : (app.messages.rows.filter f.selects).find? (fun r => r.id = messageId) = none) :
    getAround app f messageId contextSize = ([], false, false) := by
  simp only [getAround, hr]

end GetAround

/-- Pagination is complete: the history lists the messages that pass a filter once each in
cursor order; scrolling back or forward by any page size sees exactly the part of it that
lies past the cursor, in order, and stops; the window around a message is a stretch of it,
and tells at both ends whether the history goes on. -/
theorem pagination_complete (app : App) :
    (∀ p, (history app p).Pairwise (fun a b => a.cursor < b.cursor) ∧
      ∀ m, m ∈ history app p ↔ ∃ r ∈ app.messages.rows, p r = true ∧ rowToMessage app r = m) ∧
    (∀ (f : MessageFilter) (limit requests : Nat), 1 ≤ limit →
      (history app (f.selects app)).length < requests →
      readOlder app f limit requests none = some (history app (f.selects app)).reverse ∧
      ∀ c, readOlder app f limit requests (some c) =
          some ((history app (f.selects app)).reverse.filter fun m => m.cursor < c) ∧
        readNewer app f limit requests c =
          some ((history app (f.selects app)).filter fun m => c < m.cursor)) ∧
    ∀ (f : ConversationFilter) (messageId contextSize : Nat),
      match (app.messages.rows.filter f.selects).find? fun r => r.id = messageId with
      | none => getAround app f messageId contextSize = ([], false, false)
      | some r => ∃ older newer, history app f.selects =
            older ++ ((getAround app f messageId contextSize).1 ++ newer) ∧
          rowToMessage app r ∈ (getAround app f messageId contextSize).1 ∧
          ((getAround app f messageId contextSize).2.1 = true ↔ older ≠ []) ∧
          ((getAround app f messageId contextSize).2.2 = true ↔ newer ≠ []) := by
  refine ⟨fun p => ⟨history_pairwise app p, fun m => mem_history⟩, ?_, ?_⟩
  · intro f limit requests hlimit hrequests
    constructor
    · simpa only [beyond_none] using readOlder_eq app f none hlimit hrequests
    · intro c
      exact ⟨readOlder_eq app f (some c) hlimit hrequests, readNewer_eq app f c hlimit hrequests⟩
  · intro f messageId contextSize
    split
    next hr => exact getAround_of_missing hr
    next r hr => exact getAround_of_found hr

/-- Two direct messages that arrived in the same second. -/
def tiedMessages : App :=
  { App.empty with
    messages :=
      (create (create .empty
        { msgType := .priv, text := ['a'], receivedAt := 7, conversationKey := ['k'] }).2
        { msgType := .priv, text := ['b'], receivedAt := 7, conversationKey := ['k'] }).2 }

/-- Read one by one from the newest, tied messages are both seen. -/
theorem pagination_complete_tied :
    (history tiedMessages (({} : MessageFilter).selects tiedMessages)).length < 3 ∧
      readOlder tiedMessages {} 1 3 none =
        some (history tiedMessages (({} : MessageFilter).selects tiedMessages)).reverse := by
  have hrows : (history tiedMessages (({} : MessageFilter).selects tiedMessages)).length < 3 := by
    rw [length_history]
    decide
  exact ⟨hrows, ((pagination_complete tiedMessages).2.1 {} 1 3 (by decide) hrows).1⟩

end MessageRepository

end RemoteTerm
