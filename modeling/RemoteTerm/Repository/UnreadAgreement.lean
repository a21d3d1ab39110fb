import Mathlib
import RemoteTerm.Repository.UnreadQuery

/-!
# The unread query and the plain definition

What an unread message is, without statements, and that the query answers the
number of unread messages of each conversation, the first of them, and the time
of the last message.

## Implementation notes

The two statements that count have the same rows as a search for the unread
messages of one conversation after another. A conversation that was never read
has the mark 0, the start of the clock that stamps the messages.
-/

namespace RemoteTerm

open Library

/-- A message of a blocked sender. -/
def IsBlocked (blockedKeys blockedNames : List Text) (m : MessageRow) : Prop :=
  m.type = .priv ∧ m.conversationKey ∈ blockedKeys ∨
    m.type = .chan ∧ m.senderKey.any (fun k => decide (k ∈ blockedKeys)) = true ∨
    m.senderName.any (fun n => decide (n ∈ blockedNames)) = true

namespace UnreadTables

variable (db : UnreadTables) (name : Option Text) (blockedKeys blockedNames : List Text)

/-- The column `last_read_at` of a conversation, when it has a row. -/
def lastReadAt (type : MessageType) (key : Text) : Option Int :=
  match type with
  | .chan => (db.channels.find? fun c => c.key = key).bind ChannelReadState.lastReadAt
  | .priv => (db.contacts.find? fun ct => ct.publicKey = key).bind ContactReadState.lastReadAt

/-- The last read mark of a conversation. -/
def lastReadMark (type : MessageType) (key : Text) : Int := (db.lastReadAt type key).getD 0

/-- The messages of a conversation. -/
def messagesOf (type : MessageType) (key : Text) : List MessageRow :=
  db.messages.filter fun m => m.type = type ∧ m.conversationKey = key

instance (m : MessageRow) : Decidable (IsBlocked blockedKeys blockedNames m) :=
  inferInstanceAs (Decidable (_ ∨ _ ∨ _))

/-- The incoming messages of a conversation that are not blocked and newer than its mark. -/
def unreadMessages (type : MessageType) (key : Text) : List MessageRow :=
  (db.messagesOf type key).filter fun m =>
    m.outgoing = false ∧ ¬ IsBlocked blockedKeys blockedNames m ∧
      db.lastReadMark type key < m.receivedAt

/-- The messages of a conversation that are sent or not blocked. -/
def shownMessages (type : MessageType) (key : Text) : List MessageRow :=
  (db.messagesOf type key).filter fun m =>
    m.outgoing = true ∨ ¬ IsBlocked blockedKeys blockedNames m

/-- The conversations that are counted: the unmuted channels of the table, and every direct
conversation. -/
def Counted (type : MessageType) (key : Text) : Prop :=
  match type with
  | .chan => ∃ c ∈ db.channels, c.key = key ∧ c.muted.getD 0 = 0
  | .priv => True

/-- The row of a conversation, by its unread messages. -/
def plainRow (type : MessageType) (key : Text) : UnreadRow :=
  let unread := db.unreadMessages blockedKeys blockedNames type key
  { conversationKey := key
    unreadCount := unread.length
    hasMention := unread.any (mentionClause name)
    firstUnreadId := (orderBy MessageRow.cursor unread).head?.map MessageRow.id }

variable {db name blockedKeys blockedNames} {type : MessageType} {key : Text}

theorem blockedIncomingClause_iff {m : MessageRow} :
    MessageRepository.blockedIncomingClause blockedKeys blockedNames m = true ↔
      m.outgoing = true ∨ ¬ IsBlocked blockedKeys blockedNames m := by
  cases hout : m.outgoing with
  | true => simp [MessageRepository.blockedIncomingClause, hout]
  | false =>
      simp [MessageRepository.blockedIncomingClause, IsBlocked, hout, imp_iff_not_or]

theorem unreadClause_iff {mark : Option Int} {m : MessageRow} :
    unreadClause blockedKeys blockedNames mark m = true ↔
      m.outgoing = false ∧ ¬ IsBlocked blockedKeys blockedNames m ∧ mark.getD 0 < m.receivedAt := by
  simp only [unreadClause, Bool.and_eq_true, Bool.not_eq_true', decide_eq_true_eq,
    blockedIncomingClause_iff]
  constructor
  · rintro ⟨⟨hout, hnew⟩, hsent | hclear⟩
    · rw [hout] at hsent
      cases hsent
    · exact ⟨hout, hclear, hnew⟩
  · rintro ⟨hout, hclear, hnew⟩
    exact ⟨⟨hout, hnew⟩, Or.inr hclear⟩

/-- The clauses of the statements select the unread messages of a conversation. -/
theorem filter_unreadClause :
    (db.messages.filter fun m => m.type = type && m.conversationKey = key &&
      unreadClause blockedKeys blockedNames (db.lastReadAt type key) m) =
      db.unreadMessages blockedKeys blockedNames type key := by
  rw [unreadMessages, messagesOf, List.filter_filter]
  refine List.filter_congr fun m _ => ?_
  rw [Bool.eq_iff_iff]
  simp only [Bool.and_eq_true, decide_eq_true_eq, unreadClause_iff]
  exact and_comm

theorem firstUnread_eq :
    db.firstUnread blockedKeys blockedNames type key (db.lastReadAt type key) =
      (db.plainRow name blockedKeys blockedNames type key).firstUnreadId := by
  rw [firstUnread, plainRow, filter_unreadClause]
  simp [List.head?_take]

/-- The row of a conversation with unread messages, as the statements compute it. -/
theorem plainRow_of_cons {m : MessageRow} {rest : List MessageRow}
    (h : db.unreadMessages blockedKeys blockedNames type key = m :: rest) :
    db.plainRow name blockedKeys blockedNames type key =
      { conversationKey := key
        unreadCount := rest.length + 1
        hasMention := mentionClause name m || rest.any (mentionClause name)
        firstUnreadId := db.firstUnread blockedKeys blockedNames type key
          (db.lastReadAt type key) } := by
  rw [@firstUnread_eq db name]
  simp [plainRow, h]

section Statements

/-- Pairs are selected by their first part before or after they are formed. -/
theorem filter_pairs {α β : Type} (l : List α) (f : α → List β) (q : α → Bool) :
    (l.flatMap fun a => (f a).map fun b => (a, b)).filter (fun p => q p.1) =
      (l.filter q).flatMap fun a => (f a).map fun b => (a, b) := by
  induction l with
  | nil => rfl
  | cons a l ih =>
      rw [List.flatMap_cons, List.filter_append, ih]
      by_cases hq : q a
      · simp [hq, List.filter_map, Function.comp_def]
      · simp [hq, List.filter_map, Function.comp_def]

/-- A primary key selects at most one row. -/
theorem filter_key {α κ : Type} [DecidableEq κ] {l : List α} {key : α → κ} {k : κ}
    (hkeys : (l.map key).Nodup) :
    l.filter (fun a => key a = k) = (l.find? fun a => key a = k).toList := by
  induction l with
  | nil => rfl
  | cons a l ih =>
      rw [List.map_cons, List.nodup_cons] at hkeys
      by_cases hk : key a = k
      · have hrest : l.filter (fun a => key a = k) = [] := by
          apply List.filter_eq_nil_iff.mpr
          intro b hb hkb
          apply hkeys.1
          rw [hk, ← of_decide_eq_true hkb]
          exact List.mem_map_of_mem hb
        simp [hk, hrest]
      · simp [hk, ih hkeys.2]

theorem filter_swap {α : Type} (l : List α) (p q : α → Bool) :
    (l.filter p).filter q = (l.filter q).filter p := by
  rw [List.filter_filter, List.filter_filter]
  exact List.filter_congr fun a _ => Bool.and_comm _ _

/-- The rows of a channel in the join. -/
theorem channelJoin_group (key : Text) :
    (db.channelJoin blockedKeys blockedNames).filter (fun row => row.1.key = key) =
      ((db.channels.find? fun c => c.key = key).toList.filter fun c => c.muted.getD 0 = 0).flatMap
        fun c => (db.unreadMessages blockedKeys blockedNames .chan key).map fun m => (c, m) := by
  rw [channelJoin, filter_swap,
    filter_pairs db.channels (fun _ => db.messages) fun c => c.key = key, filter_key db.channelKeys]
  cases hfind : db.channels.find? fun c => c.key = key with
  | none => rfl
  | some c =>
      have hkey : c.key = key := by simpa using List.find?_some hfind
      have hmark : db.lastReadAt .chan key = c.lastReadAt := by
        rw [lastReadAt, hfind]
        rfl
      rw [← filter_unreadClause, hmark]
      by_cases hmuted : c.muted.getD 0 = 0
      · simp [List.filter_map, Function.comp_def, hmuted, hkey]
      · simp [List.filter_map, Function.comp_def, hmuted]

/-- The rows of a direct conversation in the join. -/
theorem contactJoin_group (key : Text) :
    (db.contactJoin blockedKeys blockedNames).filter (fun row => row.1.conversationKey = key) =
      (db.unreadMessages blockedKeys blockedNames .priv key).map fun m =>
        (m, db.contacts.find? fun ct => ct.publicKey = key) := by
  have hjoin : ∀ m, db.joinContacts m =
      [db.contacts.find? fun ct => ct.publicKey = m.conversationKey] := by
    intro m
    rw [joinContacts, filter_key db.contactKeys]
    cases db.contacts.find? fun ct => ct.publicKey = m.conversationKey with
    | none => rfl
    | some ct => rfl
  have hmark : db.lastReadAt .priv key =
      (db.contacts.find? fun ct => ct.publicKey = key).bind ContactReadState.lastReadAt := rfl
  rw [contactJoin, filter_swap,
    filter_pairs db.messages db.joinContacts fun m => m.conversationKey = key]
  have hrows : ((db.messages.filter fun m => m.conversationKey = key).flatMap fun m =>
      (db.joinContacts m).map fun ct => (m, ct)) =
      (db.messages.filter fun m => m.conversationKey = key).map fun m =>
        (m, db.contacts.find? fun ct => ct.publicKey = key) := by
    rw [List.flatMap_def, ← List.flatMap_def, List.map_eq_flatMap]
    apply List.flatMap_congr
    intro m hm
    rw [hjoin, of_decide_eq_true (List.mem_filter.mp hm).2]
    rfl
  rw [hrows, List.filter_map, List.filter_filter, ← filter_unreadClause, hmark]
  congr 1
  refine List.filter_congr fun m _ => ?_
  rw [Function.comp_apply, Bool.and_assoc, Bool.and_assoc,
    Bool.and_comm (unreadClause blockedKeys blockedNames _ m)]

/-- **The channel statement**: its rows are those of the counted channels with unread
messages. -/
theorem mem_channelUnreads {row : UnreadRow} :
    row ∈ db.channelUnreads name blockedKeys blockedNames ↔
      ∃ key, db.Counted .chan key ∧ db.unreadMessages blockedKeys blockedNames .chan key ≠ [] ∧
        row = db.plainRow name blockedKeys blockedNames .chan key := by
  simp only [channelUnreads, List.mem_map, Prod.exists, mem_groupRows, channelJoin_group]
  apply exists_congr
  intro key
  cases hfind : db.channels.find? fun c => c.key = key with
  | none =>
      have hnone : ¬ db.Counted .chan key := by
        rintro ⟨c, hc, hkey, -⟩
        exact absurd hkey (by simpa using List.find?_eq_none.mp hfind c hc)
      simp [hnone]
  | some c =>
      have hkey : c.key = key := by simpa using List.find?_some hfind
      have hmark : db.lastReadAt .chan key = c.lastReadAt := by
        rw [lastReadAt, hfind]
        rfl
      have hcounted : db.Counted .chan key ↔ c.muted.getD 0 = 0 := by
        constructor
        · rintro ⟨d, hd, hdkey, hmuted⟩
          have heq : d = c := List.inj_on_of_nodup_map db.channelKeys hd
            (List.mem_of_find?_eq_some hfind) (hdkey.trans hkey.symm)
          rwa [← heq]
        · exact fun hmuted => ⟨c, List.mem_of_find?_eq_some hfind, hkey, hmuted⟩
      rw [hcounted]
      by_cases hmuted : c.muted.getD 0 = 0
      · cases hunread : db.unreadMessages blockedKeys blockedNames .chan key with
        | nil => simp [hmuted]
        | cons m rest =>
            rw [plainRow_of_cons hunread, hmark]
            simp [hmuted, Function.comp_def]
            exact eq_comm
      · simp [hmuted]

/-- **The contact statement**: its rows are those of the direct conversations with unread
messages. -/
theorem mem_contactUnreads {row : UnreadRow} :
    row ∈ db.contactUnreads name blockedKeys blockedNames ↔
      ∃ key, db.unreadMessages blockedKeys blockedNames .priv key ≠ [] ∧
        row = db.plainRow name blockedKeys blockedNames .priv key := by
  simp only [contactUnreads, List.mem_map, Prod.exists, mem_groupRows, contactJoin_group]
  apply exists_congr
  intro key
  have hmark : db.lastReadAt .priv key =
      (db.contacts.find? fun ct => ct.publicKey = key).bind ContactReadState.lastReadAt := rfl
  cases hunread : db.unreadMessages blockedKeys blockedNames .priv key with
  | nil => simp
  | cons m rest =>
      rw [plainRow_of_cons hunread, hmark]
      simp [Function.comp_def]
      exact eq_comm

end Statements

section Answers

theorem conversationStateKey_inj {type' : MessageType} {key' : Text} :
    conversationStateKey type key = conversationStateKey type' key' ↔
      type = type' ∧ key = key' := by
  have hsecond : ∀ (t : MessageType) (k : Text),
      (conversationStateKey t k)[1]? = t.statePrefix[1]? := by
    intro t k
    rw [conversationStateKey, List.getElem?_append_left]
    cases t <;> decide +kernel
  constructor
  · intro h
    have htype : type = type' := by
      have hchar : type.statePrefix[1]? = type'.statePrefix[1]? := by
        rw [← hsecond type key, h, hsecond]
      revert hchar
      cases type <;> cases type' <;> decide +kernel
    subst htype
    exact ⟨rfl, List.append_cancel_left h⟩
  · rintro ⟨rfl, rfl⟩
    rfl

theorem nodup_channelUnreads :
    ((db.channelUnreads name blockedKeys blockedNames).map UnreadRow.conversationKey).Nodup := by
  have hkeys := nodup_groupRows (fun row => row.1.key) (db.channelJoin blockedKeys blockedNames)
  rw [channelUnreads, List.map_map]
  exact hkeys

theorem nodup_contactUnreads :
    ((db.contactUnreads name blockedKeys blockedNames).map UnreadRow.conversationKey).Nodup := by
  have hkeys := nodup_groupRows (fun row => row.1.conversationKey)
    (db.contactJoin blockedKeys blockedNames)
  rw [contactUnreads, List.map_map]
  exact hkeys

/-- The rows of the answer, one for each counted conversation with unread messages. -/
theorem mem_unreadRows {k : Text} {row : UnreadRow} :
    (k, row) ∈ db.unreadRows name blockedKeys blockedNames ↔
      ∃ type key, db.Counted type key ∧
        db.unreadMessages blockedKeys blockedNames type key ≠ [] ∧
        k = conversationStateKey type key ∧
        row = db.plainRow name blockedKeys blockedNames type key := by
  simp only [unreadRows, List.mem_append, List.mem_map, Prod.mk.injEq, mem_channelUnreads,
    mem_contactUnreads]
  constructor
  · rintro (⟨_, ⟨key, hcounted, hunread, rfl⟩, rfl, rfl⟩ | ⟨_, ⟨key, hunread, rfl⟩, rfl, rfl⟩)
    · exact ⟨.chan, key, hcounted, hunread, rfl, rfl⟩
    · exact ⟨.priv, key, trivial, hunread, rfl, rfl⟩
  · rintro ⟨type, key, hcounted, hunread, rfl, rfl⟩
    cases type with
    | chan => exact Or.inl ⟨_, ⟨key, hcounted, hunread, rfl⟩, rfl, rfl⟩
    | priv => exact Or.inr ⟨_, ⟨key, hunread, rfl⟩, rfl, rfl⟩

theorem nodup_unreadRows :
    ((db.unreadRows name blockedKeys blockedNames).map Prod.fst).Nodup := by
  have hinj : ∀ t : MessageType, Function.Injective (conversationStateKey t) :=
    fun t _ _ h => (conversationStateKey_inj.mp h).2
  rw [unreadRows, List.map_append, List.map_map, List.map_map, List.nodup_append]
  refine ⟨?_, ?_, ?_⟩
  · have hkeys := (@nodup_channelUnreads db name blockedKeys blockedNames).map (hinj .chan)
    rwa [List.map_map] at hkeys
  · have hkeys := (@nodup_contactUnreads db name blockedKeys blockedNames).map (hinj .priv)
    rwa [List.map_map] at hkeys
  · intro a ha b hb heq
    obtain ⟨row, -, rfl⟩ := List.mem_map.mp ha
    obtain ⟨row', -, rfl⟩ := List.mem_map.mp hb
    cases (conversationStateKey_inj.mp heq).1

/-- The entries of a dictionary that reads one value of each row. -/
theorem toDict_unreadRows {ν : Type} (f : UnreadRow → ν) {k : Text} {v : ν} :
    toDict ((db.unreadRows name blockedKeys blockedNames).map fun row => (row.1, f row.2)) k =
        some v ↔
      ∃ type key, k = conversationStateKey type key ∧ db.Counted type key ∧
        db.unreadMessages blockedKeys blockedNames type key ≠ [] ∧
        v = f (db.plainRow name blockedKeys blockedNames type key) := by
  have hkeys : (((db.unreadRows name blockedKeys blockedNames).map fun row =>
      (row.1, f row.2)).map Prod.fst).Nodup := by
    rw [List.map_map]
    exact nodup_unreadRows
  rw [toDict_eq_some_iff hkeys, List.mem_map]
  constructor
  · rintro ⟨row, hrow, heq⟩
    obtain ⟨type, key, hcounted, hunread, hk, hplain⟩ := mem_unreadRows.mp hrow
    refine ⟨type, key, (congrArg Prod.fst heq).symm.trans hk, hcounted, hunread, ?_⟩
    rw [← hplain]
    exact (congrArg Prod.snd heq).symm
  · rintro ⟨type, key, rfl, hcounted, hunread, rfl⟩
    exact ⟨(_, _), mem_unreadRows.mpr ⟨type, key, hcounted, hunread, rfl, rfl⟩, rfl⟩

end Answers

section LastTimes

theorem MessageType.column_inj {s t : MessageType} : s.column = t.column ↔ s = t := by
  cases s <;> cases t <;> decide

theorem typeOfColumn (t : MessageType) :
    (if t.column = MessageType.chan.column then MessageType.chan else .priv) = t := by
  cases t <;> decide

/-- **The skip scan finds the conversations that have messages.** -/
theorem mem_conversations :
    (type, key) ∈ db.conversations ↔ db.messagesOf type key ≠ [] := by
  simp only [conversations, List.mem_flatMap, List.mem_map, mem_skipScan]
  constructor
  · rintro ⟨_, ⟨m, hm, rfl⟩, _, ⟨n, hn, rfl⟩, heq⟩
    rw [typeOfColumn] at heq
    obtain ⟨rfl, rfl⟩ := Prod.mk.inj heq
    obtain ⟨hmem, htype⟩ := List.mem_filter.mp hn
    have htype : n.type = m.type := MessageType.column_inj.mp (of_decide_eq_true htype)
    exact List.ne_nil_of_mem (List.mem_filter.mpr ⟨hmem, decide_eq_true ⟨htype, rfl⟩⟩)
  · intro hne
    obtain ⟨m, hm⟩ := List.exists_mem_of_ne_nil _ hne
    obtain ⟨hmem, htype, rfl⟩ : m ∈ db.messages ∧ m.type = type ∧ m.conversationKey = key := by
      simpa [messagesOf] using hm
    subst htype
    refine ⟨m.type.column, ⟨m, hmem, rfl⟩, m.conversationKey, ⟨m, ?_, rfl⟩, ?_⟩
    · exact List.mem_filter.mpr ⟨hmem, decide_eq_true rfl⟩
    · rw [typeOfColumn]

theorem nodup_conversations : db.conversations.Nodup := by
  rw [conversations, List.nodup_flatMap]
  constructor
  · intro column _
    refine (nodup_skipScan _).map fun _ _ heq => ?_
    exact congrArg Prod.snd heq
  · refine (nodup_skipScan _).imp_of_mem fun {a b} ha hb hne => ?_
    obtain ⟨m, -, rfl⟩ := List.mem_map.mp (mem_skipScan.mp ha)
    obtain ⟨n, -, rfl⟩ := List.mem_map.mp (mem_skipScan.mp hb)
    intro conversation hm hn
    obtain ⟨_, -, rfl⟩ := List.mem_map.mp hm
    obtain ⟨_, -, heq⟩ := List.mem_map.mp hn
    apply hne
    have htypes := congrArg Prod.fst heq
    simp only [typeOfColumn] at htypes
    rw [htypes]

theorem id_eq_of_cursor_eq {a b : MessageRow} (h : a.cursor = b.cursor) : a.id = b.id :=
  Int.ofNat.inj (congrArg (fun c : Cursor => (ofLex c).2) h)

theorem nodup_cursors_filter (p : MessageRow → Bool) :
    ((db.messages.filter p).map MessageRow.cursor).Nodup := by
  have hids : (db.messages.filter p).Pairwise fun a b => a.id ≠ b.id :=
    List.pairwise_map.mp (db.messageIds.sublist (List.filter_sublist.map _))
  exact List.pairwise_map.mpr (hids.imp fun hne heq => hne (id_eq_of_cursor_eq heq))

theorem receivedAt_le_of_cursor_le {a b : MessageRow} (h : a.cursor ≤ b.cursor) :
    a.receivedAt ≤ b.receivedAt := by
  rcases Prod.Lex.toLex_le_toLex.mp h with hlt | ⟨heq, -⟩
  · exact hlt.le
  · exact heq.le

/-- **The last message time** is the greatest time of the shown messages. -/
theorem lastMessageTime_eq :
    db.lastMessageTime blockedKeys blockedNames type key =
      ((db.shownMessages blockedKeys blockedNames type key).map MessageRow.receivedAt).max? := by
  have hrows : (db.messages.filter fun m => m.type = type && m.conversationKey = key &&
      MessageRepository.blockedIncomingClause blockedKeys blockedNames m) =
      db.shownMessages blockedKeys blockedNames type key := by
    rw [shownMessages, messagesOf, List.filter_filter]
    refine List.filter_congr fun m _ => ?_
    rw [Bool.eq_iff_iff]
    simp only [Bool.and_eq_true, decide_eq_true_eq, blockedIncomingClause_iff]
    exact and_comm
  rw [lastMessageTime, hrows]
  have hcursors : ((db.shownMessages blockedKeys blockedNames type key).map
      (OrderDual.toDual ∘ MessageRow.cursor)).Nodup := by
    rw [← hrows, ← List.map_map]
    exact (nodup_cursors_filter _).map OrderDual.toDual.injective
  have hsorted := orderBy_pairwise hcursors
  have hmem : ∀ m, m ∈ MessageRepository.newestFirst
      (db.shownMessages blockedKeys blockedNames type key) ↔
      m ∈ db.shownMessages blockedKeys blockedNames type key := fun m => mem_orderBy
  change (MessageRepository.newestFirst _).Pairwise _ at hsorted
  generalize MessageRepository.newestFirst
    (db.shownMessages blockedKeys blockedNames type key) = newest at hsorted hmem
  cases newest with
  | nil =>
      have hnone : db.shownMessages blockedKeys blockedNames type key = [] :=
        List.eq_nil_iff_forall_not_mem.mpr fun m hm => List.not_mem_nil ((hmem m).mpr hm)
      rw [hnone]
      rfl
  | cons first rest =>
      symm
      rw [List.take_succ_cons, List.head?_cons, Option.map_some, List.max?_eq_some_iff]
      refine ⟨List.mem_map_of_mem ((hmem first).mp List.mem_cons_self), fun t ht => ?_⟩
      obtain ⟨m, hm, rfl⟩ := List.mem_map.mp ht
      apply receivedAt_le_of_cursor_le
      rcases List.mem_cons.mp ((hmem m).mpr hm) with rfl | hrest
      · exact le_rfl
      · exact (OrderDual.toDual_lt_toDual.mp (List.rel_of_pairwise_cons hsorted hrest)).le

/-- The entries of the last message times. -/
theorem toDict_lastTimes {k : Text} {time : Int} :
    toDict (db.lastTimes blockedKeys blockedNames) k = some time ↔
      ∃ type key, k = conversationStateKey type key ∧
        ((db.shownMessages blockedKeys blockedNames type key).map MessageRow.receivedAt).max? =
          some time := by
  have hkeys : ((db.lastTimes blockedKeys blockedNames).map Prod.fst).Nodup := by
    rw [lastTimes, List.map_filterMap]
    refine nodup_conversations.filterMap fun a b k ha hb => ?_
    simp only [Option.map_map, Option.mem_def, Option.map_eq_some_iff] at ha hb
    obtain ⟨_, -, rfl⟩ := ha
    obtain ⟨_, -, heq⟩ := hb
    obtain ⟨htype, hkey⟩ := conversationStateKey_inj.mp heq
    exact Prod.ext htype.symm hkey.symm
  rw [toDict_eq_some_iff hkeys, lastTimes, List.mem_filterMap]
  constructor
  · rintro ⟨⟨type, key⟩, -, htime⟩
    obtain ⟨_, hlast, heq⟩ := Option.map_eq_some_iff.mp htime
    obtain ⟨rfl, rfl⟩ := Prod.mk.inj heq
    exact ⟨type, key, rfl, lastMessageTime_eq.symm.trans hlast⟩
  · rintro ⟨type, key, rfl, htime⟩
    refine ⟨(type, key), mem_conversations.mpr fun hnone => ?_, ?_⟩
    · rw [shownMessages, hnone] at htime
      cases htime
    · rw [lastMessageTime_eq, htime]
      rfl

end LastTimes

/-- The first unread message of a plain row is the least one. -/
theorem plainRow_firstUnreadId {id : Option Nat}
    (hunread : db.unreadMessages blockedKeys blockedNames type key ≠ []) :
    id = (db.plainRow name blockedKeys blockedNames type key).firstUnreadId ↔
      ∃ m ∈ db.unreadMessages blockedKeys blockedNames type key,
        (∀ n ∈ db.unreadMessages blockedKeys blockedNames type key, m.cursor ≤ n.cursor) ∧
          id = some m.id := by
  have hcursors : ((db.unreadMessages blockedKeys blockedNames type key).map
      MessageRow.cursor).Nodup := by
    rw [← filter_unreadClause]
    exact nodup_cursors_filter _
  have hsorted := orderBy_pairwise hcursors
  rw [plainRow]
  dsimp only
  generalize hunread' : db.unreadMessages blockedKeys blockedNames type key = unread at *
  have hmem : ∀ m, m ∈ orderBy MessageRow.cursor unread ↔ m ∈ unread := fun m => mem_orderBy
  generalize orderBy MessageRow.cursor unread = sorted at hsorted hmem
  cases sorted with
  | nil =>
      obtain ⟨m, hm⟩ := List.exists_mem_of_ne_nil _ hunread
      exact absurd ((hmem m).mpr hm) List.not_mem_nil
  | cons first rest =>
      have hfirst := (hmem first).mp List.mem_cons_self
      have hleast : ∀ n ∈ unread, first.cursor ≤ n.cursor := by
        intro n hn
        rcases List.mem_cons.mp ((hmem n).mpr hn) with rfl | hrest
        · exact le_rfl
        · exact (List.rel_of_pairwise_cons hsorted hrest).le
      constructor
      · rintro rfl
        exact ⟨first, hfirst, hleast, rfl⟩
      · rintro ⟨m, hm, hm', rfl⟩
        have heq : m.cursor = first.cursor := le_antisymm (hm' first hfirst) (hleast m hm)
        rw [id_eq_of_cursor_eq heq]
        rfl

/-- **The unread query answers the plain definition**: the time of the last shown message of
each conversation, the number of unread messages of each counted conversation that has some, and
the first of these. -/
theorem unread_query_eq_plain (db : UnreadTables) (name : Option Text)
    (blockedKeys blockedNames : List Text) (k : Text) :
    let answer := db.getUnreadCounts name blockedKeys blockedNames
    let unread := db.unreadMessages blockedKeys blockedNames
    (∀ time, answer.lastMessageTimes k = some time ↔
      ∃ type key, k = conversationStateKey type key ∧
        ((db.shownMessages blockedKeys blockedNames type key).map MessageRow.receivedAt).max? =
          some time) ∧
    (∀ n, answer.counts k = some n ↔
      ∃ type key, k = conversationStateKey type key ∧ db.Counted type key ∧
        0 < n ∧ n = (unread type key).length) ∧
    ((answer.firstUnreadIds k).isSome ↔ 0 < (answer.counts k).getD 0) ∧
    ∀ id, answer.firstUnreadIds k = some id ↔
      ∃ type key, k = conversationStateKey type key ∧ db.Counted type key ∧
        ∃ m ∈ unread type key, (∀ n ∈ unread type key, m.cursor ≤ n.cursor) ∧ id = some m.id := by
  intro answer unread
  have hcounts : ∀ n, answer.counts k = some n ↔ _ :=
    fun n => toDict_unreadRows UnreadRow.unreadCount
  have hfirst : ∀ id, answer.firstUnreadIds k = some id ↔ _ :=
    fun id => toDict_unreadRows UnreadRow.firstUnreadId
  have hlength : ∀ type key, (db.plainRow name blockedKeys blockedNames type key).unreadCount =
      (unread type key).length := fun _ _ => rfl
  refine ⟨fun time => toDict_lastTimes, fun n => ?_, ?_, fun id => ?_⟩
  · rw [hcounts]
    apply exists_congr
    intro type
    apply exists_congr
    intro key
    rw [hlength]
    constructor
    · rintro ⟨hk, hcounted, hunread, rfl⟩
      exact ⟨hk, hcounted, List.length_pos_of_ne_nil hunread, rfl⟩
    · rintro ⟨hk, hcounted, hpos, rfl⟩
      exact ⟨hk, hcounted, List.ne_nil_of_length_pos hpos, rfl⟩
  · rw [Option.isSome_iff_exists]
    constructor
    · rintro ⟨id, hid⟩
      obtain ⟨type, key, hk, hcounted, hunread, -⟩ := (hfirst id).mp hid
      rw [(hcounts _).mpr ⟨type, key, hk, hcounted, hunread, rfl⟩]
      exact List.length_pos_of_ne_nil hunread
    · intro hpos
      obtain ⟨n, hn⟩ : ∃ n, answer.counts k = some n := by
        cases hn : answer.counts k with
        | none =>
            rw [hn] at hpos
            exact absurd hpos (Nat.lt_irrefl 0)
        | some n => exact ⟨n, rfl⟩
      obtain ⟨type, key, hk, hcounted, hunread, -⟩ := (hcounts n).mp hn
      exact ⟨_, (hfirst _).mpr ⟨type, key, hk, hcounted, hunread, rfl⟩⟩
  · rw [hfirst]
    apply exists_congr
    intro type
    apply exists_congr
    intro key
    constructor
    · rintro ⟨hk, hcounted, hunread, hid⟩
      exact ⟨hk, hcounted, (plainRow_firstUnreadId hunread).mp hid⟩
    · rintro ⟨hk, hcounted, hleast⟩
      have hunread : unread type key ≠ [] := by
        obtain ⟨m, hm, -⟩ := hleast
        exact List.ne_nil_of_mem hm
      exact ⟨hk, hcounted, hunread, (plainRow_firstUnreadId hunread).mpr hleast⟩

end UnreadTables

end RemoteTerm
