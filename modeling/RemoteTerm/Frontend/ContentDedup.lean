import Mathlib
import RemoteTerm.Frontend.ConversationMessages

/-!
# Content keys tell stored messages apart

The browser drops a message whose content key it has seen. This hides no stored
message as long as no two rows clash: one is not the received twin of the other,
and the text of one does not end like the identity of the other begins.
-/

namespace RemoteTerm

open Library

/-- Two direct messages that were sent differ in conversation, text or timestamp. -/
def SentApart (a b : MessageRow) : Prop :=
  a.type = .priv → b.type = .priv → a.outgoing = true → b.outgoing = true →
    a.conversationKey = b.conversationKey → a.text = b.text → a.senderTimestamp ≠ b.senderTimestamp

/-- A message of the browser that is a row of the table, but for acks and paths that changed. -/
def Serves (rows : List MessageRow) (m : Message) : Prop :=
  ∃ r ∈ rows, ∃ acked paths, m.toMessageRow = { r with acked := acked, paths := paths }

/-- No content key stands for two rows. -/
def KeysDistinct (rows : List MessageRow) : Prop :=
  rows.Pairwise fun a b => getMessageContentKey a ≠ getMessageContentKey b

/-- No two rows clash. -/
def ClashFree (rows : List MessageRow) : Prop := rows.Pairwise fun a b => ¬ Clash a b

/-- A served message is dropped only for a copy of itself. -/
structure NeverHides (rows : List MessageRow) : Prop where
  pages : ∀ current incoming, (∀ m ∈ current, Serves rows m) → (∀ m ∈ incoming, Serves rows m) →
    ∀ m ∈ incoming, m.id ∈ (appendUniqueMessages current incoming).map fun n => n.id
  live : ∀ (a : ActiveMessages) (noted : List Message) (msg : Message),
    (∀ m ∈ noted, Serves rows m) → a.seenMessageContent = noted.map Message.contentKey →
      Serves rows msg → msg.id ∉ noted.map (fun m => m.id) →
        (a.appendActiveMessageIfNew msg).1 = true
  cached : ∀ (cache : ConversationMessageCache) (id : Text) (msg : Message), Serves rows msg →
    (∀ entry, cache.get? id = some entry → (∀ m ∈ entry.messages, Serves rows m) ∧
      msg.id ∉ entry.messages.map fun m => m.id) →
      (cache.addMessage id msg).1 = true

section Rows

variable {t : MessageTable}

theorem pairwise_ids (t : MessageTable) : t.rows.Pairwise fun a b => a.id ≠ b.id :=
  t.sorted.imp fun h => h.ne

/-- Rows of one table may coexist. -/
theorem pairwise_mayCoexist (hsent : t.rows.Pairwise SentApart) : t.rows.Pairwise MayCoexist := by
  exact (((pairwise_ids t).and t.unique).and hsent).imp fun h => ⟨h.1.1, h.1.2, h.2⟩

theorem keysDistinct_iff (hsent : t.rows.Pairwise SentApart) (hplain : ∀ r ∈ t.rows, PlainKeys r) :
    KeysDistinct t.rows ↔ ClashFree t.rows := by
  constructor
  · intro h
    exact ((pairwise_mayCoexist hsent).and h).imp_of_mem fun ha hb hab hclash =>
      hab.2 ((hab.1.key_eq_iff (hplain _ ha) (hplain _ hb)).mpr hclash)
  · intro h
    exact ((pairwise_mayCoexist hsent).and h).imp_of_mem fun ha hb hab hkey =>
      hab.2 ((hab.1.key_eq_iff (hplain _ ha) (hplain _ hb)).mp hkey)

end Rows

section Hiding

variable {rows : List MessageRow} {m n : Message}

theorem Serves.of_mem {r : MessageRow} (h : r ∈ rows) : Serves rows { r with packetId := none } :=
  ⟨r, h, r.acked, r.paths, rfl⟩

/-- A served message carries the rowid and the content key of its row. -/
theorem Serves.row (h : Serves rows m) :
    ∃ r ∈ rows, r.id = m.id ∧ getMessageContentKey r = m.contentKey := by
  obtain ⟨r, hr, acked, paths, hm⟩ := h
  refine ⟨r, hr, ?_, ?_⟩
  · rw [show m.id = m.toMessageRow.id from rfl, hm]
  · rw [Message.contentKey, hm]
    rfl

theorem KeysDistinct.nodup (h : KeysDistinct rows) : (rows.map getMessageContentKey).Nodup :=
  List.pairwise_map.mpr h

theorem KeysDistinct.id_eq (h : KeysDistinct rows) (hm : Serves rows m) (hn : Serves rows n)
    (hkey : m.contentKey = n.contentKey) : m.id = n.id := by
  obtain ⟨r, hr, hrid, hrkey⟩ := hm.row
  obtain ⟨r', hr', hrid', hrkey'⟩ := hn.row
  have hrows : r = r' :=
    List.inj_on_of_nodup_map h.nodup hr hr' (hrkey.trans (hkey.trans hrkey'.symm))
  rw [← hrid, ← hrid', hrows]

/-- Every message of a page is in the list behind its additions, when the seen keys are those of
served messages with seen rowids. -/
theorem KeysDistinct.mem_uniqueAdditions (h : KeysDistinct rows) {seenIds : List Nat}
    {seenContent : List Text} {incoming : List Message}
    (hseen : ∀ key ∈ seenContent, ∃ n, Serves rows n ∧ n.contentKey = key ∧ n.id ∈ seenIds)
    (hserved : ∀ m ∈ incoming, Serves rows m) :
    ∀ m ∈ incoming,
      m.id ∈ seenIds ∨ m.id ∈ (uniqueAdditions seenIds seenContent incoming).map fun n => n.id := by
  induction incoming generalizing seenIds seenContent with
  | nil =>
      intro m hm
      cases hm
  | cons first rest ih =>
      have hfirst := hserved first List.mem_cons_self
      have hrest : ∀ m ∈ rest, Serves rows m := fun m hm => hserved m (List.mem_cons_of_mem _ hm)
      intro m hm
      unfold uniqueAdditions
      split
      next hdrop =>
        rcases List.mem_cons.mp hm with rfl | hm
        · rcases hdrop with hid | hkey
          · exact .inl hid
          · obtain ⟨n, hn, hnkey, hnid⟩ := hseen _ hkey
            exact .inl (h.id_eq hn hfirst hnkey ▸ hnid)
        · exact ih hseen hrest m hm
      next hkeep =>
        rw [List.map_cons, List.mem_cons]
        rcases List.mem_cons.mp hm with rfl | hm
        · exact .inr (.inl rfl)
        · have hseen' : ∀ key ∈ first.contentKey :: seenContent,
              ∃ n, Serves rows n ∧ n.contentKey = key ∧ n.id ∈ first.id :: seenIds := by
            intro key hkey
            rcases List.mem_cons.mp hkey with rfl | hkey
            · exact ⟨first, hfirst, rfl, List.mem_cons_self⟩
            · obtain ⟨n, hn, hnkey, hnid⟩ := hseen key hkey
              exact ⟨n, hn, hnkey, List.mem_cons_of_mem _ hnid⟩
          rcases ih hseen' hrest m hm with hid | hid
          · rcases List.mem_cons.mp hid with hid | hid
            · exact .inr (.inl hid)
            · exact .inl hid
          · exact .inr (.inr hid)

theorem KeysDistinct.mem_appendUniqueMessages (h : KeysDistinct rows)
    {current incoming : List Message} (hcurrent : ∀ m ∈ current, Serves rows m)
    (hincoming : ∀ m ∈ incoming, Serves rows m) :
    ∀ m ∈ incoming, m.id ∈ (appendUniqueMessages current incoming).map fun n => n.id := by
  intro m hm
  have hseen : ∀ key ∈ current.map Message.contentKey,
      ∃ n, Serves rows n ∧ n.contentKey = key ∧ n.id ∈ current.map fun n => n.id := by
    intro key hkey
    obtain ⟨n, hn, rfl⟩ := List.mem_map.mp hkey
    exact ⟨n, hcurrent n hn, rfl, List.mem_map_of_mem hn⟩
  rw [appendUniqueMessages, List.map_append, List.mem_append]
  exact h.mem_uniqueAdditions hseen hincoming m hm

theorem applyPendingAck_contentKey (acks : PendingAcks) (m : Message) :
    (acks.applyPendingAck m).1.contentKey = m.contentKey := by
  unfold PendingAcks.applyPendingAck
  split <;> rfl

/-- A key among those of noted messages belongs to a copy of the message. -/
theorem KeysDistinct.key_notMem (h : KeysDistinct rows) {noted : List Message}
    (hnoted : ∀ n ∈ noted, Serves rows n) (hm : Serves rows m)
    (hid : m.id ∉ noted.map fun n => n.id) : m.contentKey ∉ noted.map Message.contentKey := by
  intro hkey
  obtain ⟨n, hn, hnkey⟩ := List.mem_map.mp hkey
  exact hid (h.id_eq (hnoted n hn) hm hnkey ▸ List.mem_map_of_mem hn)

/-- Distinct keys hide nothing. -/
theorem KeysDistinct.neverHides (h : KeysDistinct rows) : NeverHides rows where
  pages current incoming hcurrent hincoming := h.mem_appendUniqueMessages hcurrent hincoming
  live a noted msg hnoted hseen hmsg hid := by
    have hkey := h.key_notMem hnoted hmsg hid
    simp only [ActiveMessages.appendActiveMessageIfNew, applyPendingAck_contentKey, hseen]
    rw [if_neg hkey]
  cached cache id msg hmsg hentry := by
    unfold ConversationMessageCache.addMessage
    split
    next => rfl
    next entry hget =>
      obtain ⟨hserved, hid⟩ := hentry entry hget
      rw [if_neg (entry.keyed ▸ h.key_notMem hserved hmsg hid), if_neg hid]

/-- A key of two rows hides the second of them from a page. -/
theorem NeverHides.keysDistinct (h : NeverHides rows)
    (hids : rows.Pairwise fun a b => a.id ≠ b.id) : KeysDistinct rows := by
  refine hids.imp_of_mem fun {a b} ha hb hid hkey => ?_
  have hshown := h.pages [{ a with packetId := none }] [{ b with packetId := none }]
    (by simpa using Serves.of_mem ha) (by simpa using Serves.of_mem hb) _ (List.mem_singleton_self _)
  have hdropped : uniqueAdditions [a.id] [getMessageContentKey a] [{ b with packetId := none }] =
      [] := by
    rw [uniqueAdditions, if_pos (.inr (by simpa [Message.contentKey] using hkey.symm))]
    rfl
  have hb : b.id ∈ [a.id] := by
    simpa only [appendUniqueMessages, List.map_append, List.map_cons, List.map_nil, hdropped,
      Message.contentKey, List.append_nil] using hshown
  exact hid (List.mem_singleton.mp hb).symm

end Hiding

/-- **Content keys tell stored messages apart**: in a table whose sent direct messages differ,
keys are distinct, and nothing is hidden, exactly when no two rows clash. -/
theorem content_keys_distinct_iff {t : MessageTable} (hsent : t.rows.Pairwise SentApart)
    (hplain : ∀ r ∈ t.rows, PlainKeys r) :
    (KeysDistinct t.rows ↔ ClashFree t.rows) ∧ (NeverHides t.rows ↔ ClashFree t.rows) := by
  have hkeys := keysDistinct_iff hsent hplain
  refine ⟨hkeys, ?_⟩
  rw [← hkeys]
  exact ⟨fun h => h.keysDistinct (pairwise_ids t), fun h => h.neverHides⟩

section Example

/-- A channel, and a contact with a short key. -/
def noteChannel : Text := List.replicate 32 'A'

def noteContact : Text := List.replicate 64 'b'

/-- A message that was stored without a timestamp and one whose text ends like its identity; and
a direct message that was sent and received. -/
def noteMessages : List NewMessage :=
  [{ msgType := .chan, text := "note".toList, receivedAt := 5, conversationKey := noteChannel },
    { msgType := .chan, text := "note-r5".toList, receivedAt := 9, conversationKey := noteChannel,
      senderTimestamp := some 1 },
    { msgType := .priv, text := "hi".toList, receivedAt := 20, conversationKey := noteContact,
      senderTimestamp := some 17, outgoing := true },
    { msgType := .priv, text := "hi".toList, receivedAt := 21, conversationKey := noteContact,
      senderTimestamp := some 17 }]

/-- The messages of a list, stored one after another. -/
def storeAll (ms : List NewMessage) : MessageTable :=
  ms.foldl (fun t m => (MessageRepository.create t m).2) Table.empty

instance (a b : MessageRow) : Decidable (SentApart a b) := by
  unfold SentApart
  infer_instance

instance (rows : List MessageRow) : Decidable (KeysDistinct rows) := by
  unfold KeysDistinct
  infer_instance

theorem noteMessages_stored :
    (storeAll noteMessages).rows.length = 4 ∧ (storeAll noteMessages).rows.Pairwise SentApart ∧
      ∀ r ∈ (storeAll noteMessages).rows, PlainKeys r := by
  have hplain : ∀ r ∈ (storeAll noteMessages).rows,
      '-' ∉ r.conversationKey ∧ ∀ senderKey ∈ r.senderKey.toList, '-' ∉ senderKey := by
    decide +kernel
  refine ⟨by decide +kernel, by decide +kernel, fun r hr => ⟨(hplain r hr).1, ?_⟩⟩
  exact fun senderKey hkey => (hplain r hr).2 senderKey (Option.mem_toList.mpr hkey)

/-- The rows of the first two messages share a key, and so do those of the last two. -/
theorem noteMessages_hidden :
    (storeAll noteMessages).rows.length = 4 ∧ (storeAll noteMessages).rows.Pairwise SentApart ∧
      (∀ r ∈ (storeAll noteMessages).rows, PlainKeys r) ∧
      (storeAll noteMessages).rows.map getMessageContentKey =
        ["CHAN-AAAAAAAAAAAAAAAAAAAAAAAAAAAAAAAA-note-r5-1".toList,
          "CHAN-AAAAAAAAAAAAAAAAAAAAAAAAAAAAAAAA-note-r5-1".toList,
          "PRIV-".toList ++ noteContact ++ "-hi-17".toList,
          "PRIV-".toList ++ noteContact ++ "-hi-17".toList] ∧
      ¬ NeverHides (storeAll noteMessages).rows := by
  have hkeys : ¬ KeysDistinct (storeAll noteMessages).rows := by decide +kernel
  obtain ⟨hlength, hsent, hplain⟩ := noteMessages_stored
  exact ⟨hlength, hsent, hplain, by decide +kernel,
    fun h => hkeys (h.keysDistinct (pairwise_ids _))⟩

theorem content_keys_distinct_iff_notes :
    ¬ ClashFree (storeAll noteMessages).rows := by
  intro h
  have hkeys : ¬ KeysDistinct (storeAll noteMessages).rows := by decide +kernel
  exact hkeys ((content_keys_distinct_iff noteMessages_stored.2.1 noteMessages_stored.2.2).1.mpr h)

end Example

end RemoteTerm
