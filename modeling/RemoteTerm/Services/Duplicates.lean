import RemoteTerm.Services.Messages

/-!
# Which row a rejected message is reconciled into

The dedup indexes and `get_by_content` state the identity of a message apart
from each other: the index of incoming direct messages counts the author and
reads a missing timestamp as zero, the lookup does neither. This module says
when both select the same row.
-/

namespace RemoteTerm

open Library MessageRepository

/-- The direction that callers of `handle_duplicate_message` ask for: none for channel
messages, that of the message for direct ones. -/
def duplicateDirection (m : NewMessage) : Option Bool :=
  match m.msgType with
  | .chan => none
  | .priv => some m.outgoing

/-- The row whose index entry rejects a message. -/
def rejectedBy (t : MessageTable) (m : NewMessage) : Option MessageRow := m.dedupKey.bind t.holder

/-- The row that `handle_duplicate_message` reconciles a message into. -/
def reconciledRow (t : MessageTable) (m : NewMessage) : Option MessageRow :=
  getByContent t m.msgType m.conversationKey m.text m.senderTimestamp (duplicateDirection m)

/-- A table filled by a list of inserts. -/
def tableOf (ms : List NewMessage) : MessageTable :=
  ms.foldl (fun t m => (create t m).2) .empty

/-- The collided row has the message's timestamp, and no older row holds the same
content by another author. -/
def CollidesFirst (t : MessageTable) (m : NewMessage) : Prop :=
  ∀ r ∈ rejectedBy t m, r.senderTimestamp = m.senderTimestamp ∧
    ∀ q ∈ t.rows, q.id < r.id → q.type = m.msgType → q.conversationKey = m.conversationKey →
      q.text = m.text → q.senderTimestamp = m.senderTimestamp → q.outgoing = m.outgoing →
      q.senderKey.getD [] = r.senderKey.getD []

instance (t : MessageTable) (m : NewMessage) : Decidable (CollidesFirst t m) :=
  inferInstanceAs (Decidable (∀ r ∈ rejectedBy t m, _))

theorem create_eq_none_iff_rejectedBy (t : MessageTable) (m : NewMessage) :
    (create t m).1 = none ↔ ∃ r, rejectedBy t m = some r := by
  rw [create_eq_none_iff]
  cases hk : m.dedupKey with
  | none => simp [rejectedBy, hk]
  | some k => simp [rejectedBy, hk]

/-- A duplicate is handled by reconciling into the row that the lookup selects. -/
theorem handleDuplicateMessage_eval {sha256 : Bytes → Bytes} {packetId : Option Nat}
    {m : NewMessage} {o : Observation} {s s' : App} :
    Program.Eval (process sha256) (handleDuplicateMessage packetId m.msgType m.conversationKey
        m.text m.senderTimestamp (duplicateDirection m) o) s () s' ↔
      match reconciledRow s.messages m with
      | none => s' = s
      | some r =>
          Program.Eval (process sha256) (reconcileDuplicateMessage r packetId o) s () s' := by
  simp only [handleDuplicateMessage, Program.await_bind, Program.eval_call_iff,
    process_getByContent, exists_eq_left, exists_and_left, reconciledRow, and_assoc]
  cases getByContent s.messages m.msgType m.conversationKey m.text m.senderTimestamp
    (duplicateDirection m) <;> simp

/-- The content of a rejected message is that of the row that rejects it, up to a
missing timestamp and, for channel messages, the direction. -/
theorem rejectedBy_spec {t : MessageTable} {m : NewMessage} {r : MessageRow}
    (h : rejectedBy t m = some r) :
    r ∈ t.rows ∧ r.type = m.msgType ∧ r.conversationKey = m.conversationKey ∧ r.text = m.text ∧
      r.senderTimestamp.getD 0 = m.senderTimestamp.getD 0 ∧
      (m.msgType = .priv → r.outgoing = false ∧ m.outgoing = false) := by
  simp only [rejectedBy, Option.bind_eq_some_iff] at h
  obtain ⟨k, hk, hr⟩ := h
  obtain ⟨hmem, hrk⟩ := t.holder_eq_some_iff.mp hr
  rw [messageSchema_key] at hrk
  refine ⟨hmem, ?_⟩
  simp only [NewMessage.dedupKey, NewMessage.toRow, MessageRow.dedupKey] at hk
  simp only [MessageRow.dedupKey] at hrk
  cases hm : m.msgType with
  | chan =>
      simp only [hm, Option.some.injEq] at hk
      subst hk
      cases hrt : r.type with
      | chan => simpa [hrt] using hrk
      | priv =>
          simp only [hrt] at hrk
          split at hrk <;> simp at hrk
  | priv =>
      cases hmo : m.outgoing with
      | true => simp [hm, hmo] at hk
      | false =>
          simp only [hm, hmo, Bool.false_eq_true, if_false, Option.some.injEq] at hk
          subst hk
          cases hrt : r.type with
          | chan => simp [hrt] at hrk
          | priv =>
              cases hro : r.outgoing with
              | true => simp [hrt, hro] at hrk
              | false =>
                  simp only [hrt, hro, Bool.false_eq_true, if_false, Option.some.injEq,
                    DedupKey.incomingDirect.injEq] at hrk
                  exact ⟨rfl, hrk.1, hrk.2.1, hrk.2.2.1, fun _ => ⟨rfl, rfl⟩⟩

/-- A row that the lookup would find before the collided one is an older row of the
same content; its author differs, because the index keeps one row for each author. -/
theorem matches_iff_of_rejectedBy {t : MessageTable} {m : NewMessage} {r q : MessageRow}
    (h : rejectedBy t m = some r) (hq : q ∈ t.rows) (hlt : q.id < r.id) :
    q.matchesContent m.msgType m.conversationKey m.text m.senderTimestamp (duplicateDirection m) ↔
      q.type = m.msgType ∧ q.conversationKey = m.conversationKey ∧ q.text = m.text ∧
        q.senderTimestamp = m.senderTimestamp ∧ q.outgoing = m.outgoing ∧
        q.senderKey.getD [] ≠ r.senderKey.getD [] := by
  obtain ⟨hr, hrt, hrc, hrx, hrs, hro⟩ := rejectedBy_spec h
  have hdist : messageSchema.Distinct q r := t.unique.forall hq hr fun hqr => by
    rw [hqr] at hlt
    exact Nat.lt_irrefl _ hlt
  simp only [Schema.Distinct, messageSchema_key, MessageRow.dedupKey] at hdist
  rw [MessageRow.matchesContent_iff]
  constructor
  · rintro ⟨ht, hc, hx, hs, hd⟩
    cases hm : m.msgType with
    | chan =>
        exfalso
        simp [ht, hrt, hm, hc, hrc, hx, hrx, hs, hrs] at hdist
    | priv =>
        simp only [duplicateDirection, hm, Option.getD_some] at hd
        refine ⟨ht.trans hm, hc, hx, hs, hd.symm, fun hkey => ?_⟩
        obtain ⟨hro, hmo⟩ := hro hm
        simp [ht, hrt, hm, hc, hrc, hx, hrx, hs, hrs, ← hd, hro, hmo, hkey] at hdist
  · rintro ⟨ht, hc, hx, hs, hd, -⟩
    refine ⟨ht, hc, hx, hs, ?_⟩
    cases hm : m.msgType <;> simp [duplicateDirection, hm, hd]

/-- A rejected message is reconciled into the row that rejected it exactly when that
row has its timestamp and no older row holds the same content by another author. -/
theorem reconciledRow_eq_rejectedBy_iff (t : MessageTable) (m : NewMessage)
    (h : (create t m).1 = none) : reconciledRow t m = rejectedBy t m ↔ CollidesFirst t m := by
  obtain ⟨r, hr⟩ := (create_eq_none_iff_rejectedBy t m).mp h
  obtain ⟨hmem, hrt, hrc, hrx, hrs, hro⟩ := rejectedBy_spec hr
  have hmatch : r.matchesContent m.msgType m.conversationKey m.text m.senderTimestamp
      (duplicateDirection m) = true ↔ r.senderTimestamp = m.senderTimestamp := by
    rw [MessageRow.matchesContent_iff]
    refine ⟨fun h => h.2.2.2.1, fun h => ⟨hrt, hrc, hrx, h, ?_⟩⟩
    cases hm : m.msgType with
    | chan => simp [duplicateDirection, hm]
    | priv => simp [duplicateDirection, hm, hro hm]
  simp only [CollidesFirst, hr, Option.mem_some_iff, forall_eq', reconciledRow,
    getByContent_eq_some_iff, hmem, true_and, hmatch]
  refine and_congr_right fun _ => forall₃_congr fun q hq hlt => ?_
  rw [← Bool.not_eq_true, matches_iff_of_rejectedBy hr hq hlt]
  constructor
  · intro hn ht hc hx hs hd
    by_contra hne
    exact hn ⟨ht, hc, hx, hs, hd, hne⟩
  · rintro hall ⟨ht, hc, hx, hs, hd, hne⟩
    exact hne (hall ht hc hx hs hd)

/-- Two posts to one room with the same text and second, by two authors. -/
def twinPost (author : Text) : NewMessage where
  msgType := .priv
  text := "hello".toList
  receivedAt := 1700000000
  conversationKey := "aa".toList
  senderTimestamp := some 1700000000
  txtType := 2
  senderKey := some author

theorem reconciledRow_eq_rejectedBy_single :
    reconciledRow (tableOf [twinPost "bb".toList]) (twinPost "bb".toList) =
      rejectedBy (tableOf [twinPost "bb".toList]) (twinPost "bb".toList) :=
  (reconciledRow_eq_rejectedBy_iff _ _ (by decide)).mpr (by decide)

/-- The second author's repeat is reconciled into the first author's post. -/
theorem reconciledRow_ne_rejectedBy :
    ¬ ∀ (ms : List NewMessage) (m : NewMessage), (create (tableOf ms) m).1 = none →
      reconciledRow (tableOf ms) m = rejectedBy (tableOf ms) m := by
  intro h
  have hrow := h [twinPost "bb".toList, twinPost "cc".toList] (twinPost "cc".toList) (by decide)
  exact absurd hrow (by decide)

end RemoteTerm
