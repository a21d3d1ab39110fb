import Mathlib
import RemoteTerm.Library.Separated
import RemoteTerm.Repository.Messages

/-!
# The content key of a message

The browser recognises a message that it has already shown by a text: type,
conversation, text, timestamp and, for direct messages, the sender key, joined
by dashes. A message without a timestamp carries its arrival and its rowid
instead.

## Implementation notes

The key is a function of columns that the server serialises as they are, so it
is a function of the row here. Numbers are written in decimal; timestamps and
rowids stay below `2 ^ 53`, where a JavaScript number is exact.
-/

namespace RemoteTerm

open Library

/-- A natural number in decimal. -/
def decimal (n : Nat) : Text := Nat.toDigits 10 n

theorem decimal_inj {m n : Nat} (h : decimal m = decimal n) : m = n := by
  have hm := Nat.ofDigitChars_ten_toDigits (n := m)
  have hn := Nat.ofDigitChars_ten_toDigits (n := n)
  rw [show Nat.toDigits 10 m = Nat.toDigits 10 n from h] at hm
  exact hm.symm.trans hn

theorem isDigit_of_mem_decimal {n : Nat} {c : Char} (h : c ∈ decimal n) : c.isDigit :=
  Nat.isDigit_of_mem_toDigits (by omega) (by omega) h

theorem dash_notMem_decimal (n : Nat) : '-' ∉ decimal n :=
  fun h => absurd (isDigit_of_mem_decimal h) (by decide)

theorem decimal_ne_nil (n : Nat) : decimal n ≠ [] := Nat.toDigits_ne_nil

/-- `${n}` of an integer. -/
def decimalInt (n : Int) : Text :=
  if n < 0 then '-' :: decimal n.natAbs else decimal n.natAbs

/-- The text of the `type` column. -/
def MessageType.code : MessageType → Text
  | .priv => ['P', 'R', 'I', 'V']
  | .chan => ['C', 'H', 'A', 'N']

/-- The timestamp of a content key. -/
def contentTimestamp (m : MessageRow) : Text :=
  match m.senderTimestamp with
  | some timestamp => decimalInt timestamp
  | none => 'r' :: decimalInt m.receivedAt ++ '-' :: decimal m.id

/-- The sender key of a direct message that has one. -/
def contentSender (m : MessageRow) : Option Text :=
  if m.type = .priv then m.senderKey.filter (· ≠ []) else none

/-- The sender key with the dash before it, or nothing. -/
def senderSuffix (m : MessageRow) : Text :=
  match contentSender m with
  | some senderKey => '-' :: senderKey
  | none => []

/-- `getMessageContentKey`. -/
def getMessageContentKey (m : MessageRow) : Text :=
  m.type.code ++ '-' :: m.conversationKey ++ '-' :: m.text ++ '-' :: contentTimestamp m ++
    senderSuffix m

section Parts

/-- The dash-free parts of an integer in decimal; a minus sign leaves an empty part before it. -/
def decimalParts (n : Int) : List Text :=
  if n < 0 then [[], decimal n.natAbs] else [decimal n.natAbs]

/-- The dash-free parts of an arrival. -/
def arrivalParts (n : Int) : List Text :=
  if n < 0 then [['r'], decimal n.natAbs] else ['r' :: decimal n.natAbs]

/-- The dash-free parts of the timestamp of a content key. -/
def timestampParts (m : MessageRow) : List Text :=
  match m.senderTimestamp with
  | some timestamp => decimalParts timestamp
  | none => arrivalParts m.receivedAt ++ [decimal m.id]

/-- The parts of a content key behind its text. -/
def identityParts (m : MessageRow) : List Text := timestampParts m ++ (contentSender m).toList

/-- The conversation key and the sender key of a message hold no dash: both are hexadecimal. -/
structure PlainKeys (m : MessageRow) : Prop where
  conversation : '-' ∉ m.conversationKey
  sender : ∀ senderKey ∈ m.senderKey, '-' ∉ senderKey

theorem marked_decimalParts (n : Int) : marked '-' (decimalParts n) = '-' :: decimalInt n := by
  unfold decimalParts decimalInt
  split <;> simp

theorem marked_arrivalParts (n : Int) :
    marked '-' (arrivalParts n) = '-' :: 'r' :: decimalInt n := by
  unfold arrivalParts decimalInt
  split <;> simp

theorem dash_notMem_decimalParts {n : Int} {p : Text} (h : p ∈ decimalParts n) : '-' ∉ p := by
  unfold decimalParts at h
  split at h
  · rcases List.mem_pair.mp h with rfl | rfl
    · exact List.not_mem_nil
    · exact dash_notMem_decimal _
  · rw [List.mem_singleton.mp h]
    exact dash_notMem_decimal _

theorem dash_notMem_arrivalParts {n : Int} {p : Text} (h : p ∈ arrivalParts n) : '-' ∉ p := by
  unfold arrivalParts at h
  split at h
  · rcases List.mem_pair.mp h with rfl | rfl
    · decide
    · exact dash_notMem_decimal _
  · rw [List.mem_singleton.mp h]
    exact List.not_mem_cons_of_ne_of_not_mem (by decide) (dash_notMem_decimal _)

theorem dash_notMem_timestampParts {m : MessageRow} {p : Text} (h : p ∈ timestampParts m) :
    '-' ∉ p := by
  unfold timestampParts at h
  split at h
  · exact dash_notMem_decimalParts h
  · rcases List.mem_append.mp h with h | h
    · exact dash_notMem_arrivalParts h
    · rw [List.mem_singleton.mp h]
      exact dash_notMem_decimal _

theorem marked_timestampParts (m : MessageRow) :
    marked '-' (timestampParts m) = '-' :: contentTimestamp m := by
  unfold timestampParts contentTimestamp
  cases m.senderTimestamp with
  | some timestamp => exact marked_decimalParts timestamp
  | none => simp [marked_arrivalParts]

theorem marked_identityParts (m : MessageRow) :
    marked '-' (identityParts m) = '-' :: contentTimestamp m ++ senderSuffix m := by
  have hsuffix : marked '-' (contentSender m).toList = senderSuffix m := by
    unfold senderSuffix
    cases contentSender m <;> simp
  rw [identityParts, marked_append, hsuffix, marked_timestampParts]

theorem getMessageContentKey_eq (m : MessageRow) :
    getMessageContentKey m =
      m.type.code ++ '-' ::
        (m.conversationKey ++ '-' :: (m.text ++ marked '-' (identityParts m))) := by
  simp [getMessageContentKey, marked_identityParts]

theorem contentSender_eq_some {m : MessageRow} {senderKey : Text}
    (h : contentSender m = some senderKey) : m.senderKey = some senderKey := by
  unfold contentSender at h
  split at h
  · exact (Option.filter_eq_some_iff.mp h).1
  · cases h

theorem PlainKeys.parts {m : MessageRow} (h : PlainKeys m) : ∀ p ∈ identityParts m, '-' ∉ p := by
  intro p hp
  rcases List.mem_append.mp hp with hp | hp
  · exact dash_notMem_timestampParts hp
  · exact h.sender p (contentSender_eq_some (Option.mem_toList.mp hp))

theorem decimalParts_append_inj {m n : Int} {ps qs : List Text}
    (h : decimalParts m ++ ps = decimalParts n ++ qs) : m = n ∧ ps = qs := by
  unfold decimalParts at h
  split at h <;> split at h <;> simp only [List.cons_append, List.nil_append, List.cons.injEq] at h
  · obtain ⟨-, habs, rfl⟩ := h
    have := decimal_inj habs
    exact ⟨by omega, rfl⟩
  · exact absurd h.1.symm (decimal_ne_nil _)
  · exact absurd h.1 (decimal_ne_nil _)
  · obtain ⟨habs, rfl⟩ := h
    have := decimal_inj habs
    exact ⟨by omega, rfl⟩

theorem arrivalParts_append_inj {m n : Int} {ps qs : List Text}
    (h : arrivalParts m ++ ps = arrivalParts n ++ qs) : m = n ∧ ps = qs := by
  unfold arrivalParts at h
  split at h <;> split at h <;>
    simp only [List.cons_append, List.nil_append, List.cons.injEq, true_and] at h
  · obtain ⟨habs, rfl⟩ := h
    have := decimal_inj habs
    exact ⟨by omega, rfl⟩
  · exact absurd h.1.symm (decimal_ne_nil _)
  · exact absurd h.1 (decimal_ne_nil _)
  · obtain ⟨habs, rfl⟩ := h
    have := decimal_inj habs
    exact ⟨by omega, rfl⟩

/-- An arrival starts with a letter, a timestamp does not. -/
theorem decimalParts_append_ne {m n : Int} {ps qs : List Text} :
    decimalParts m ++ ps ≠ arrivalParts n ++ qs := by
  intro h
  have hhead : ∃ xs rest, decimalParts m ++ ps = ('r' :: xs) :: rest := by
    rw [h]
    unfold arrivalParts
    split <;> exact ⟨_, _, rfl⟩
  obtain ⟨xs, rest, hhead⟩ := hhead
  unfold decimalParts at hhead
  split at hhead <;> simp only [List.cons_append, List.cons.injEq] at hhead
  · cases hhead.1
  · have hr : 'r' ∈ decimal m.natAbs := by simp [hhead.1]
    exact absurd (isDigit_of_mem_decimal hr) (by decide)

/-- Two messages with the same parts have the same rowid, or the same timestamp and sender. -/
theorem eq_of_identityParts {a b : MessageRow} (h : identityParts a = identityParts b) :
    a.id = b.id ∨ a.senderTimestamp.isSome ∧ a.senderTimestamp = b.senderTimestamp ∧
      contentSender a = contentSender b := by
  unfold identityParts timestampParts at h
  cases ha : a.senderTimestamp with
  | some s =>
      cases hb : b.senderTimestamp with
      | some t =>
          rw [ha, hb] at h
          obtain ⟨rfl, hsender⟩ := decimalParts_append_inj h
          refine .inr ⟨rfl, rfl, ?_⟩
          simpa using congrArg List.head? hsender
      | none =>
          rw [ha, hb] at h
          exact absurd (h.trans (List.append_assoc ..)) decimalParts_append_ne
  | none =>
      cases hb : b.senderTimestamp with
      | some t =>
          rw [ha, hb] at h
          exact absurd (h.symm.trans (List.append_assoc ..)) decimalParts_append_ne
      | none =>
          rw [ha, hb] at h
          simp only [List.append_assoc] at h
          obtain ⟨-, hrest⟩ := arrivalParts_append_inj h
          exact .inl (decimal_inj (List.cons.inj hrest).1)

end Parts

section Clash

/-- Two rows that the table may hold together: their rowids differ and they share no index entry;
two direct messages that were sent differ in conversation, text or timestamp. -/
structure MayCoexist (a b : MessageRow) : Prop where
  ids : a.id ≠ b.id
  indexes : messageSchema.Distinct a b
  sent : a.type = .priv → b.type = .priv → a.outgoing = true → b.outgoing = true →
    a.conversationKey = b.conversationKey → a.text = b.text →
      a.senderTimestamp ≠ b.senderTimestamp

/-- A direct message that was sent and one that was received, alike but for the direction. -/
structure SentTwin (a b : MessageRow) : Prop where
  direct : a.type = .priv ∧ b.type = .priv
  directions : a.outgoing ≠ b.outgoing
  conversation : a.conversationKey = b.conversationKey
  text : a.text = b.text
  timestamp : a.senderTimestamp.isSome ∧ a.senderTimestamp = b.senderTimestamp
  sender : a.senderKey.getD [] = b.senderKey.getD []

/-- The text of `b` is the text of `a`, a dash and the first parts of the identity of `a`; the
other parts are the identity of `b`. -/
structure TextTakesParts (a b : MessageRow) : Prop where
  type : a.type = b.type
  conversation : a.conversationKey = b.conversationKey
  parts : ∃ k ≤ (identityParts a).length, 0 < k ∧ identityParts b = (identityParts a).drop k ∧
    b.text = a.text ++ marked '-' ((identityParts a).take k)

/-- The messages that one content key stands for. -/
def Clash (a b : MessageRow) : Prop := SentTwin a b ∨ TextTakesParts a b ∨ TextTakesParts b a

theorem contentSender_congr {a b : MessageRow} (ha : a.type = .priv) (hb : b.type = .priv) :
    contentSender a = contentSender b ↔ a.senderKey.getD [] = b.senderKey.getD [] := by
  unfold contentSender
  rw [if_pos ha, if_pos hb]
  rcases a.senderKey with _ | _ | ⟨c, rest⟩ <;> rcases b.senderKey with _ | _ | ⟨d, rest'⟩ <;>
    simp [Option.filter]

theorem MessageType.code_inj {s t : MessageType} {x y : Text}
    (h : s.code ++ x = t.code ++ y) : s = t ∧ x = y := by
  cases s <;> cases t <;> simp_all [MessageType.code]

/-- Equal keys: the same type and conversation, and texts that read into each other. -/
theorem getMessageContentKey_eq_iff {a b : MessageRow} (ha : PlainKeys a) (hb : PlainKeys b) :
    getMessageContentKey a = getMessageContentKey b ↔
      a.type = b.type ∧ a.conversationKey = b.conversationKey ∧
        (ReadsInto '-' a.text (identityParts a) b.text (identityParts b) ∨
          ReadsInto '-' b.text (identityParts b) a.text (identityParts a)) := by
  rw [getMessageContentKey_eq, getMessageContentKey_eq, ← append_marked_eq_iff ha.parts hb.parts]
  constructor
  · intro h
    obtain ⟨htype, h⟩ := MessageType.code_inj h
    obtain ⟨hconversation, h⟩ := cons_append_inj_of_notMem ha.conversation hb.conversation
      (List.cons.inj h).2
    exact ⟨htype, hconversation, h⟩
  · rintro ⟨htype, hconversation, h⟩
    rw [htype, hconversation, h]

theorem SentTwin.identityParts_eq {a b : MessageRow} (h : SentTwin a b) :
    identityParts a = identityParts b := by
  obtain ⟨timestamp, hts⟩ := Option.isSome_iff_exists.mp h.timestamp.1
  have hts' : b.senderTimestamp = some timestamp := h.timestamp.2 ▸ hts
  rw [identityParts, identityParts, (contentSender_congr h.direct.1 h.direct.2).mpr h.sender,
    timestampParts, timestampParts, hts, hts']

theorem TextTakesParts.readsInto {a b : MessageRow} (h : TextTakesParts a b) :
    ReadsInto '-' a.text (identityParts a) b.text (identityParts b) := by
  obtain ⟨k, hk, -, hparts, htext⟩ := h.parts
  exact readsInto_iff_take.mpr ⟨k, hk, hparts, htext⟩

/-- Messages with the same text and the same parts are one message sent and received. -/
theorem MayCoexist.sentTwin {a b : MessageRow} (h : MayCoexist a b) (htype : a.type = b.type)
    (hconversation : a.conversationKey = b.conversationKey) (htext : a.text = b.text)
    (hparts : identityParts a = identityParts b) : SentTwin a b := by
  obtain hid | ⟨hsome, hts, hsender⟩ := eq_of_identityParts hparts
  · exact absurd hid h.ids
  · have hunindexed : a.dedupKey = b.dedupKey → a.dedupKey = none := h.indexes
    cases ha : a.type with
    | chan =>
        have hb := htype.symm.trans ha
        simp [MessageRow.dedupKey, ha, hb, hconversation, htext, hts] at hunindexed
    | priv =>
        have hb := htype.symm.trans ha
        have hkeys := (contentSender_congr ha hb).mp hsender
        refine ⟨⟨ha, hb⟩, ?_, hconversation, htext, ⟨hsome, hts⟩, hkeys⟩
        intro hdirection
        cases hout : a.outgoing with
        | true => exact h.sent ha hb hout (hdirection ▸ hout) hconversation htext hts
        | false =>
            have hout' := hdirection.symm.trans hout
            simp [MessageRow.dedupKey, ha, hb, hout, hout', hconversation, htext, hts, hkeys]
              at hunindexed

/-- The rows that the table may hold together share a content key exactly when they clash. -/
theorem MayCoexist.key_eq_iff {a b : MessageRow} (h : MayCoexist a b) (ha : PlainKeys a)
    (hb : PlainKeys b) : getMessageContentKey a = getMessageContentKey b ↔ Clash a b := by
  rw [getMessageContentKey_eq_iff ha hb]
  constructor
  · rintro ⟨htype, hconversation, hreads | hreads⟩
    · obtain ⟨k, hk, hparts, htext⟩ := readsInto_iff_take.mp hreads
      rcases Nat.eq_zero_or_pos k with rfl | hpos
      · exact .inl (h.sentTwin htype hconversation (by simpa using htext.symm) hparts.symm)
      · exact .inr (.inl ⟨htype, hconversation, k, hk, hpos, hparts, htext⟩)
    · obtain ⟨k, hk, hparts, htext⟩ := readsInto_iff_take.mp hreads
      rcases Nat.eq_zero_or_pos k with rfl | hpos
      · exact .inl (h.sentTwin htype hconversation (by simpa using htext) hparts)
      · exact .inr (.inr ⟨htype.symm, hconversation.symm, k, hk, hpos, hparts, htext⟩)
  · rintro (h | h | h)
    · exact ⟨h.direct.1.trans h.direct.2.symm, h.conversation,
        .inl ⟨[], h.identityParts_eq, by simpa using h.text.symm⟩⟩
    · exact ⟨h.type, h.conversation, .inl h.readsInto⟩
    · exact ⟨h.type.symm, h.conversation.symm, .inr h.readsInto⟩

end Clash

end RemoteTerm
