import RemoteTerm.Repository.Messages
import RemoteTerm.Repository.Contacts

/-!
# Claiming messages stored under a key prefix

`MessageRepository.claim_prefix_messages` rewrites the conversation key, and the
author where it is the same prefix, of every direct message stored under a
prefix of a full key that a single contact now matches. The rewritten columns
are index columns, so the statement can be refused.
-/

namespace RemoteTerm

open Library

namespace MessageRepository

/-- `SELECT COUNT(*)` of the full-key contacts that a prefix matches. -/
def fullKeyMatches (contacts : ContactTable) (keyPrefix : Text) : Nat :=
  contacts.rows.countP fun c => c.publicKey.length = 64 ∧ like (keyPrefix ++ ['%']) c.publicKey

/-- The `WHERE` clause of `claim_prefix_messages`. -/
def isClaimed (contacts : ContactTable) (lowerKey : Text) (r : MessageRow) : Bool :=
  r.type = .priv ∧ r.conversationKey.length < 64 ∧ like (r.conversationKey ++ ['%']) lowerKey ∧
    fullKeyMatches contacts r.conversationKey = 1

/-- The `CASE` on the author: a prefix of the claiming key becomes that key. -/
def claimSenderKey (lowerKey : Text) (senderKey : Option Text) : Option Text :=
  senderKey.map fun s => if s.length < 64 ∧ like (s ++ ['%']) lowerKey then lowerKey else s

/-- The row that a claimed row becomes. -/
def claimRow (lowerKey : Text) (r : MessageRow) : MessageRow :=
  { r with conversationKey := lowerKey, senderKey := claimSenderKey lowerKey r.senderKey }

/-- A row after the claim. -/
def afterClaim (contacts : ContactTable) (lowerKey : Text) (r : MessageRow) : MessageRow :=
  if isClaimed contacts lowerKey r then claimRow lowerKey r else r

/-- `claim_prefix_messages`: the number of claimed rows, or `none` for the
`IntegrityError` of a dedup index. -/
def claimPrefixMessages (contacts : ContactTable) (t : MessageTable) (fullKey : Text) :
    Option (Nat × MessageTable) :=
  (t.updateWhere (isClaimed contacts (lower fullKey)) (claimRow (lower fullKey))
    fun _ => rfl).map fun t' => (t.rows.countP (isClaimed contacts (lower fullKey)), t')

/-- A claimed row collides with another row: after the rewrite both would stand
under one entry of the dedup index of incoming direct messages. -/
def ClaimCollides (contacts : ContactTable) (t : MessageTable) (lowerKey : Text) : Prop :=
  ∃ a ∈ t.rows, ∃ b ∈ t.rows, a.id ≠ b.id ∧ isClaimed contacts lowerKey a ∧
    (isClaimed contacts lowerKey b ∨ b.type = .priv ∧ b.conversationKey = lowerKey) ∧
    a.outgoing = false ∧ b.outgoing = false ∧ a.text = b.text ∧
    a.senderTimestamp.getD 0 = b.senderTimestamp.getD 0 ∧
    ((afterClaim contacts lowerKey a).senderKey.getD []) =
      (afterClaim contacts lowerKey b).senderKey.getD []

instance (contacts : ContactTable) (t : MessageTable) (lowerKey : Text) :
    Decidable (ClaimCollides contacts t lowerKey) :=
  inferInstanceAs (Decidable (∃ a ∈ t.rows, ∃ b ∈ t.rows, _))

variable {contacts : ContactTable} {t : MessageTable} {lowerKey fullKey : Text}

theorem isClaimed_iff {r : MessageRow} :
    isClaimed contacts lowerKey r = true ↔
      r.type = .priv ∧ r.conversationKey.length < 64 ∧
        like (r.conversationKey ++ ['%']) lowerKey = true ∧
        fullKeyMatches contacts r.conversationKey = 1 := by
  simp [isClaimed]

theorem afterClaim_id (r : MessageRow) : (afterClaim contacts lowerKey r).id = r.id := by
  unfold afterClaim
  split <;> rfl

theorem claimRow_senderKey (r : MessageRow) :
    (claimRow lowerKey r).senderKey = claimSenderKey lowerKey r.senderKey := rfl

/-- The index entry of a claimed row. -/
theorem dedupKey_claimRow {r : MessageRow} (h : isClaimed contacts lowerKey r) :
    (claimRow lowerKey r).dedupKey =
      if r.outgoing then none
      else some (.incomingDirect lowerKey r.text (r.senderTimestamp.getD 0)
        ((claimSenderKey lowerKey r.senderKey).getD [])) := by
  have ht : r.type = .priv := (isClaimed_iff.mp h).1
  simp only [MessageRow.dedupKey, claimRow, ht]

/-- A row that is not claimed yet cannot stand under the full key. -/
theorem claimed_distinct (hfull : lowerKey.length = 64) {a b : MessageRow}
    (ha : isClaimed contacts lowerKey a) (hb : isClaimed contacts lowerKey b) :
    messageSchema.Distinct b (claimRow lowerKey a) := by
  intro hk
  simp only [messageSchema_key, dedupKey_claimRow ha] at hk ⊢
  obtain ⟨ht, hlen, -, -⟩ := isClaimed_iff.mp hb
  cases hao : a.outgoing with
  | true => simpa [hao] using hk
  | false =>
      simp only [hao, MessageRow.dedupKey, ht, Bool.false_eq_true, if_false] at hk
      split at hk
      next => simp at hk
      next =>
        simp only [Option.some.injEq, DedupKey.incomingDirect.injEq] at hk
        have hlt := hlen
        rw [hk.1, hfull] at hlt
        exact absurd hlt (Nat.lt_irrefl 64)

/-- A claimed row meets another row after the rewrite exactly when their messages agree. -/
theorem not_distinct_afterClaim_iff {a b : MessageRow} (ha : isClaimed contacts lowerKey a) :
    ¬ messageSchema.Distinct (afterClaim contacts lowerKey a) (afterClaim contacts lowerKey b) ↔
      (isClaimed contacts lowerKey b ∨ b.type = .priv ∧ b.conversationKey = lowerKey) ∧
        a.outgoing = false ∧ b.outgoing = false ∧ a.text = b.text ∧
        a.senderTimestamp.getD 0 = b.senderTimestamp.getD 0 ∧
        ((afterClaim contacts lowerKey a).senderKey.getD []) =
          (afterClaim contacts lowerKey b).senderKey.getD [] := by
  have haft : afterClaim contacts lowerKey a = claimRow lowerKey a := if_pos ha
  rw [Schema.not_distinct_iff]
  simp only [messageSchema_key, haft, dedupKey_claimRow ha]
  cases hao : a.outgoing with
  | true => simp
  | false =>
      by_cases hb : isClaimed contacts lowerKey b
      · have hbft : afterClaim contacts lowerKey b = claimRow lowerKey b := if_pos hb
        cases hbo : b.outgoing with
        | true => simp [hbft, dedupKey_claimRow hb, hbo]
        | false =>
            simp only [hbft, dedupKey_claimRow hb, hbo, hb, claimRow_senderKey]
            simp [eq_comm]
      · have hbft : afterClaim contacts lowerKey b = b := if_neg hb
        cases hbt : b.type with
        | chan => simp [hbft, MessageRow.dedupKey, hb, hbt]
        | priv =>
            cases hbo : b.outgoing with
            | true => simp [hbft, MessageRow.dedupKey, hbt, hbo]
            | false =>
                simp only [hbft, MessageRow.dedupKey, hbt, hbo, hb, claimRow_senderKey]
                simp [eq_comm]

/-- Two rows that are not claimed stay distinct. -/
theorem distinct_afterClaim_of_not_claimed {a b : MessageRow} (hra : a ∈ t.rows)
    (hrb : b ∈ t.rows) (hne : a.id ≠ b.id) (ha : ¬ isClaimed contacts lowerKey a)
    (hb : ¬ isClaimed contacts lowerKey b) :
    messageSchema.Distinct (afterClaim contacts lowerKey a) (afterClaim contacts lowerKey b) := by
  simp only [afterClaim, if_neg ha, if_neg hb]
  exact t.unique.forall hra hrb fun hab => hne (congrArg MessageRow.id hab)

/-- The claim is refused exactly when a claimed row collides. -/
theorem claimPrefixMessages_eq_none_iff (hfull : (lower fullKey).length = 64) :
    claimPrefixMessages contacts t fullKey = none ↔
      ClaimCollides contacts t (lower fullKey) := by
  have hsome : (t.updateWhere (isClaimed contacts (lower fullKey)) (claimRow (lower fullKey))
      fun _ => rfl).isSome ↔
        (t.rows.map (afterClaim contacts (lower fullKey))).Pairwise messageSchema.Distinct :=
    t.updateWhere_isSome_iff fun a _ ha b _ hb => claimed_distinct hfull ha hb
  have hpair := t.pairwise_map_iff (afterClaim contacts (lower fullKey))
  have hiff : claimPrefixMessages contacts t fullKey = none ↔
      ¬ ∀ a ∈ t.rows, ∀ b ∈ t.rows, a.id ≠ b.id →
        messageSchema.Distinct (afterClaim contacts (lower fullKey) a)
          (afterClaim contacts (lower fullKey) b) := by
    rw [claimPrefixMessages, Option.map_eq_none_iff, ← Option.not_isSome_iff_eq_none]
    exact not_congr (hsome.trans hpair)
  rw [hiff]
  constructor
  · intro h
    simp only [not_forall] at h
    obtain ⟨a, hra, b, hrb, hne, hd⟩ := h
    by_cases ha : isClaimed contacts (lower fullKey) a
    · exact ⟨a, hra, b, hrb, hne, ha, (not_distinct_afterClaim_iff ha).mp hd⟩
    · by_cases hb : isClaimed contacts (lower fullKey) b
      · have hd' : ¬ messageSchema.Distinct (afterClaim contacts (lower fullKey) b)
            (afterClaim contacts (lower fullKey) a) := fun h => hd h.symm
        exact ⟨b, hrb, a, hra, Ne.symm hne, hb, (not_distinct_afterClaim_iff hb).mp hd'⟩
      · exact absurd (distinct_afterClaim_of_not_claimed hra hrb hne ha hb) hd
  · rintro ⟨a, hra, b, hrb, hne, ha, hcond⟩ h
    exact (not_distinct_afterClaim_iff ha).mpr hcond (h a hra b hrb hne)

/-- A claim that is not refused rewrites every claimed row and touches no other. -/
theorem claimPrefixMessages_rows {n : Nat} {t' : MessageTable}
    (h : claimPrefixMessages contacts t fullKey = some (n, t')) :
    t'.rows = t.rows.map (afterClaim contacts (lower fullKey)) ∧ t'.nextId = t.nextId := by
  simp only [claimPrefixMessages, Option.map_eq_some_iff, Prod.mk.injEq] at h
  obtain ⟨u, hu, -, rfl⟩ := h
  exact t.updateWhere_rows hu

/-- The claim is answered, and every incoming message that stood under a claimed prefix or
under the full key stands under the full key exactly once. -/
def ClaimSafe (contacts : ContactTable) (t : MessageTable) (fullKey : Text) : Prop :=
  ∃ n t', claimPrefixMessages contacts t fullKey = some (n, t') ∧
    ∀ r ∈ t.rows, r.type = .priv → r.outgoing = false →
      (isClaimed contacts (lower fullKey) r ∨ r.conversationKey = lower fullKey) →
      t'.rows.countP (fun q => q.dedupKey = some (.incomingDirect (lower fullKey) r.text
        (r.senderTimestamp.getD 0) ((afterClaim contacts (lower fullKey) r).senderKey.getD []))) =
        1

/-- A claim is safe exactly when no claimed row collides. -/
theorem claimSafe_iff (hfull : (lower fullKey).length = 64) :
    ClaimSafe contacts t fullKey ↔ ¬ ClaimCollides contacts t (lower fullKey) := by
  rw [← claimPrefixMessages_eq_none_iff hfull]
  constructor
  · rintro ⟨n, t', h, -⟩
    simp [h]
  · intro h
    obtain ⟨⟨n, t'⟩, hclaim⟩ := Option.ne_none_iff_exists'.mp h
    refine ⟨n, t', hclaim, fun r hr htype hin hunder => ?_⟩
    have hmem : afterClaim contacts (lower fullKey) r ∈ t'.rows := by
      rw [(claimPrefixMessages_rows hclaim).1]
      exact List.mem_map.mpr ⟨r, hr, rfl⟩
    have hkey : (afterClaim contacts (lower fullKey) r).dedupKey =
        some (.incomingDirect (lower fullKey) r.text (r.senderTimestamp.getD 0)
          ((afterClaim contacts (lower fullKey) r).senderKey.getD [])) := by
      by_cases hc : isClaimed contacts (lower fullKey) r
      · simp [afterClaim, hc, claimRow, MessageRow.dedupKey, htype, hin]
      · simp [afterClaim, hc, MessageRow.dedupKey, htype, hin, hunder.resolve_left hc]
    exact countP_dedupKey (t'.holder_eq_some_iff.mpr ⟨hmem, hkey⟩)

/-- A claim leaves the rows under full keys with their index entries. -/
theorem holder_claimPrefixMessages {n : Nat} {t' : MessageTable}
    (h : claimPrefixMessages contacts t fullKey = some (n, t')) {r : MessageRow} {k : DedupKey}
    (hr : t.holder k = some r) (hlen : r.conversationKey.length = 64) : t'.holder k = some r := by
  obtain ⟨hmem, hkey⟩ := t.holder_eq_some_iff.mp hr
  have hnot : ¬ isClaimed contacts (lower fullKey) r := by
    intro hc
    have hlt := (isClaimed_iff.mp hc).2.1
    omega
  refine t'.holder_eq_some_iff.mpr ⟨?_, hkey⟩
  rw [(claimPrefixMessages_rows h).1]
  exact List.mem_map.mpr ⟨r, hmem, if_neg hnot⟩

end MessageRepository

end RemoteTerm
