import RemoteTerm.Services.DmIngest
import RemoteTerm.Services.Frames

/-!
# What a direct message adds to the table

Of a row only its text, its timestamp and its direction. Storing a direct
message adds one row unless the message is a repeat; which of the two happens is
decided before anything but these columns and the conversation has been read, so
two ingests of one message from one state leave the same contents.
-/

namespace RemoteTerm

open Library MessageRepository

/-- The text, the timestamp and the direction of a row. -/
def MessageRow.content (r : MessageRow) : Text × Option Int × Bool :=
  (r.text, r.senderTimestamp, r.outgoing)

/-- The contents of a table, in rowid order. -/
def contents (t : MessageTable) : List (Text × Option Int × Bool) :=
  t.rows.map MessageRow.content

namespace Op

/-- The calls that add no message. -/
def keepsContents : Op → Bool
  | .createMessage _ => false
  | _ => true

end Op

section Contents

variable {sha256 : Bytes → Bytes} {s s' : App}

theorem process_contents {op : Op} {x : op.Ans} (hop : op.keepsContents = true)
    (h : process sha256 op s x s') : contents s'.messages = contents s.messages := by
  obtain ⟨f, added, hrows, hkept, rfl | ⟨m, id, rfl, -⟩⟩ := process_rows h
  · rw [contents, hrows, List.append_nil, List.map_map]
    refine List.map_congr_left fun r _ => ?_
    have hr := hkept r
    simp only [Function.comp_apply, MessageRow.content, hr.text, hr.senderTimestamp, hr.outgoing]
  · simp [Op.keepsContents] at hop

/-- A program of such calls keeps the contents. -/
theorem eval_contents {α : Type} {p : Task α} {x : α}
    (h : Program.Eval (process sha256) p s x s') (hp : p.Calls fun op => op.keepsContents = true) :
    contents s'.messages = contents s.messages :=
  h.keeps (K := fun s s' => contents s'.messages = contents s.messages) (fun _ => rfl)
    (fun {a _ c} hab hbc => show contents c.messages = contents a.messages from hbc.trans hab)
    process_contents hp

theorem contents_create (t : MessageTable) (m : NewMessage) :
    contents (create t m).2 = contents t ++
      if (create t m).1 = none then [] else [(m.text, m.senderTimestamp, m.outgoing)] := by
  cases hc : (create t m).1 with
  | none => simp [create_of_none hc]
  | some id =>
      obtain ⟨-, hrows, -⟩ := create_of_some hc
      simp [contents, hrows, MessageRow.content, NewMessage.toRow]

end Contents

namespace DirectMessage

/-- The packet of the message is linked to a stored row. -/
def IsLinked (d : DirectMessage) (s : App) : Prop :=
  d.linkedPacketDedup = true ∧ ∃ p ∈ d.packetId,
    ((RawPacketRepository.getLinkedMessageId s.rawPackets p).bind (getById s.messages)).isSome

/-- A row with the content of the message is stored, and the caller looks for it. -/
def IsKnown (d : DirectMessage) (s : App) : Prop :=
  d.bestEffortContentDedup = true ∧
    (getByContent s.messages .priv d.conversationKey d.text (some d.senderTimestamp)
      (some d.outgoing)).isSome

/-- The index entry of the message is taken. -/
def IsRejected (d : DirectMessage) (s : App) : Prop := (create s.messages d.newMessage).1 = none

/-- A message that adds no row. -/
def IsRepeat (d : DirectMessage) (s : App) : Prop := d.IsLinked s ∨ d.IsKnown s ∨ d.IsRejected s

instance (d : DirectMessage) (s : App) : Decidable (d.IsLinked s) :=
  inferInstanceAs (Decidable (_ = true ∧ ∃ p ∈ d.packetId, _))

instance (d : DirectMessage) (s : App) : Decidable (d.IsKnown s) :=
  inferInstanceAs (Decidable (_ ∧ _))

instance (d : DirectMessage) (s : App) : Decidable (d.IsRejected s) :=
  inferInstanceAs (Decidable (_ = none))

instance (d : DirectMessage) (s : App) : Decidable (d.IsRepeat s) :=
  inferInstanceAs (Decidable (_ ∨ _ ∨ _))

/-- The content that storing a message adds. -/
def added (d : DirectMessage) (s : App) : List (Text × Option Int × Bool) :=
  if d.IsRepeat s then [] else [(d.text, some d.senderTimestamp, d.outgoing)]

end DirectMessage

section Store

variable {sha256 : Bytes → Bytes} {d : DirectMessage} {s s' : App} {x : Option Nat}

theorem insertDirectMessage_contents
    (h : Program.Eval (process sha256) (insertDirectMessage d) s x s') :
    contents s'.messages = contents s.messages ++
      if d.IsRejected s then [] else [(d.text, some d.senderTimestamp, d.outgoing)] := by
  simp only [insertDirectMessage, Program.await_bind, Program.eval_call_iff,
    process_createMessage] at h
  obtain ⟨msgId, t, ⟨hid, rfl⟩, h⟩ := h
  have hcreate := contents_create s.messages d.newMessage
  rw [← hid] at hcreate
  -- after the insert only paths, acks, links and contacts are written
  have hrest : contents s'.messages = contents (create s.messages d.newMessage).2 := by
    apply eval_contents h
    apply settleInsert_calls <;> intros <;> rfl
  have hrejected : d.IsRejected s ↔ msgId = none := by
    rw [hid]
    rfl
  rw [hrest, hcreate]
  simp only [hrejected]
  rfl

theorem reconciled_contents {existing : MessageRow} {packetId : Option Nat} {o : Observation}
    (h : Program.Eval (process sha256) (do
      reconcileDuplicateMessage existing packetId o
      pure (none : Option Nat)) s x s') : contents s'.messages = contents s.messages := by
  apply eval_contents h
  refine Program.Calls.bind ?_ fun _ => by simp
  exact reconcileDuplicateMessage_calls (fun _ _ => rfl) (fun _ => rfl) (fun _ _ _ => rfl) _ _

theorem storeByContent_contents
    (h : Program.Eval (process sha256) (storeByContent d) s x s') :
    contents s'.messages = contents s.messages ++
      if d.IsKnown s ∨ d.IsRejected s then []
      else [(d.text, some d.senderTimestamp, d.outgoing)] := by
  unfold storeByContent at h
  by_cases hbest : d.bestEffortContentDedup = true
  · simp only [hbest, if_true, Program.await_bind, Program.eval_call_iff,
      process_getByContent] at h
    obtain ⟨existing, t, ⟨hexisting, rfl⟩, h⟩ := h
    cases existing with
    | none =>
        have hknown : ¬ d.IsKnown t := by simp [DirectMessage.IsKnown, ← hexisting]
        simpa [hknown] using insertDirectMessage_contents h
    | some existing =>
        have hknown : d.IsKnown t := ⟨hbest, by simp [← hexisting]⟩
        simpa [hknown] using reconciled_contents h
  · have hknown : ¬ d.IsKnown s := fun hk => hbest hk.1
    simp only [hbest] at h
    simpa [hknown] using insertDirectMessage_contents h

theorem store_contents (h : Program.Eval (process sha256) (store d) s x s') :
    contents s'.messages = contents s.messages ++ d.added s := by
  have hcontent : ¬ d.IsLinked s → Program.Eval (process sha256) (storeByContent d) s x s' →
      contents s'.messages = contents s.messages ++ d.added s := by
    intro hlinked h
    simpa [DirectMessage.added, DirectMessage.IsRepeat, hlinked] using storeByContent_contents h
  unfold store at h
  split at h
  next packetId hdedup hpacket =>
    simp only [storeByLink, Program.await_bind, Program.eval_call_iff,
      process_getLinkedMessageId] at h
    obtain ⟨linked, t, ⟨hlink, rfl⟩, h⟩ := h
    cases linked with
    | none => exact hcontent (by simp [DirectMessage.IsLinked, hpacket, ← hlink]) h
    | some messageId =>
        simp only [Program.eval_call_iff, process_getMessageById] at h
        obtain ⟨existing, u, ⟨hexisting, rfl⟩, h⟩ := h
        cases existing with
        | none =>
            exact hcontent (by simp [DirectMessage.IsLinked, hpacket, ← hlink, ← hexisting]) h
        | some existing =>
            have hlinked : d.IsLinked u :=
              ⟨hdedup, packetId, hpacket, by simp [← hlink, ← hexisting]⟩
            simpa [DirectMessage.added, DirectMessage.IsRepeat, hlinked] using
              reconciled_contents h
  next hnone =>
    refine hcontent ?_ h
    rintro ⟨hdedup, p, hp, -⟩
    exact hnone p hdedup hp

/-- Storing a direct message adds its content, unless it is a repeat. -/
theorem storeDirectMessage_contents
    (h : Program.Eval (process sha256) (storeDirectMessage d) s x s') :
    contents s'.messages = contents s.messages ++ d.added s := by
  unfold storeDirectMessage at h
  split at h
  · simp only [Program.await_bind, Program.eval_call_iff, Program.eval_bind_iff] at h
    obtain ⟨_, t, hacquire, msgId, u, hstore, _, v, hrelease, h⟩ := h
    obtain ⟨-, rfl⟩ := Program.eval_pure_iff.mp h
    have hmessages := process_messages hacquire rfl
    have hpackets := process_rawPackets hacquire rfl
    have hrepeat : d.IsRepeat t ↔ d.IsRepeat s := by
      simp only [DirectMessage.IsRepeat, DirectMessage.IsLinked, DirectMessage.IsKnown,
        DirectMessage.IsRejected, hmessages, hpackets]
    have hadded : d.added t = d.added s := by simp only [DirectMessage.added, hrepeat]
    rw [process_messages hrelease rfl, store_contents hstore, hmessages, hadded]
  · exact store_contents h

end Store

/-- The same message, apart from when and over which route it was heard. -/
structure DirectMessage.SameAs (d₁ d₂ : DirectMessage) : Prop where
  packetId : d₁.packetId = d₂.packetId
  conversationKey : d₁.conversationKey = d₂.conversationKey
  text : d₁.text = d₂.text
  senderTimestamp : d₁.senderTimestamp = d₂.senderTimestamp
  outgoing : d₁.outgoing = d₂.outgoing
  senderKey : d₁.senderKey = d₂.senderKey
  bestEffort : d₁.bestEffortContentDedup = d₂.bestEffortContentDedup
  linkedPacket : d₁.linkedPacketDedup = d₂.linkedPacketDedup

theorem DirectMessage.SameAs.added_eq {d₁ d₂ : DirectMessage} (h : d₁.SameAs d₂) (s : App) :
    d₁.added s = d₂.added s := by
  have hkey : d₁.newMessage.dedupKey = d₂.newMessage.dedupKey := by
    simp only [NewMessage.dedupKey, MessageRow.dedupKey, NewMessage.toRow,
      DirectMessage.newMessage, h.conversationKey, h.text, h.senderTimestamp, h.senderKey]
    by_cases hout : d₂.outgoing = true <;> simp [hout, h.outgoing]
  have hrepeat : d₁.IsRepeat s ↔ d₂.IsRepeat s := by
    simp only [DirectMessage.IsRepeat, DirectMessage.IsLinked, DirectMessage.IsKnown,
      DirectMessage.IsRejected, create_eq_none_iff, hkey, h.packetId, h.conversationKey, h.text,
      h.senderTimestamp, h.outgoing, h.bestEffort, h.linkedPacket]
  simp only [DirectMessage.added, hrepeat, h.text, h.senderTimestamp, h.outgoing]

/-- The same decrypted message, apart from when and over which route it was heard. -/
structure DecryptedIngest.SameAs (d₁ d₂ : DecryptedIngest) : Prop where
  packetId : d₁.packetId = d₂.packetId
  decrypted : d₁.decrypted = d₂.decrypted
  theirPublicKey : d₁.theirPublicKey = d₂.theirPublicKey
  outgoing : d₁.outgoing = d₂.outgoing

section Ingest

variable {sha256 : Bytes → Bytes} {d₁ d₂ : DecryptedIngest} {s s₁ s₂ : App}
  {x₁ x₂ : Option (Option Nat)}

theorem storeDecrypted_contents (h : d₁.SameAs d₂) {conversationKey : Text}
    {senderName senderKey signature : Option Text}
    (h₁ : Program.Eval (process sha256)
      (storeDecrypted d₁ conversationKey senderName senderKey signature) s x₁ s₁)
    (h₂ : Program.Eval (process sha256)
      (storeDecrypted d₂ conversationKey senderName senderKey signature) s x₂ s₂) :
    contents s₁.messages = contents s₂.messages := by
  simp only [storeDecrypted, Program.eval_bind_iff] at h₁ h₂
  obtain ⟨_, t₁, hstore₁, hpure₁⟩ := h₁
  obtain ⟨_, t₂, hstore₂, hpure₂⟩ := h₂
  obtain ⟨-, rfl⟩ := Program.eval_pure_iff.mp hpure₁
  obtain ⟨-, rfl⟩ := Program.eval_pure_iff.mp hpure₂
  rw [storeDirectMessage_contents hstore₁, storeDirectMessage_contents hstore₂]
  congr 1
  apply DirectMessage.SameAs.added_eq
  constructor <;> simp only [h.packetId, h.decrypted, h.outgoing]

/-- A program of calls that read no clock has one run from each state. -/
theorem eval_unique {α : Type} {p : Task α} {x y : α} {t u : App}
    (h : Program.Eval (process sha256) p s x t) (h' : Program.Eval (process sha256) p s y u)
    (hp : p.Calls fun op => op.readsEnvironment = false) : x = y ∧ t = u := by
  refine h.unique ?_ h' hp
  intro op s x s' y s'' hop hx hy
  exact process_unique hop hx hy

theorem storeIncoming_contents (h : d₁.SameAs d₂) {contact : Contact} {conversationKey : Text}
    (h₁ : Program.Eval (process sha256) (storeIncoming d₁ contact conversationKey) s x₁ s₁)
    (h₂ : Program.Eval (process sha256) (storeIncoming d₂ contact conversationKey) s x₂ s₂) :
    contents s₁.messages = contents s₂.messages := by
  simp only [storeIncoming, h.decrypted, h.theirPublicKey] at h₁ h₂
  split at h₁
  next signer hroom hsigner =>
    simp only [hroom, hsigner, Program.eval_bind_iff] at h₂
    simp only [Program.eval_bind_iff] at h₁
    obtain ⟨author, t, hauthor, h₁⟩ := h₁
    obtain ⟨author', t', hauthor', h₂⟩ := h₂
    obtain ⟨rfl, rfl⟩ := eval_unique hauthor hauthor'
      (resolveDirectMessageSenderMetadata_calls rfl fun _ => rfl)
    cases author with
    | none =>
        obtain ⟨-, rfl⟩ := Program.eval_pure_iff.mp h₁
        obtain ⟨-, rfl⟩ := Program.eval_pure_iff.mp h₂
        rfl
    | some author => exact storeDecrypted_contents h h₁ h₂
  next hnone =>
    split at h₂
    next signer hroom hsigner => exact absurd hsigner (hnone signer hroom)
    next => exact storeDecrypted_contents h h₁ h₂

/-- Two ingests of one message from one state leave the same contents. -/
theorem ingestDecryptedDirectMessage_contents (h : d₁.SameAs d₂)
    (h₁ : Program.Eval (process sha256) (ingestDecryptedDirectMessage d₁) s x₁ s₁)
    (h₂ : Program.Eval (process sha256) (ingestDecryptedDirectMessage d₂) s x₂ s₂) :
    contents s₁.messages = contents s₂.messages := by
  simp only [ingestDecryptedDirectMessage, h.outgoing, h.decrypted, h.theirPublicKey] at h₁ h₂
  split at h₁
  next hcli =>
    -- the reply of a remote command line is not stored
    rw [if_pos hcli] at h₂
    obtain ⟨-, rfl⟩ := Program.eval_pure_iff.mp h₁
    obtain ⟨-, rfl⟩ := Program.eval_pure_iff.mp h₂
    rfl
  next hcli =>
    rw [if_neg hcli] at h₂
    simp only [Program.await_bind, Program.eval_call_iff, process_getContactByKey] at h₁ h₂
    obtain ⟨contact, t, ⟨hcontact, rfl⟩, h₁⟩ := h₁
    obtain ⟨contact', t', ⟨hcontact', rfl⟩, h₂⟩ := h₂
    obtain rfl : contact = contact' := by rw [hcontact, hcontact', h.theirPublicKey]
    cases contact with
    | none => exact storeDecrypted_contents h h₁ h₂
    | some contact =>
        simp only [Program.eval_bind_iff] at h₁ h₂
        obtain ⟨prepared, u, hprepared, h₁⟩ := h₁
        obtain ⟨prepared', u', hprepared', h₂⟩ := h₂
        obtain ⟨rfl, rfl⟩ := eval_unique hprepared hprepared' (prepareResolvedContact_calls rfl)
        rcases prepared with _ | ⟨conversationKey, _ | _⟩
        · obtain ⟨-, rfl⟩ := Program.eval_pure_iff.mp h₁
          obtain ⟨-, rfl⟩ := Program.eval_pure_iff.mp h₂
          rfl
        · by_cases hout : d₂.outgoing = true
          · simp only [hout, if_true] at h₁ h₂
            exact storeDecrypted_contents h h₁ h₂
          · simp only [hout] at h₁ h₂
            exact storeIncoming_contents h h₁ h₂
        · obtain ⟨-, rfl⟩ := Program.eval_pure_iff.mp h₁
          obtain ⟨-, rfl⟩ := Program.eval_pure_iff.mp h₂
          rfl

end Ingest

end RemoteTerm
