import Mathlib.Data.Finset.Card
import RemoteTerm.Packets.DmAgreement
import RemoteTerm.Send.DirectMessage
import RemoteTerm.Services.StoreLock

/-!
# A sent direct message is stored once

A send transmits and only then stores its row, while its own packet may already
come back through repeaters. No dedup index covers outgoing direct messages. A
packet of ours decrypts with no contact unless its two hash bytes are equal, and
then it is stored as outgoing only when the row of the send is found; so the send
alone adds rows of sent messages.
-/

namespace RemoteTerm

open Library MessageRepository ContactRepository

/-- The content of a sent direct message. -/
structure SentMessage where
  conversationKey : Text
  text : Text
  senderTimestamp : Option Int
  deriving DecidableEq

/-- The content of a row that is a sent direct message. -/
def MessageRow.sentMessage (r : MessageRow) : Option SentMessage :=
  if r.type = .priv ∧ r.outgoing then some ⟨r.conversationKey, r.text, r.senderTimestamp⟩ else none

/-- The sent direct messages of a table, in rowid order. -/
def sentMessages (t : MessageTable) : List SentMessage := t.rows.filterMap MessageRow.sentMessage

/-- Sent messages are stored under full keys: a send to a contact that is only known by a
prefix is refused. -/
def SentUnderFullKeys (s : App) : Prop :=
  ∀ m ∈ sentMessages s.messages, m.conversationKey.length = 64

/-- A direct message with this content is stored, in either direction. -/
def Known (key text : Text) (s : App) (timestamp : Int) : Prop :=
  ∃ r ∈ s.messages.rows, r.matchesContent .priv key text (some timestamp) none = true

namespace Op

/-- The calls that add no sent message. -/
def keepsSent : Op → Prop
  | .createMessage m => ¬ (m.msgType = .priv ∧ m.outgoing = true)
  | _ => True

/-- The calls that add no sent message and reserve no timestamp. -/
def isQuiet : Op → Prop
  | .createMessage m => ¬ (m.msgType = .priv ∧ m.outgoing = true)
  | .reserve .. | .releaseReservation .. => False
  | _ => True

theorem isQuiet.keepsSent {op : Op} (h : op.isQuiet) : op.keepsSent := by
  cases op <;> first | exact h | trivial

end Op

/-- No sent message is lost. -/
def SentGrows (s s' : App) : Prop := sentMessages s.messages ⊆ sentMessages s'.messages

theorem SentGrows.refl (s : App) : SentGrows s s := List.Subset.refl _

theorem SentGrows.trans {a b c : App} (hab : SentGrows a b) (hbc : SentGrows b c) :
    SentGrows a c :=
  List.Subset.trans hab hbc

/-- What a task that sends nothing does: no sent message and no reservation comes or goes, and
no message is lost. -/
structure Quiet (s s' : App) : Prop where
  sent : sentMessages s'.messages = sentMessages s.messages
  reservations : s'.reservations = s.reservations
  known : ∀ key text timestamp, key.length = 64 → Known key text s timestamp →
    Known key text s' timestamp

theorem Quiet.refl (s : App) : Quiet s s := ⟨rfl, rfl, fun _ _ _ _ h => h⟩

theorem Quiet.trans {a b c : App} (hab : Quiet a b) (hbc : Quiet b c) : Quiet a c where
  sent := hbc.sent.trans hab.sent
  reservations := hbc.reservations.trans hab.reservations
  known := fun key text timestamp hlen h =>
    hbc.known key text timestamp hlen (hab.known key text timestamp hlen h)

theorem Quiet.grows {s s' : App} (h : Quiet s s') : SentGrows s s' := by
  rw [SentGrows, h.sent]
  exact List.Subset.refl _

section Steps

variable {sha256 : Bytes → Bytes} {op : Op} {s s' : App} {x : op.Ans}

theorem RowKept.sentMessage_eq {r r' : MessageRow} (h : RowKept op r r')
    (hfull : ∀ m ∈ r.sentMessage, m.conversationKey.length = 64) :
    r'.sentMessage = r.sentMessage := by
  unfold MessageRow.sentMessage at hfull ⊢
  rw [h.type, h.outgoing, h.text, h.senderTimestamp]
  split
  next hsent =>
    have hlen : r.conversationKey.length = 64 := by simpa [hsent] using hfull
    rw [h.conversationKey hlen]
  next => rfl

/-- The sent messages after a call: the insert of one adds it. -/
theorem process_sentMessages (hI : SentUnderFullKeys s) (h : process sha256 op s x s') :
    ∃ added, sentMessages s'.messages = sentMessages s.messages ++ added ∧
      (op.keepsSent → added = []) := by
  obtain ⟨f, rows, hrows, hkept, hadded⟩ := process_rows h
  refine ⟨rows.filterMap MessageRow.sentMessage, ?_, fun hop => ?_⟩
  · rw [sentMessages, hrows, List.filterMap_append, List.filterMap_map, sentMessages]
    congr 1
    refine List.filterMap_congr fun r hr => ?_
    refine (hkept r).sentMessage_eq fun m hm => hI m ?_
    exact List.mem_filterMap.mpr ⟨r, hr, hm⟩
  · rcases hadded with rfl | ⟨m, id, rfl, rfl⟩
    · rfl
    · have hnone : (m.toRow id).sentMessage = none := if_neg hop
      simp [hnone]

/-- No call loses a message under a full key. -/
theorem process_known (h : process sha256 op s x s') {key text : Text} {timestamp : Int}
    (hlen : key.length = 64) (hk : Known key text s timestamp) : Known key text s' timestamp := by
  obtain ⟨f, rows, hrows, hkept, -⟩ := process_rows h
  obtain ⟨r, hr, hmatch⟩ := hk
  obtain ⟨htype, hkey, htext, hts, -⟩ := MessageRow.matchesContent_iff.mp hmatch
  have hf := hkept r
  refine ⟨f r, ?_, ?_⟩
  · rw [hrows]
    exact List.mem_append_left _ (List.mem_map_of_mem hr)
  · rw [MessageRow.matchesContent_iff]
    refine ⟨hf.type.trans htype, ?_, hf.text.trans htext, hf.senderTimestamp.trans hts, rfl⟩
    rw [hf.conversationKey (hkey ▸ hlen), hkey]

theorem process_reservations (h : process sha256 op s x s') (hop : op.isQuiet) :
    s'.reservations = s.reservations := by
  obtain ⟨c, hc⟩ := h
  cases op <;> simp only [Op.isQuiet] at hop <;> simp only [perform] at hc <;> grind

/-- A quiet call of a task. -/
theorem quiet_step (hI : SentUnderFullKeys s) (h : process sha256 op s x s') (hop : op.isQuiet) :
    SentUnderFullKeys s' ∧ Quiet s s' := by
  obtain ⟨added, hsent, hnil⟩ := process_sentMessages hI h
  rw [hnil hop.keepsSent, List.append_nil] at hsent
  refine ⟨?_, hsent, process_reservations h hop, fun _ _ _ hlen => process_known h hlen⟩
  intro m hm
  exact hI m (hsent ▸ hm)

/-- A call that adds no sent message, of a task that may reserve timestamps. -/
theorem keepsSent_step (hI : SentUnderFullKeys s) (h : process sha256 op s x s')
    (hop : op.keepsSent) :
    SentUnderFullKeys s' ∧ sentMessages s'.messages = sentMessages s.messages := by
  obtain ⟨added, hsent, hnil⟩ := process_sentMessages hI h
  rw [hnil hop, List.append_nil] at hsent
  refine ⟨fun m hm => hI m ?_, hsent⟩
  exact hsent ▸ hm

end Steps

theorem mem_sentMessages_iff {t : MessageTable} {m : SentMessage} :
    m ∈ sentMessages t ↔ ∃ r ∈ t.rows,
      r.matchesContent .priv m.conversationKey m.text m.senderTimestamp (some true) = true := by
  simp only [sentMessages, List.mem_filterMap, MessageRow.sentMessage, MessageRow.matchesContent_iff,
    Option.getD_some]
  constructor
  · rintro ⟨r, hr, h⟩
    split at h
    next hsent =>
      obtain rfl := Option.some.inj h
      exact ⟨r, hr, hsent.1, rfl, rfl, rfl, hsent.2.symm⟩
    next => simp at h
  · rintro ⟨r, hr, htype, hkey, htext, hts, hout⟩
    exact ⟨r, hr, by simp [htype, ← hout, hkey, htext, hts]⟩

/-- The content lookup for a sent message finds it exactly when it is stored. -/
theorem getByContent_sent_isSome_iff {t : MessageTable} {key text : Text} {ts : Option Int} :
    (getByContent t .priv key text ts (some true)).isSome ↔ ⟨key, text, ts⟩ ∈ sentMessages t := by
  rw [← not_iff_not, Bool.not_eq_true, Option.isSome_eq_false_iff, Option.isNone_iff_eq_none,
    getByContent_eq_none_iff, mem_sentMessages_iff]
  simp only [not_exists, not_and, Bool.not_eq_true]

section Receive

variable {sha256 : Bytes → Bytes} {s : App}

/-- Run beside a send, the task adds no sent message and relies on none being lost. -/
abbrev Receives {α : Type} (sha256 : Bytes → Bytes) (Q : α → App → Prop) (p : Task α) (s : App) :
    Prop :=
  Program.Guarded ((process sha256).when fun _ _ => True) SentUnderFullKeys SentGrows Quiet Q p s

/-- A quiet call, and what follows it. -/
theorem receives_call {α : Type} {Q : α → App → Prop} {op : Op} {next : op.Ans → Task α}
    (hI : SentUnderFullKeys s) (hop : op.isQuiet)
    (h : ∀ s' x s'', SentGrows s s' → Quiet s' s'' → process sha256 op s' x s'' →
      SentUnderFullKeys s'' → Receives sha256 Q (next x) s'') :
    Receives sha256 Q (.call op next) s := by
  apply Program.Guarded.call hI
  rintro s' x s'' hI' hgrows ⟨-, hx⟩
  have hstep := quiet_step hI' hx hop
  exact ⟨hstep, h s' x s'' hgrows hstep.2 hx hstep.1⟩

theorem receives_of_calls {α : Type} {p : Task α} (hp : p.Calls Op.isQuiet)
    (hI : SentUnderFullKeys s) : Receives sha256 (fun _ t => SentUnderFullKeys t) p s := by
  refine (hp.guarded (K := fun _ => True) (fun _ _ => trivial) ?_ hI trivial).mono
    fun _ _ ht => ht.1
  rintro op t x t' hop hIt - ⟨-, hx⟩
  exact ⟨quiet_step hIt hx hop, trivial⟩

/-- A task that only goes on with quiet calls. -/
theorem receives_bind {α β : Type} {Q : α → App → Prop} {p : Task α} {f : α → Task β}
    (hp : Receives sha256 Q p s) (hf : ∀ a t, Q a t → Receives sha256 (fun _ _ => True) (f a) t) :
    Receives sha256 (fun _ _ => True) (p >>= f) s :=
  Program.Guarded.bind SentGrows.refl (hp.mono hf)

theorem reconcile_isQuiet (existing : MessageRow) (packetId : Option Nat) (o : Observation) :
    (reconcileDuplicateMessage existing packetId o).Calls Op.isQuiet :=
  reconcileDuplicateMessage_calls (fun _ _ => trivial) (fun _ => trivial) (fun _ _ _ => trivial)
    _ _

section Echo

variable {d : DirectMessage} (hbest : d.bestEffortContentDedup = true) (hout : d.outgoing = true)

include hbest hout

/-- An echo whose message is stored is reconciled into it. -/
theorem storeByContent_receives (hI : SentUnderFullKeys s)
    (hsent : ⟨d.conversationKey, d.text, some d.senderTimestamp⟩ ∈ sentMessages s.messages) :
    Receives sha256 (fun _ t => SentUnderFullKeys t) (storeByContent d) s := by
  simp only [storeByContent, hbest, if_true, Program.await_bind]
  apply receives_call hI (by trivial)
  intro s' x s'' hgrows _ hx hI''
  obtain ⟨rfl, rfl⟩ := process_getByContent.mp hx
  have hfound : (getByContent s''.messages .priv d.conversationKey d.text
      (some d.senderTimestamp) (some d.outgoing)).isSome := by
    rw [hout]
    exact getByContent_sent_isSome_iff.mpr (hgrows hsent)
  cases hex : getByContent s''.messages .priv d.conversationKey d.text (some d.senderTimestamp)
      (some d.outgoing) with
  | none => simp [hex] at hfound
  | some existing =>
      refine receives_of_calls ?_ hI''
      exact Program.Calls.bind (reconcile_isQuiet _ _ _) fun _ => by simp

theorem store_receives (hI : SentUnderFullKeys s)
    (hsent : ⟨d.conversationKey, d.text, some d.senderTimestamp⟩ ∈ sentMessages s.messages) :
    Receives sha256 (fun _ t => SentUnderFullKeys t) (store d) s := by
  unfold store
  split
  next packetId _ _ =>
    simp only [storeByLink, Program.await_bind]
    apply receives_call hI (by trivial)
    intro s' linked s'' hgrows hquiet _ hI''
    have hsent'' := hquiet.grows (hgrows hsent)
    cases linked with
    | none => exact storeByContent_receives hbest hout hI'' hsent''
    | some messageId =>
        apply receives_call hI'' (by trivial)
        intro t existing t' hgrows' hquiet' _ hIt'
        cases existing with
        | none =>
            exact storeByContent_receives hbest hout hIt' (hquiet'.grows (hgrows' hsent''))
        | some existing =>
            refine receives_of_calls ?_ hIt'
            exact Program.Calls.bind (reconcile_isQuiet _ _ _) fun _ => by simp
  next => exact storeByContent_receives hbest hout hI hsent

theorem storeDirectMessage_receives (hI : SentUnderFullKeys s)
    (hsent : ⟨d.conversationKey, d.text, some d.senderTimestamp⟩ ∈ sentMessages s.messages) :
    Receives sha256 (fun _ _ => True) (storeDirectMessage d) s := by
  unfold storeDirectMessage
  split
  · simp only [Program.await_bind]
    apply receives_call hI (by trivial)
    intro s' _ s'' hgrows hquiet _ hI''
    refine receives_bind (store_receives hbest hout hI'' (hquiet.grows (hgrows hsent)))
      fun msgId t hIt => ?_
    refine (receives_of_calls ?_ hIt).mono fun _ _ _ => trivial
    exact ⟨trivial, fun _ => trivial⟩
  · exact (store_receives hbest hout hI hsent).mono fun _ _ _ => trivial

end Echo

/-- An incoming message adds no sent one. -/
theorem ingestIncoming_receives {d : DecryptedIngest} (hout : d.outgoing = false)
    (hI : SentUnderFullKeys s) :
    Receives sha256 (fun _ _ => True) (ingestDecryptedDirectMessage d) s := by
  refine (receives_of_calls ?_ hI).mono fun _ _ _ => trivial
  refine (ingestDecryptedDirectMessage_calls d).mono fun op hop => ?_
  cases op with
  | createMessage m =>
      rintro ⟨-, hm⟩
      simp [hop.2.2.2, hout] at hm
  | reserve => exact hop.elim
  | releaseReservation => exact hop.elim
  | _ => trivial

/-- The echo of a stored sent message adds none. -/
theorem ingestEcho_receives {d : DecryptedIngest} (hout : d.outgoing = true)
    (hI : SentUnderFullKeys s)
    (hsent : ⟨lower d.theirPublicKey, d.decrypted.message, some d.decrypted.timestamp⟩ ∈
      sentMessages s.messages) :
    Receives sha256 (fun _ _ => True) (ingestDecryptedDirectMessage d) s := by
  have hstore : ∀ {t}, SentUnderFullKeys t →
      ⟨lower d.theirPublicKey, d.decrypted.message, some d.decrypted.timestamp⟩ ∈
        sentMessages t.messages →
      Receives sha256 (fun _ _ => True)
        (storeDecrypted d (lower d.theirPublicKey) none none none) t := by
    intro t hIt hsent'
    refine Program.Guarded.bind SentGrows.refl ?_
    refine (storeDirectMessage_receives hout hout hIt hsent').mono fun _ u _ => ?_
    exact fun _ _ => trivial
  simp only [ingestDecryptedDirectMessage, hout, not_true_eq_false, false_and, if_false, if_true,
    Program.await_bind]
  apply receives_call hI (by trivial)
  intro s' x s'' hgrows hquiet hx hI''
  have hsent'' := hquiet.grows (hgrows hsent)
  obtain ⟨hcontact, rfl⟩ := process_getContactByKey.mp hx
  cases x with
  | none => exact hstore hI'' hsent''
  | some contact =>
      have hkey : lower contact.publicKey = lower d.theirPublicKey := by
        rw [getByKey_publicKey hcontact.symm, lower_idem, lower_idem]
      simp only [prepareResolvedContact, hkey, Program.await_bind, Program.call_bind]
      apply receives_call hI'' (by trivial)
      intro t claimed t' hgrows' hquiet' _ hIt'
      have hsent' := hquiet'.grows (hgrows' hsent'')
      cases claimed with
      | none => exact fun _ _ => trivial
      | some n =>
          simp only [Program.pure_eq, Program.pure_bind]
          cases hrepeater : decide (contact.type = contactTypeRepeater) with
          | true => exact fun _ _ => trivial
          | false => exact hstore hIt' hsent'

/-- An incoming packet is only taken for an echo when the sent message is stored. -/
theorem resolveDirection_receives {destHash srcHash : UInt8} {contact : Contact}
    {m : DecryptedDirectMessage} (hI : SentUnderFullKeys s) :
    Receives sha256 (fun outgoing t => SentUnderFullKeys t ∧ (outgoing = true →
      ⟨lower contact.publicKey, m.message, some m.timestamp⟩ ∈ sentMessages t.messages))
      (resolveDirection false destHash srcHash contact m) s := by
  unfold resolveDirection
  split
  · simp only [Program.await_bind]
    apply receives_call hI (by trivial)
    intro s' x s'' _ _ hx hI''
    obtain ⟨rfl, rfl⟩ := process_getByContent.mp hx
    refine Program.Guarded.pure hI'' fun t hIt hgrows => ⟨hIt, fun hfound => ?_⟩
    exact hgrows (getByContent_sent_isSome_iff.mp hfound)
  · exact Program.Guarded.pure hI fun t hIt _ => ⟨hIt, by simp⟩

variable {env : Pipeline} {r : Reception} {packetId : Nat} {packetInfo : PacketInfo}
  {scope : Option Nat × Option Text}

/-- A direct message packet adds no sent message: a packet of ours decrypts with no contact,
or is the echo of a stored one. -/
theorem processDirectMessage_receives (hinfo : parsePacket r.rawBytes = some packetInfo)
    (hI : SentUnderFullKeys s) :
    Receives sha256 (fun _ _ => True) (processDirectMessage env r packetId packetInfo scope) s := by
  unfold processDirectMessage
  split
  next privateKey ourPublicKey destHash srcHash _ _ _ _ _ hpayload =>
    cases hdirection : packetDirection destHash srcHash (ourPublicKey.getD 0 0) with
    | none => exact fun _ _ => trivial
    | some isOutgoing =>
        simp only [processCandidates, Program.await_bind]
        apply receives_call hI (by trivial)
        intro s' x s'' _ _ hx hI''
        obtain ⟨rfl, rfl⟩ := process_getContactsByFirstByte.mp hx
        cases isOutgoing with
        | true =>
            have hne : srcHash ≠ destHash := by
              rintro rfl
              simp [packetDirection] at hdirection
            have hnone := decryptingContact_outgoing env.crypto privateKey s''.contacts
              hinfo (by simpa [hpayload])
            simp only [hpayload, List.getD_cons_zero] at hnone
            simp only [if_true, hnone]
            exact fun _ _ => trivial
        | false =>
            cases decryptingContact env.crypto privateKey
                (if false = true then none else some ourPublicKey) r.rawBytes
                (getByPubkeyFirstByte s''.contacts
                  (hexOfBytes [if false = true then destHash else srcHash])) with
            | none => exact fun _ _ => trivial
            | some found =>
                obtain ⟨contact, m⟩ := found
                refine receives_bind (resolveDirection_receives hI'') ?_
                rintro outgoing t ⟨hIt, hsent⟩
                refine Program.Guarded.bind SentGrows.refl ?_
                have hingest : Receives sha256 (fun _ _ => True) (ingestDecryptedDirectMessage
                    (liveIngest r packetId packetInfo scope contact m outgoing)) t := by
                  cases outgoing with
                  | true => exact ingestEcho_receives rfl hIt (hsent rfl)
                  | false => exact ingestIncoming_receives rfl hIt
                exact hingest.mono fun _ _ _ _ _ => trivial
  next => exact fun _ _ => trivial

/-- The calls of a channel message packet. -/
def Op.ofChannelPacket : Op → Prop
  | .createMessage m => m.msgType = .chan
  | .addPath .. | .incrementAckCount _ | .getByContent .. | .markDecrypted .. => True
  | .getContactsByName _ | .getChannels => True
  | _ => False

theorem processGroupText_calls {packetInfo : Option PacketInfo} :
    (processGroupText env r packetId packetInfo scope).Calls Op.ofChannelPacket := by
  refine Program.Calls.bind (Program.calls_await.mpr trivial) fun channels => ?_
  split
  · simp
  next channel decrypted _ =>
    refine Program.Calls.bind ?_ fun _ => by simp
    unfold createMessageFromDecrypted storeChannelMessage
    refine Program.Calls.bind ?_ fun senderKey => ?_
    · unfold resolveSenderKey
      split
      · simp
      · simp
      · refine Program.Calls.bind (Program.calls_await.mpr trivial) fun candidates => ?_
        split <;> simp
    · refine Program.Calls.bind (Program.calls_await.mpr ?_) fun msgId => ?_
      · simp [Op.ofChannelPacket, DecryptedChannelMessage.newMessage]
      · cases msgId with
        | none =>
            refine Program.Calls.bind ?_ fun _ => by simp
            exact handleDuplicateMessage_calls trivial (fun _ _ => trivial) (fun _ => trivial)
              fun _ _ _ => trivial
        | some msgId =>
            exact Program.Calls.bind (markDecrypted_calls (fun _ _ _ => trivial) msgId)
              fun _ => by simp

/-- A channel message adds no sent direct message. -/
theorem processGroupText_isQuiet {packetInfo : Option PacketInfo} :
    (processGroupText env r packetId packetInfo scope).Calls Op.isQuiet := by
  refine processGroupText_calls.mono fun op hop => ?_
  cases op with
  | createMessage m =>
      rintro ⟨hpriv, -⟩
      exact absurd (hop.symm.trans hpriv) (by decide)
  | _ => trivial

theorem applyDmAckCode_isQuiet (ackCode : Text) : (applyDmAckCode ackCode).Calls Op.isQuiet := by
  refine Program.Calls.bind (Program.calls_await.mpr trivial) fun due => ?_
  cases due with
  | none => simp
  | some messageId => exact Program.Calls.bind (Program.calls_await.mpr trivial) fun _ => by simp

/-- The calls of a returned path. -/
def Op.ofPathPacket : Op → Prop
  | .getContactsByFirstByte _ | .updateDirectPath .. | .getContactByKey _ => True
  | .claimAck _ | .incrementAckCount _ => True
  | _ => False

theorem processPathPacket_calls : (processPathPacket env r packetInfo).Calls Op.ofPathPacket := by
  unfold processPathPacket
  split
  · split
    · exact trivial
    · refine Program.Calls.bind (Program.calls_await.mpr trivial) fun candidates => ?_
      split
      · exact trivial
      next contact result _ =>
        refine Program.Calls.bind (Program.calls_await.mpr trivial) fun _ => ?_
        refine Program.Calls.bind ?_ fun _ =>
          Program.Calls.bind (Program.calls_await.mpr trivial) fun _ => by simp
        cases bundledAckCode result with
        | none => exact trivial
        | some ackCode =>
            refine Program.Calls.bind ?_ fun _ => by simp
            refine Program.Calls.bind (Program.calls_await.mpr trivial) fun due => ?_
            cases due with
            | none => exact trivial
            | some messageId =>
                exact Program.Calls.bind (Program.calls_await.mpr trivial) fun _ => by simp
  · exact trivial

theorem processPathPacket_isQuiet : (processPathPacket env r packetInfo).Calls Op.isQuiet := by
  refine processPathPacket_calls.mono fun op hop => ?_
  cases op <;> trivial

/-- Receiving a packet, of whatever type, adds no sent message. -/
theorem processRawPacket_receives (env : Pipeline) (r : Reception) (hI : SentUnderFullKeys s) :
    Receives sha256 (fun _ _ => True) (processRawPacket env r) s := by
  simp only [processRawPacket, Program.await_bind]
  apply receives_call hI (by trivial)
  intro s' created s'' _ _ _ hI''
  cases hinfo : parsePacket r.rawBytes with
  | none => exact fun _ _ => trivial
  | some packetInfo =>
      have hscope : (resolveScope env.crypto packetInfo).Calls Op.isQuiet := by
        unfold resolveScope
        split
        · simp
        · exact Program.Calls.bind (Program.calls_await.mpr trivial) fun _ => by simp
      refine receives_bind (receives_of_calls hscope hI'') fun scope t hIt => ?_
      unfold processPayload
      split
      · exact (receives_of_calls processGroupText_isQuiet hIt).mono fun _ _ _ => trivial
      · exact processDirectMessage_receives hinfo hIt
      · split
        · refine (receives_of_calls ?_ hIt).mono fun _ _ _ => trivial
          exact Program.Calls.bind (applyDmAckCode_isQuiet _) fun _ => by simp
        · exact fun _ _ => trivial
      · exact (receives_of_calls processPathPacket_isQuiet hIt).mono fun _ _ _ => trivial
      · exact fun _ _ => trivial

end Receive

/-- The first timestamps of a search are reserved or stored with the content. -/
def Tried (d : DirectSend) (rounds : Nat) (s : App) : Prop :=
  ∀ i < rounds, (d.reservationKey, d.sentAt + i) ∈ s.reservations ∨
    Known d.conversationKey d.text s (d.sentAt + i)

/-- A search is no longer than there are reservations and messages. -/
theorem Tried.le {d : DirectSend} {rounds : Nat} {s : App} (h : Tried d rounds s) :
    rounds ≤ s.reservations.length + s.messages.rows.length := by
  have hsub : Finset.range rounds ⊆
      (s.reservations.map fun r => (r.2 - d.sentAt).toNat).toFinset ∪
        (s.messages.rows.map fun r => (r.senderTimestamp.getD 0 - d.sentAt).toNat).toFinset := by
    intro i hi
    rw [Finset.mem_union, List.mem_toFinset, List.mem_toFinset, List.mem_map, List.mem_map]
    have hback : (d.sentAt + i - d.sentAt).toNat = i := by omega
    rcases h i (Finset.mem_range.mp hi) with hr | ⟨r, hr, hmatch⟩
    · exact Or.inl ⟨_, hr, hback⟩
    · have hts := (MessageRow.matchesContent_iff.mp hmatch).2.2.2.1
      exact Or.inr ⟨r, hr, by rw [hts]; exact hback⟩
  calc
    rounds = (Finset.range rounds).card := (Finset.card_range rounds).symm
    _ ≤ _ := Finset.card_le_card hsub
    _ ≤ _ := Finset.card_union_le _ _
    _ ≤ _ := Nat.add_le_add (List.toFinset_card_le _) (List.toFinset_card_le _)
    _ = s.reservations.length + s.messages.rows.length := by
        rw [List.length_map, List.length_map]

section Send

variable {sha256 : Bytes → Bytes} {s : App} {d : DirectSend} {sent : List SentMessage}

/-- Run beside receptions, the task loses no sent message and relies on none being added. -/
abbrev Sends {α : Type} (sha256 : Bytes → Bytes) (Q : α → App → Prop) (p : Task α) (s : App) :
    Prop :=
  Program.Guarded ((process sha256).when fun _ _ => True) SentUnderFullKeys Quiet SentGrows Q p s

/-- The message of a send under a timestamp. -/
def DirectSend.message (d : DirectSend) (timestamp : Int) : SentMessage :=
  ⟨d.conversationKey, d.text, some timestamp⟩

/-- A call that adds no sent message, and what follows it. -/
theorem sends_call {α : Type} {Q : α → App → Prop} {op : Op} {next : op.Ans → Task α}
    (hI : SentUnderFullKeys s) (hop : op.keepsSent)
    (h : ∀ s' x s'', Quiet s s' → process sha256 op s' x s'' → SentUnderFullKeys s'' →
      sentMessages s''.messages = sentMessages s.messages → Sends sha256 Q (next x) s'') :
    Sends sha256 Q (.call op next) s := by
  apply Program.Guarded.call hI
  rintro s' x s'' hI' hquiet ⟨-, hx⟩
  obtain ⟨hI'', hsame⟩ := keepsSent_step hI' hx hop
  refine ⟨⟨hI'', ?_⟩, h s' x s'' hquiet hx hI'' (hsame.trans hquiet.sent)⟩
  rw [SentGrows, hsame]
  exact List.Subset.refl _

/-- A quiet call of a send, and what follows it. -/
theorem sends_quiet_call {α : Type} {Q : α → App → Prop} {op : Op} {next : op.Ans → Task α}
    (hI : SentUnderFullKeys s) (hop : op.isQuiet)
    (h : ∀ x s'', Quiet s s'' → SentUnderFullKeys s'' → Sends sha256 Q (next x) s'') :
    Sends sha256 Q (.call op next) s := by
  apply Program.Guarded.call hI
  rintro s' x s'' hI' hquiet ⟨-, hx⟩
  obtain ⟨hI'', hq⟩ := quiet_step hI' hx hop
  exact ⟨⟨hI'', hq.grows⟩, h x s'' (hquiet.trans hq) hI''⟩

/-- A task of quiet calls keeps what quiet calls keep. -/
theorem sends_of_calls {α : Type} {p : Task α} {K : App → Prop} (hp : p.Calls Op.isQuiet)
    (hquiet : ∀ {s s'}, Quiet s s' → K s → K s') (hI : SentUnderFullKeys s) (h : K s) :
    Sends sha256 (fun _ t => SentUnderFullKeys t ∧ K t) p s := by
  refine hp.guarded (fun hq hKt => hquiet hq hKt) ?_ hI h
  rintro op t x t' hop hIt hKt ⟨-, hx⟩
  obtain ⟨hIt', hq⟩ := quiet_step hIt hx hop
  exact ⟨⟨hIt', hq.grows⟩, hquiet hq hKt⟩

/-- What the search for a timestamp has found. -/
def Allocated (d : DirectSend) (sent : List SentMessage) (rounds : Nat) (found : Option Int)
    (s : App) : Prop :=
  SentUnderFullKeys s ∧ sentMessages s.messages = sent ∧
    match found with
    | none => Tried d rounds s
    | some timestamp => d.message timestamp ∉ sent

theorem Tried.quiet {rounds : Nat} {s' : App} (hkey : d.conversationKey.length = 64)
    (h : Tried d rounds s) (hq : Quiet s s') : Tried d rounds s' := by
  intro i hi
  rw [hq.reservations]
  exact (h i hi).imp_right fun hk => hq.known _ _ _ hkey hk

theorem Tried.succ {rounds : Nat} (h : Tried d rounds s)
    (hlast : (d.reservationKey, d.sentAt + rounds) ∈ s.reservations ∨
      Known d.conversationKey d.text s (d.sentAt + rounds)) : Tried d (rounds + 1) s := by
  intro i hi
  rcases Nat.lt_succ_iff_lt_or_eq.mp hi with hlt | rfl
  · exact h i hlt
  · exact hlast

/-- The search finds a timestamp without a sent message, or has tried one in each round. -/
theorem allocateOutgoingSenderTimestamp_sends (hkey : d.conversationKey.length = 64)
    (rounds tried : Nat) (hI : SentUnderFullKeys s) (hsent : sentMessages s.messages = sent)
    (htried : Tried d tried s) :
    Sends sha256 (Allocated d sent (tried + rounds))
      (allocateOutgoingSenderTimestamp d.reservationKey rounds (d.sentAt + tried)) s := by
  induction rounds generalizing tried s with
  | zero =>
      refine Program.Guarded.pure hI fun s' hI' hq => ⟨hI', hq.sent.trans hsent, ?_⟩
      exact htried.quiet hkey hq
  | succ rounds ih =>
      have hnext : ∀ {t}, SentUnderFullKeys t → sentMessages t.messages = sent → Tried d tried t →
          ((d.reservationKey, d.sentAt + tried) ∈ t.reservations ∨
            Known d.conversationKey d.text t (d.sentAt + tried)) →
          Sends sha256 (Allocated d sent (tried + (rounds + 1)))
            (allocateOutgoingSenderTimestamp d.reservationKey rounds (d.sentAt + tried + 1)) t := by
        intro t hIt hsent' htried' hlast
        have hrest := ih (tried + 1) hIt hsent' (htried'.succ hlast)
        rw [show tried + 1 + rounds = tried + (rounds + 1) by omega] at hrest
        have hcandidate : d.sentAt + ((tried + 1 : Nat) : Int) = d.sentAt + tried + 1 := by omega
        rwa [hcandidate] at hrest
      simp only [allocateOutgoingSenderTimestamp, Program.await_bind]
      apply sends_call hI (by trivial)
      intro s₁ isReserved s₁' hq₁ hx₁ hI₁ hsame₁
      obtain ⟨rfl, rfl⟩ := process_isReserved.mp hx₁
      have htried₁ := htried.quiet hkey hq₁
      by_cases hres : (d.reservationKey, d.sentAt + tried) ∈ s₁'.reservations
      · simp only [hres, decide_true, if_true]
        exact hnext hI₁ (hsame₁.trans hsent) htried₁ (Or.inl hres)
      · simp only [hres, decide_false, Bool.false_eq_true, if_false]
        apply sends_call hI₁ (by trivial)
        intro s₂ existing s₂' hq₂ hx₂ hI₂ hsame₂
        obtain ⟨hexisting, rfl⟩ := process_getByContent.mp hx₂
        have htried₂ := htried₁.quiet hkey hq₂
        have hsent₂ := hsame₂.trans (hsame₁.trans hsent)
        cases existing with
        | some r =>
            obtain ⟨hr, hmatch, -⟩ := (getByContent_eq_some_iff _).mp hexisting.symm
            exact hnext hI₂ hsent₂ htried₂ (Or.inr ⟨r, hr, hmatch⟩)
        | none =>
            have hfree : d.message (d.sentAt + tried) ∉ sent := by
              rw [← hsent₂, mem_sentMessages_iff]
              rintro ⟨r, hr, hmatch⟩
              have hnone := (getByContent_eq_none_iff _).mp hexisting.symm r hr
              have hcontent := MessageRow.matchesContent_iff.mp hmatch
              simp only [DirectSend.message] at hcontent
              simp [DirectSend.reservationKey, MessageRow.matchesContent, hcontent.1,
                hcontent.2.1, hcontent.2.2.1, hcontent.2.2.2.1] at hnone
            apply sends_call hI₂ (by trivial)
            intro s₃ reserved s₃' hq₃ hx₃ hI₃ hsame₃
            rw [process_reserve] at hx₃
            split at hx₃
            next hres₃ =>
              obtain ⟨rfl, rfl⟩ := hx₃
              exact hnext hI₃ (hsame₃.trans hsent₂) (htried₂.quiet hkey hq₃) (Or.inl hres₃)
            next =>
              obtain ⟨rfl, -⟩ := hx₃
              refine Program.Guarded.pure hI₃ fun t hIt hq => ⟨hIt, ?_, hfree⟩
              exact hq.sent.trans (hsame₃.trans hsent₂)

theorem temporaryFloodScope_isQuiet (firmwareVersion : Option Nat) (override : Option Text)
    (command : RadioCommand) (reports : Bool) :
    (temporaryFloodScope firmwareVersion override command reports).Calls Op.isQuiet :=
  temporaryFloodScope_calls (fun _ => trivial) trivial fun _ => trivial

theorem applyDirectMessageAckTracking_isQuiet (result : RadioReply) (messageId : Nat) :
    (applyDirectMessageAckTracking result messageId).Calls Op.isQuiet :=
  applyDirectMessageAckTracking_calls (fun _ _ => trivial) trivial

/-- What the radio operation of a send leaves. -/
def Transmitted (d : DirectSend) (sent : List SentMessage) (rounds : Nat) (t : Transmission)
    (s : App) : Prop :=
  sentMessages s.messages = sent ∧
    match t with
    | .raised => True
    | .allocating => Tried d rounds s
    | .sent timestamp _ => d.message timestamp ∉ sent

theorem Transmitted.quiet {rounds : Nat} {t : Transmission} {s' : App}
    (hkey : d.conversationKey.length = 64) (hq : Quiet s s') (h : Transmitted d sent rounds t s) :
    Transmitted d sent rounds t s' := by
  refine ⟨hq.sent.trans h.1, ?_⟩
  cases t with
  | raised => trivial
  | allocating => exact Tried.quiet hkey h.2 hq
  | sent timestamp result => exact h.2

variable (hkey : d.conversationKey.length = 64)

include hkey

theorem transmitToContact_sends (rounds : Nat) (hI : SentUnderFullKeys s)
    (hsent : sentMessages s.messages = sent) :
    Sends sha256 (fun t u => SentUnderFullKeys u ∧ Transmitted d sent rounds t u)
      (transmitToContact d rounds) s := by
  simp only [transmitToContact, Program.await_bind]
  apply sends_quiet_call hI (by trivial)
  intro added s'' hq hI''
  have hsent'' := hq.sent.trans hsent
  -- both answers without a type raise
  have hraised : Sends sha256 (fun t u => SentUnderFullKeys u ∧ Transmitted d sent rounds t u)
      (.pure .raised) s'' :=
    Program.Guarded.pure hI'' fun t hIt hq => ⟨hIt, hq.sent.trans hsent'', trivial⟩
  have hgo : Sends sha256 (fun t u => SentUnderFullKeys u ∧ Transmitted d sent rounds t u)
      (do
        let allocated ← allocateOutgoingSenderTimestamp d.reservationKey rounds d.sentAt
        match allocated with
        | none => pure .allocating
        | some senderTimestamp => do
            let result ← temporaryFloodScope d.firmwareVersion d.contact.floodScopeOverride
              (.sendMsg d.contact.publicKey d.text senderTimestamp 0) d.reports
            pure (.sent senderTimestamp result)) s'' := by
    have hallocate : Sends sha256 (Allocated d sent (0 + rounds))
        (allocateOutgoingSenderTimestamp d.reservationKey rounds (d.sentAt + (0 : Nat))) s'' :=
      allocateOutgoingSenderTimestamp_sends hkey rounds 0 hI'' hsent''
        fun i hi => absurd hi (Nat.not_lt_zero i)
    rw [Nat.zero_add, Int.natCast_zero, Int.add_zero] at hallocate
    refine Program.Guarded.bind Quiet.refl (hallocate.mono ?_)
    rintro (_ | timestamp) t ⟨hIt, hsent', hfound⟩
    · exact Program.Guarded.pure hIt fun u hIu hq =>
        ⟨hIu, hq.sent.trans hsent', Tried.quiet hkey hfound hq⟩
    · refine Program.Guarded.bind Quiet.refl ?_
      refine (sends_of_calls (K := fun u => sentMessages u.messages = sent)
        (temporaryFloodScope_isQuiet _ _ _ _) (fun hq h => hq.sent.trans h) hIt hsent').mono ?_
      rintro result u ⟨hIu, hsentu⟩
      exact Program.Guarded.pure hIu fun v hIv hq => ⟨hIv, hq.sent.trans hsentu, hfound⟩
  cases added <;> first | exact hraised | exact hgo

theorem transmitDirectMessage_sends (rounds : Nat) (hI : SentUnderFullKeys s)
    (hsent : sentMessages s.messages = sent) :
    Sends sha256 (fun t u => SentUnderFullKeys u ∧ Transmitted d sent rounds t u)
      (transmitDirectMessage d rounds) s := by
  simp only [transmitDirectMessage, Program.await_bind]
  apply sends_quiet_call hI (by trivial)
  intro grant s'' hq hI''
  have hsent'' := hq.sent.trans hsent
  have hraised : Sends sha256 (fun t u => SentUnderFullKeys u ∧ Transmitted d sent rounds t u)
      (.pure .raised) s'' :=
    Program.Guarded.pure hI'' fun t hIt hq => ⟨hIt, hq.sent.trans hsent'', trivial⟩
  cases grant with
  | busy => exact hraised
  | disconnected => exact hraised
  | granted =>
      refine Program.Guarded.bind Quiet.refl ?_
      refine (transmitToContact_sends hkey rounds hI'' hsent'').mono ?_
      rintro tr t ⟨hIt, htr⟩
      apply sends_quiet_call hIt (by trivial)
      intro _ u hq hIu
      exact Program.Guarded.pure hIu fun v hIv hq' => ⟨hIv, htr.quiet hkey (hq.trans hq')⟩

omit hkey in
/-- No index covers the row of a sent message, so it is never rejected. -/
theorem create_sent_ne_none (t : MessageTable) {m : NewMessage} (htype : m.msgType = .priv)
    (hout : m.outgoing = true) : (create t m).1 ≠ none := by
  rw [ne_eq, create_eq_none_iff]
  rintro ⟨k, r, hk, -⟩
  simp [NewMessage.dedupKey, NewMessage.toRow, MessageRow.dedupKey, htype, hout] at hk

/-- A transmitted message is stored under a timestamp that no sent message had. -/
theorem storeTransmitted_sends {timestamp : Int} {result : RadioReply}
    (hI : SentUnderFullKeys s) (hsent : sentMessages s.messages = sent)
    (hfree : d.message timestamp ∉ sent) :
    Sends sha256 (fun id t => SentUnderFullKeys t ∧ match id with
        | none => sentMessages t.messages = sent
        | some _ => (sentMessages t.messages).count (d.message timestamp) = 1)
      (storeTransmitted d timestamp result) s := by
  unfold storeTransmitted
  split
  next =>
    unfold createOutgoingDirectMessage
    apply Program.Guarded.call hI
    rintro s' x s'' hI' hq ⟨-, hx⟩
    obtain ⟨rfl, rfl⟩ := process_createMessage.mp hx
    obtain ⟨id, hid⟩ := Option.ne_none_iff_exists'.mp (create_sent_ne_none s'.messages
      (m :=
        { msgType := .priv, text := d.text, conversationKey := d.conversationKey,
          senderTimestamp := some timestamp, receivedAt := d.sentAt, outgoing := true }) rfl rfl)
    have hrows := (create_of_some hid).2.1
    have hstored : sentMessages (create s'.messages
        { msgType := .priv, text := d.text, conversationKey := d.conversationKey,
          senderTimestamp := some timestamp, receivedAt := d.sentAt, outgoing := true }).2 =
        sent ++ [d.message timestamp] := by
      rw [sentMessages, hrows, List.filterMap_append, ← sentMessages, hq.sent, hsent]
      rfl
    have hfull : SentUnderFullKeys { s' with messages := (create s'.messages
        { msgType := .priv, text := d.text, conversationKey := d.conversationKey,
          senderTimestamp := some timestamp, receivedAt := d.sentAt, outgoing := true }).2 } := by
      intro m hm
      rw [hstored, List.mem_append, List.mem_singleton] at hm
      rcases hm with hm | rfl
      · exact hI m (hsent ▸ hm)
      · exact hkey
    refine ⟨⟨hfull, fun m hm => ?_⟩, ?_⟩
    · rw [hstored]
      rw [hq.sent, hsent] at hm
      exact List.mem_append_left _ hm
    · rw [hid]
      refine Program.Guarded.pure hfull fun t hIt hq' => ⟨hIt, ?_⟩
      calc
        (sentMessages t.messages).count (d.message timestamp) =
            (sent ++ [d.message timestamp]).count (d.message timestamp) := by
          rw [hq'.sent, hstored]
        _ = sent.count (d.message timestamp) + 1 := by
          rw [List.count_append, List.count_singleton_self]
        _ = 1 := by rw [List.count_eq_zero.mpr hfree]
  next => exact Program.Guarded.pure hI fun t hIt hq => ⟨hIt, hq.sent.trans hsent⟩

/-- How a send leaves the sent messages. -/
def SendSettled (d : DirectSend) (sent : List SentMessage) (rounds : Nat) (r : SendResult)
    (s : App) : Prop :=
  match r with
  | .raised => sentMessages s.messages = sent
  | .allocating => Tried d rounds s
  | .stored _ timestamp _ => (sentMessages s.messages).count (d.message timestamp) = 1

omit hkey in
theorem SendSettled.quiet {rounds : Nat} {r : SendResult} {s' : App}
    (hkey : d.conversationKey.length = 64) (hq : Quiet s s') (h : SendSettled d sent rounds r s) :
    SendSettled d sent rounds r s' := by
  cases r with
  | raised => exact hq.sent.trans h
  | allocating => exact Tried.quiet hkey h hq
  | stored id timestamp retries =>
      exact (congrArg (List.count (d.message timestamp)) hq.sent).trans h

/-- A send ends in one stored message, or with an exception and none. -/
theorem sendDirectMessageToContact_sends (rounds : Nat) (hI : SentUnderFullKeys s)
    (hsent : sentMessages s.messages = sent) :
    Sends sha256 (fun r t => SentUnderFullKeys t ∧ SendSettled d sent rounds r t)
      (sendDirectMessageToContact d rounds) s := by
  unfold sendDirectMessageToContact
  refine Program.Guarded.bind Quiet.refl ?_
  refine (transmitDirectMessage_sends hkey rounds hI hsent).mono ?_
  rintro transmission t ⟨hIt, hsent', htransmitted⟩
  cases transmission with
  | raised => exact Program.Guarded.pure hIt fun u hIu hq => ⟨hIu, hq.sent.trans hsent'⟩
  | allocating =>
      exact Program.Guarded.pure hIt fun u hIu hq => ⟨hIu, Tried.quiet hkey htransmitted hq⟩
  | sent timestamp result =>
      refine Program.Guarded.bind Quiet.refl ?_
      refine (storeTransmitted_sends hkey hIt hsent' htransmitted).mono ?_
      rintro message u ⟨hIu, hmessage⟩
      apply sends_call hIu (by trivial)
      intro _ _ v _ _ hIv hsame
      cases message with
      | none =>
          exact Program.Guarded.pure hIv fun w hIw hq =>
            ⟨hIw, (hq.sent.trans hsame).trans hmessage⟩
      | some messageId =>
          have hstored : (sentMessages v.messages).count (d.message timestamp) = 1 := by
            rw [hsame]
            exact hmessage
          simp only [Program.await_bind]
          apply sends_quiet_call hIv (by trivial)
          intro _ w hq hIw
          refine Program.Guarded.bind Quiet.refl ?_
          refine (sends_of_calls
            (K := fun t => (sentMessages t.messages).count (d.message timestamp) = 1)
            (applyDirectMessageAckTracking_isQuiet _ _) (fun hq h => hq.sent ▸ h) hIw
            (hq.sent ▸ hstored)).mono ?_
          rintro ackCount t' ⟨hIt', hstored'⟩
          refine Program.Guarded.pure hIt' fun u' hIu' hq => ⟨hIu', ?_⟩
          exact (congrArg (List.count (d.message timestamp)) hq.sent).trans hstored'

end Send

end RemoteTerm
