import RemoteTerm.Decoder.Decoder
import RemoteTerm.Services.Messages

/-!
# Ingesting direct messages

`services/dm_ingest.py` and the event handler that feeds it. A direct message
arrives decrypted from a raw packet, or as an event of the radio library; both
ways resolve the conversation and the author and share one storing routine.

## Implementation notes

Claiming prefix messages may raise. A task that such an exception ends answers
`none`; `some none` is the Python value `None`, a message that was not stored.
-/

namespace RemoteTerm

open Library

/-- `_prepare_resolved_contact`: the conversation key, and whether storage is skipped. -/
def prepareResolvedContact (contact : Contact) : Task (Option (Text × Bool)) := do
  let claimed ← await (.claimPrefixMessages (lower contact.publicKey))
  match claimed with
  | none => pure none
  | some _ => pure (some (lower contact.publicKey, contact.type = contactTypeRepeater))

/-- A key, or nothing for the empty string. -/
def nonEmpty (s : Text) : Option Text := if s = [] then none else some s

/-- `resolve_direct_message_sender_metadata`: the author's name and key. -/
def resolveDirectMessageSenderMetadata (senderPublicKey : Text) :
    Task (Option (Option Text × Option Text)) := do
  let resolved ← await (.getContactByKeyOrPrefix (lower senderPublicKey))
  match resolved with
  | .contact c => do
      let claimed ← await (.claimPrefixMessages (lower c.publicKey))
      match claimed with
      | none => pure none
      | some _ => pure (some (c.name, some (lower c.publicKey)))
  | _ => pure (some (none, nonEmpty (lower senderPublicKey)))

/-- `FallbackDirectMessageContext`. -/
structure FallbackDirectMessageContext where
  conversationKey : Text
  contact : Option Contact
  senderName : Option Text
  senderKey : Option Text
  skipStorage : Bool := false

/-- Store a placeholder contact for a sender that resolves to no contact. -/
def createPlaceholder (sender : Text) (receivedAt : Int) : Task (Option Contact) :=
  if sender = [] then pure none
  else do
    await (.upsertContact
      { publicKey := sender, lastSeen := some receivedAt, lastContacted := some receivedAt,
        firstSeen := some receivedAt })
    await (.getContactByKey sender)

/-- `resolve_fallback_direct_message_context`. -/
def resolveFallbackDirectMessageContext (senderPublicKey : Text) (receivedAt : Int) :
    Task (Option FallbackDirectMessageContext) := do
  let sender := lower senderPublicKey
  let resolved ← await (.getContactByKeyOrPrefix sender)
  match resolved with
  | .contact contact => do
      let prepared ← prepareResolvedContact contact
      match prepared with
      | none => pure none
      | some (conversationKey, skipStorage) =>
          pure (some ⟨conversationKey, some contact, contact.name, some conversationKey,
            skipStorage⟩)
  | _ => do
      let contact ← createPlaceholder sender receivedAt
      pure (some ⟨sender, contact, contact.bind Contact.name, nonEmpty sender, false⟩)

/-- The arguments of `_store_direct_message`. -/
structure DirectMessage where
  packetId : Option Nat
  conversationKey : Text
  text : Text
  senderTimestamp : Int
  receivedAt : Int
  path : Option Text
  pathLen : Option Int
  rssi : Option Int := none
  snr : Option Rat := none
  outgoing : Bool
  txtType : Nat
  signature : Option Text
  senderName : Option Text
  senderKey : Option Text
  updateLastContactedKey : Option Text
  bestEffortContentDedup : Bool
  linkedPacketDedup : Bool
  transportCode : Option Nat := none
  region : Option Text := none

namespace DirectMessage

/-- The observation that a direct message makes. -/
def observation (d : DirectMessage) : Observation where
  path := d.path
  receivedAt := d.receivedAt
  pathLen := d.pathLen
  rssi := d.rssi
  snr := d.snr

/-- The row that is offered to the table. -/
def newMessage (d : DirectMessage) : NewMessage where
  msgType := .priv
  text := d.text
  receivedAt := d.receivedAt
  conversationKey := d.conversationKey
  senderTimestamp := some d.senderTimestamp
  path := d.path
  pathLen := d.pathLen
  rssi := d.rssi
  snr := d.snr
  txtType := d.txtType
  signature := d.signature
  outgoing := d.outgoing
  senderName := d.senderName
  senderKey := d.senderKey
  transportCode := d.transportCode
  region := d.region

end DirectMessage

/-- Record the activity of the contact; only an incoming message proves it was heard. -/
def touchContact (d : DirectMessage) : Task Unit :=
  match d.updateLastContactedKey with
  | none | some [] => pure ()
  | some key => do
      await (.updateLastContacted key d.receivedAt)
      if d.outgoing then pure () else await (.touchLastSeen key d.receivedAt)

theorem touchContact_calls {ok : Op → Prop} {d : DirectMessage}
    (hcontacted : ∀ key, ok (.updateLastContacted key d.receivedAt))
    (hseen : ∀ key, ok (.touchLastSeen key d.receivedAt)) : (touchContact d).Calls ok := by
  unfold touchContact
  split
  · simp
  · simp
  next key _ _ =>
    refine Program.Calls.bind (by simpa using hcontacted key) fun _ => ?_
    split
    · simp
    · simpa using hseen key

/-- `store()` after the insert: a rejected message is a duplicate. -/
def settleInsert (d : DirectMessage) (msgId : Option Nat) : Task (Option Nat) :=
  match msgId with
  | none => do
      handleDuplicateMessage d.packetId .priv d.conversationKey d.text (some d.senderTimestamp)
        (some d.outgoing) d.observation
      pure none
  | some msgId => do
      markDecrypted d.packetId msgId
      touchContact d
      pure (some msgId)

/-- `store()` from the insert on. -/
def insertDirectMessage (d : DirectMessage) : Task (Option Nat) := do
  let msgId ← await (.createMessage d.newMessage)
  settleInsert d msgId

/-- `store()` from the content lookup on. -/
def storeByContent (d : DirectMessage) : Task (Option Nat) :=
  if d.bestEffortContentDedup then do
    let existing ← await (.getByContent .priv d.conversationKey d.text (some d.senderTimestamp)
      (some d.outgoing))
    match existing with
    | some existing => do
        reconcileDuplicateMessage existing d.packetId d.observation
        pure none
    | none => insertDirectMessage d
  else insertDirectMessage d

/-- `store()` on a raw packet: a packet that is linked to a message is a repeat of it. -/
def storeByLink (d : DirectMessage) (packetId : Nat) : Task (Option Nat) := do
  let linked ← await (.getLinkedMessageId packetId)
  match linked with
  | none => storeByContent d
  | some messageId => do
      let existing ← await (.getMessageById messageId)
      match existing with
      | none => storeByContent d
      | some existing => do
          reconcileDuplicateMessage existing d.packetId d.observation
          pure none

/-- The inner function `store()`. -/
def store (d : DirectMessage) : Task (Option Nat) :=
  match d.linkedPacketDedup, d.packetId with
  | true, some packetId => storeByLink d packetId
  | _, _ => storeByContent d

/-- The calls that storing a direct message may make, apart from the lock. -/
def DirectMessage.Stores (d : DirectMessage) : Op → Prop
  | .createMessage m => m = d.newMessage
  | .markDecrypted p _ | .getLinkedMessageId p => d.packetId = some p
  | .addPath .. | .incrementAckCount _ | .getMessageById _ | .getByContent .. => True
  | .updateLastContacted .. | .touchLastSeen .. => True
  | _ => False

section StoreCalls

variable (d : DirectMessage)

theorem reconcile_stores (existing : MessageRow) :
    (reconcileDuplicateMessage existing d.packetId d.observation).Calls d.Stores :=
  reconcileDuplicateMessage_calls (fun _ _ => trivial) (fun _ => trivial) (fun _ hp _ => hp) _ _

theorem settleInsert_calls {ok : Op → Prop} {d : DirectMessage}
    (hread : ok (.getByContent .priv d.conversationKey d.text (some d.senderTimestamp)
      (some d.outgoing)))
    (hpath : ∀ id p, ok (.addPath id p)) (hack : ∀ id, ok (.incrementAckCount id))
    (hmark : ∀ p ∈ d.packetId, ∀ id, ok (.markDecrypted p id))
    (hcontacted : ∀ key, ok (.updateLastContacted key d.receivedAt))
    (hseen : ∀ key, ok (.touchLastSeen key d.receivedAt)) (msgId : Option Nat) :
    (settleInsert d msgId).Calls ok := by
  cases msgId with
  | none =>
      refine Program.Calls.bind ?_ fun _ => by simp
      exact handleDuplicateMessage_calls hread hpath hack hmark
  | some id =>
      refine Program.Calls.bind (markDecrypted_calls hmark id) fun _ => ?_
      exact Program.Calls.bind (touchContact_calls hcontacted hseen) fun _ => by simp

theorem insertDirectMessage_calls : (insertDirectMessage d).Calls d.Stores := by
  refine Program.Calls.bind (Program.calls_await.mpr rfl) fun msgId => ?_
  exact settleInsert_calls trivial (fun _ _ => trivial) (fun _ => trivial) (fun _ hp _ => hp)
    (fun _ => trivial) (fun _ => trivial) msgId

theorem storeByContent_calls : (storeByContent d).Calls d.Stores := by
  unfold storeByContent
  split
  · refine Program.Calls.bind (Program.calls_await.mpr trivial) fun existing => ?_
    cases existing with
    | none => exact insertDirectMessage_calls d
    | some existing => exact Program.Calls.bind (reconcile_stores d existing) fun _ => by simp
  · exact insertDirectMessage_calls d

theorem storeByLink_calls {packetId : Nat} (h : d.packetId = some packetId) :
    (storeByLink d packetId).Calls d.Stores := by
  refine Program.Calls.bind (Program.calls_await.mpr h) fun linked => ?_
  cases linked with
  | none => exact storeByContent_calls d
  | some messageId =>
      refine Program.Calls.bind (Program.calls_await.mpr trivial) fun existing => ?_
      cases existing with
      | none => exact storeByContent_calls d
      | some existing => exact Program.Calls.bind (reconcile_stores d existing) fun _ => by simp

theorem store_calls : (store d).Calls d.Stores := by
  unfold store
  split
  next packetId _ hp => exact storeByLink_calls d hp
  next => exact storeByContent_calls d

end StoreCalls

/-- `_store_direct_message`: raw packets are stored one at a time. -/
def storeDirectMessage (d : DirectMessage) : Task (Option Nat) :=
  if d.linkedPacketDedup then do
    await .acquireStoreLock
    let msgId ← store d
    await .releaseStoreLock
    pure msgId
  else store d

/-- The arguments of `ingest_decrypted_direct_message`, and the clock it may read. -/
structure DecryptedIngest where
  packetId : Nat
  decrypted : DecryptedDirectMessage
  theirPublicKey : Text
  receivedAt : Option Int := none
  path : Option Text := none
  pathLen : Option Int := none
  rssi : Option Int := none
  snr : Option Rat := none
  outgoing : Bool := false
  transportCode : Option Nat := none
  region : Option Text := none
  now : Int

/-- Store a decrypted direct message whose conversation and author are resolved. -/
def storeDecrypted (d : DecryptedIngest) (conversationKey : Text)
    (senderName senderKey signature : Option Text) : Task (Option (Option Nat)) := do
  let msgId ← storeDirectMessage
    { packetId := some d.packetId
      conversationKey := conversationKey
      text := d.decrypted.message
      senderTimestamp := d.decrypted.timestamp
      receivedAt := receivedOrNow d.receivedAt d.now
      path := d.path
      pathLen := d.pathLen
      rssi := d.rssi
      snr := d.snr
      outgoing := d.outgoing
      txtType := d.decrypted.txtType
      signature := signature
      senderName := senderName
      senderKey := senderKey
      updateLastContactedKey := some conversationKey
      bestEffortContentDedup := d.outgoing
      linkedPacketDedup := true
      transportCode := d.transportCode
      region := d.region }
  pure (some msgId)

/-- Store an incoming message: a post to a room is attributed to its signer. -/
def storeIncoming (d : DecryptedIngest) (contact : Contact) (conversationKey : Text) :
    Task (Option (Option Nat)) :=
  match decide (contact.type = contactTypeRoom), d.decrypted.signedSenderPrefix.bind nonEmpty with
  | true, some signer => do
      let author ← resolveDirectMessageSenderMetadata signer
      match author with
      | none => pure none
      | some (name, key) => storeDecrypted d conversationKey name key (some signer)
  | _, _ => storeDecrypted d conversationKey contact.name (some (lower d.theirPublicKey)) none

/-- `ingest_decrypted_direct_message`. -/
def ingestDecryptedDirectMessage (d : DecryptedIngest) : Task (Option (Option Nat)) :=
  if ¬ d.outgoing ∧ d.decrypted.txtType = 1 then pure (some none)
  else do
    let contact ← await (.getContactByKey (lower d.theirPublicKey))
    match contact with
    | none =>
        storeDecrypted d (lower d.theirPublicKey) none
          (if d.outgoing then none else some (lower d.theirPublicKey)) none
    | some contact => do
        let prepared ← prepareResolvedContact contact
        match prepared with
        | none => pure none
        | some (_, true) => pure (some none)
        | some (conversationKey, false) =>
            if d.outgoing then storeDecrypted d conversationKey none none none
            else storeIncoming d contact conversationKey

/-- The calls that an ingest may make: it creates no other message than its own. -/
def DecryptedIngest.Ingests (d : DecryptedIngest) : Op → Prop
  | .createMessage m => m.msgType = .priv ∧ m.text = d.decrypted.message ∧
      m.senderTimestamp = some d.decrypted.timestamp ∧ m.outgoing = d.outgoing
  | .markDecrypted p _ | .getLinkedMessageId p => p = d.packetId
  | .addPath .. | .incrementAckCount _ | .getMessageById _ | .getByContent .. => True
  | .updateLastContacted .. | .touchLastSeen .. | .claimPrefixMessages _ => True
  | .getContactByKey _ | .getContactByKeyOrPrefix _ | .acquireStoreLock | .releaseStoreLock => True
  | _ => False

section IngestCalls

theorem prepareResolvedContact_calls {ok : Op → Prop} {contact : Contact}
    (hclaim : ok (.claimPrefixMessages (lower contact.publicKey))) :
    (prepareResolvedContact contact).Calls ok := by
  refine Program.Calls.bind (Program.calls_await.mpr hclaim) fun claimed => ?_
  cases claimed <;> simp

theorem resolveDirectMessageSenderMetadata_calls {ok : Op → Prop} {senderPublicKey : Text}
    (hread : ok (.getContactByKeyOrPrefix (lower senderPublicKey)))
    (hclaim : ∀ key, ok (.claimPrefixMessages key)) :
    (resolveDirectMessageSenderMetadata senderPublicKey).Calls ok := by
  refine Program.Calls.bind (Program.calls_await.mpr hread) fun resolved => ?_
  cases resolved with
  | contact c =>
      refine Program.Calls.bind (Program.calls_await.mpr (hclaim _)) fun claimed => ?_
      cases claimed <;> simp
  | unknown => simp
  | ambiguous => simp

variable (d : DecryptedIngest)

theorem storeDecrypted_calls (conversationKey : Text) (senderName senderKey signature : Option Text) :
    (storeDecrypted d conversationKey senderName senderKey signature).Calls d.Ingests := by
  refine Program.Calls.bind ?_ fun _ => by simp
  unfold storeDirectMessage
  refine Program.Calls.bind (Program.calls_await.mpr trivial) fun _ => ?_
  refine Program.Calls.bind ?_ fun _ =>
    Program.Calls.bind (Program.calls_await.mpr trivial) fun _ => by simp
  refine (store_calls _).mono fun op hop => ?_
  cases op with
  | createMessage m =>
      obtain rfl := hop
      exact ⟨rfl, rfl, rfl, rfl⟩
  | markDecrypted p id => exact (Option.some.inj hop).symm
  | getLinkedMessageId p => exact (Option.some.inj hop).symm
  | _ => trivial

theorem storeIncoming_calls (contact : Contact) (conversationKey : Text) :
    (storeIncoming d contact conversationKey).Calls d.Ingests := by
  unfold storeIncoming
  split
  · refine Program.Calls.bind
      (resolveDirectMessageSenderMetadata_calls trivial fun _ => trivial) fun author => ?_
    cases author with
    | none => simp
    | some author => exact storeDecrypted_calls d _ _ _ _
  · exact storeDecrypted_calls d _ _ _ _

theorem ingestDecryptedDirectMessage_calls :
    (ingestDecryptedDirectMessage d).Calls d.Ingests := by
  unfold ingestDecryptedDirectMessage
  split
  · simp
  · refine Program.Calls.bind (Program.calls_await.mpr trivial) fun contact => ?_
    cases contact with
    | none => exact storeDecrypted_calls d _ _ _ _
    | some contact =>
        refine Program.Calls.bind (prepareResolvedContact_calls trivial) ?_
        rintro (_ | ⟨key, _ | _⟩)
        · simp
        · simp only
          split
          · exact storeDecrypted_calls d _ _ _ _
          · exact storeIncoming_calls d contact key
        · simp

end IngestCalls

/-- The payload of a `CONTACT_MSG_RECV` event, and the clock its handler reads. -/
structure ContactMessageEvent where
  txtType : Nat := 0
  publicKey : Option Text := none
  pubkeyPrefix : Text := []
  text : Text := []
  senderTimestamp : Option Int := none
  path : Option Text := none
  pathLen : Option Int := none
  signature : Option Text := none
  now : Int

/-- `payload.get("public_key") or payload.get("pubkey_prefix", "")`. -/
def ContactMessageEvent.sender (e : ContactMessageEvent) : Text :=
  (e.publicKey.bind nonEmpty).getD e.pubkeyPrefix

/-- `ingest_fallback_direct_message` with the arguments `on_contact_message` gives it. -/
def ingestFallbackDirectMessage (e : ContactMessageEvent)
    (context : FallbackDirectMessageContext) (senderName senderKey : Option Text) :
    Task (Option Nat) :=
  storeDirectMessage
    { packetId := none
      conversationKey := context.conversationKey
      text := e.text
      senderTimestamp := e.senderTimestamp.getD e.now
      receivedAt := e.now
      path := e.path
      pathLen := e.pathLen
      outgoing := false
      txtType := e.txtType
      signature := e.signature
      senderName := senderName
      senderKey := senderKey
      updateLastContactedKey := context.contact.map fun c => lower c.publicKey
      bestEffortContentDedup := true
      linkedPacketDedup := false }

/-- A signed post to a room, by its contact's type. -/
def isSignedPost (e : ContactMessageEvent) (contact : Option Contact) : Bool :=
  e.txtType = 2 ∧ ∃ c ∈ contact, c.type = contactTypeRoom

/-- `on_contact_message` once the conversation is resolved. -/
def storeContactMessage (e : ContactMessageEvent) (context : FallbackDirectMessageContext) :
    Task (Option (Option Nat)) :=
  match isSignedPost e context.contact, e.signature.bind nonEmpty with
  | true, some signer => do
      let author ← resolveDirectMessageSenderMetadata signer
      match author with
      | none => pure none
      | some (name, key) => do
          let msgId ← ingestFallbackDirectMessage e context name key
          pure (some msgId)
  | _, _ => do
      let msgId ← ingestFallbackDirectMessage e context context.senderName context.senderKey
      pure (some msgId)

/-- `on_contact_message`. -/
def onContactMessage (e : ContactMessageEvent) : Task (Option (Option Nat)) :=
  if e.txtType = 1 then pure (some none)
  else do
    let context ← resolveFallbackDirectMessageContext e.sender e.now
    match context with
    | none => pure none
    | some context =>
        if context.skipStorage then pure (some none) else storeContactMessage e context

end RemoteTerm
