import RemoteTerm.Services.DmIngest
import RemoteTerm.Services.Frames

/-!
# Every incoming direct message keeps a row

A direct message reaches us as a decrypted raw packet, as an event of the radio
library, or as both, any number of times and with the tasks interleaved. The
dedup index files it under its conversation, text, timestamp and author. The
event path looks for a stored row first, and that lookup does not compare the
author, so a message can be masked by another author's.

## Implementation notes

The invariant of a run has two parts: the deliveries still resolve to the
messages they deliver, and a packet that is linked to a row delivers a message
that is stored. Storing is monotone for every call, so each task has only to
reach its insert, or a proof that its message is already there.
-/

namespace RemoteTerm

open Library MessageRepository ContactRepository

/-- A direct message that was sent to us: its conversation, author, text and time. -/
structure IncomingMessage where
  conversationKey : Text
  author : Text
  text : Text
  timestamp : Int
  deriving DecidableEq

/-- The entry of the dedup index that a message is filed under. -/
def IncomingMessage.key (m : IncomingMessage) : DedupKey :=
  .incomingDirect m.conversationKey m.text m.timestamp m.author

/-- One delivery of a direct message. -/
inductive Delivery where
  | packet (d : DecryptedIngest)
  | event (e : ContactMessageEvent)

namespace Delivery

/-- The task that handles a delivery. -/
def task : Delivery → Task (Option (Option Nat))
  | .packet d => ingestDecryptedDirectMessage d
  | .event e => onContactMessage e

/-- The contact that a delivery resolves to. -/
def contact? (contacts : ContactTable) : Delivery → Option Contact
  | .packet d => getByKey contacts (lower d.theirPublicKey)
  | .event e => (getByKeyOrPrefix contacts (lower e.sender)).contact?

/-- The key of the signer of a post to a room. -/
def signer? (contact : Contact) : Delivery → Option Text
  | .packet d =>
      if contact.type = contactTypeRoom then d.decrypted.signedSenderPrefix.bind nonEmpty else none
  | .event e => if isSignedPost e (some contact) then e.signature.bind nonEmpty else none

/-- A delivery is neither an own message nor the answer to a command. -/
def Incoming : Delivery → Prop
  | .packet d => d.outgoing = false ∧ d.decrypted.txtType ≠ 1
  | .event e => e.txtType ≠ 1

instance (v : Delivery) : Decidable v.Incoming := by
  cases v <;> unfold Incoming <;> infer_instance

def text : Delivery → Text
  | .packet d => d.decrypted.message
  | .event e => e.text

def timestamp : Delivery → Int
  | .packet d => d.decrypted.timestamp
  | .event e => e.senderTimestamp.getD e.now

end Delivery

/-- The key that a signer is recorded under. -/
def authorKey (contacts : ContactTable) (signer : Text) : Text :=
  (getByKeyOrPrefix contacts (lower signer)).contact?.elim (lower signer) fun a =>
    lower a.publicKey

/-- A delivery carries a message: its contact has a full key and is not a repeater, and a
signer who is a contact has a full key too. -/
def DeliveredAs (contacts : ContactTable) (m : IncomingMessage) (v : Delivery) : Prop :=
  v.Incoming ∧ ∃ c ∈ v.contact? contacts, c.type ≠ contactTypeRepeater ∧ c.publicKey.length = 64 ∧
    (∀ k ∈ v.signer? c, ∀ a ∈ (getByKeyOrPrefix contacts (lower k)).contact?,
      a.publicKey.length = 64) ∧
    m = ⟨lower c.publicKey, (v.signer? c).elim (lower c.publicKey) (authorKey contacts), v.text,
      v.timestamp⟩

instance (contacts : ContactTable) (m : IncomingMessage) (v : Delivery) :
    Decidable (DeliveredAs contacts m v) := by
  unfold DeliveredAs
  infer_instance

/-- A message is stored when the dedup index has its entry. -/
def Stored (m : IncomingMessage) (s : App) : Prop := (s.messages.holder m.key).isSome

/-- A message is masked when it is not stored, but the content lookup finds a row: that row
has the same conversation, text and timestamp by another author. -/
def Masked (t : MessageTable) (m : IncomingMessage) : Prop :=
  t.holder m.key = none ∧
    (getByContent t .priv m.conversationKey m.text (some m.timestamp) (some false)).isSome

/-- The call of a task that delivers a message does not meet a masking row, and no claim of
prefix messages on its way is refused by the dedup index. -/
def Undisturbed (m : IncomingMessage) (op : Op) (s : App) : Prop :=
  match op with
  | .getByContent .. => ¬ Masked s.messages m
  | .claimPrefixMessages fullKey => ¬ ClaimCollides s.contacts s.messages (lower fullKey)
  | _ => True

section Stored

variable {sha256 : Bytes → Bytes} {op : Op} {s s' : App} {x : op.Ans} {m : IncomingMessage}

theorem conversationKey_of_holder {t : MessageTable} {r : MessageRow}
    (h : t.holder m.key = some r) : r.conversationKey = m.conversationKey := by
  have hkey : r.dedupKey = some m.key := (t.holder_eq_some_iff.mp h).2
  unfold MessageRow.dedupKey IncomingMessage.key at hkey
  split at hkey
  · simp at hkey
  · split at hkey
    · simp at hkey
    · simp only [Option.some.injEq, DedupKey.incomingDirect.injEq] at hkey
      exact hkey.1

/-- An insert keeps every index entry. -/
theorem holder_isSome_create {t : MessageTable} {k : DedupKey} (n : NewMessage)
    (h : (t.holder k).isSome) : ((create t n).2.holder k).isSome := by
  cases hc : (create t n).1 with
  | none => rwa [create_of_none hc]
  | some id =>
      rw [holder_create hc]
      split
      · rfl
      · exact h

/-- After an insert the index has the entry that was asked for. -/
theorem holder_isSome_create_self {t : MessageTable} {n : NewMessage} {k : DedupKey}
    (hk : n.dedupKey = some k) : ((create t n).2.holder k).isSome := by
  cases h : t.holder k with
  | none =>
      have hc := create_of_free hk h
      rw [holder_create hc, if_pos hk]
      rfl
  | some r =>
      rw [create_of_taken hk h]
      simp [h]

/-- No call removes a message that is stored under a full key. -/
theorem stored_mono (hlen : m.conversationKey.length = 64) (h : process sha256 op s x s')
    (hm : Stored m s) : Stored m s' := by
  unfold Stored at hm ⊢
  cases op with
  | createMessage n =>
      obtain ⟨-, rfl⟩ := process_createMessage.mp h
      exact holder_isSome_create n hm
  | addPath id p =>
      obtain rfl := process_addPath.mp h
      simpa [holder_addPath] using hm
  | incrementAckCount id =>
      obtain ⟨-, rfl⟩ := process_incrementAckCount.mp h
      simpa [holder_incrementAckCount] using hm
  | claimPrefixMessages fullKey =>
      rw [process_claimPrefixMessages] at h
      split at h
      next =>
        obtain ⟨-, rfl⟩ := h
        exact hm
      next n t' hclaim =>
        obtain ⟨-, rfl⟩ := h
        obtain ⟨r, hr⟩ := Option.isSome_iff_exists.mp hm
        have hconv := (conversationKey_of_holder hr).symm ▸ hlen
        simp [holder_claimPrefixMessages hclaim hr hconv]
  | _ => exact (process_messages h rfl) ▸ hm

end Stored

/-- The raw packet of a delivery. -/
def Delivery.packetId? : Delivery → Option Nat
  | .packet d => some d.packetId
  | .event _ => none

/-- Deliveries of one raw packet deliver one message. -/
def PacketsAgree (vs : List (IncomingMessage × Delivery)) : Prop :=
  ∀ v ∈ vs, ∀ w ∈ vs, ∀ p ∈ v.2.packetId?, w.2.packetId? = some p → v.1 = w.1

/-- The state of a run that delivers messages: contacts resolve as they did at the start,
and a packet that is linked to a row delivers a message that is stored. -/
structure Delivering (contacts : ContactTable) (vs : List (IncomingMessage × Delivery))
    (s : App) : Prop where
  contacts_eq : identities s.contacts = identities contacts
  linked : ∀ v ∈ vs, ∀ p ∈ v.2.packetId?,
    (RawPacketRepository.getLinkedMessageId s.rawPackets p).isSome → Stored v.1 s

/-- Every message that is stored under a full key stays stored. -/
def KeepsStored (s s' : App) : Prop :=
  ∀ m : IncomingMessage, m.conversationKey.length = 64 → Stored m s → Stored m s'

theorem KeepsStored.refl (s : App) : KeepsStored s s := fun _ _ h => h

theorem KeepsStored.trans {a b c : App} (hab : KeepsStored a b) (hbc : KeepsStored b c) :
    KeepsStored a c :=
  fun m hlen h => hbc m hlen (hab m hlen h)

/-- The calls that a delivery of a stored message may still make. -/
def Op.Settles (packetId : Option Nat) : Op → Prop
  | .upsertContact _ | .deleteContact _ | .createRawPacket .. => False
  | .markDecrypted p _ => packetId = some p
  | _ => True

theorem Op.Settles.of_none {packetId : Option Nat} {op : Op} (h : op.Settles none) :
    op.Settles packetId := by
  cases op <;> simp_all [Op.Settles]

theorem DeliveredAs.length {contacts : ContactTable} {m : IncomingMessage} {v : Delivery}
    (h : DeliveredAs contacts m v) : m.conversationKey.length = 64 := by
  obtain ⟨-, c, -, -, hlen, -, rfl⟩ := h
  simpa using hlen

/-- The row that a task offers carries the message of a delivery. -/
structure Carries (d : DirectMessage) (v : IncomingMessage × Delivery) : Prop where
  conversationKey : d.conversationKey = v.1.conversationKey
  text : d.text = v.1.text
  senderTimestamp : d.senderTimestamp = v.1.timestamp
  incoming : d.outgoing = false
  author : (d.senderKey.map lower).getD [] = v.1.author
  packetId : d.packetId = v.2.packetId?

theorem Carries.dedupKey {d : DirectMessage} {v : IncomingMessage × Delivery}
    (h : Carries d v) : d.newMessage.dedupKey = some v.1.key := by
  have hincoming := h.incoming
  have hauthor := h.author
  simp only [NewMessage.dedupKey, NewMessage.toRow, DirectMessage.newMessage, MessageRow.dedupKey,
    IncomingMessage.key, hincoming, h.conversationKey, h.text, h.senderTimestamp, hauthor]
  rfl

theorem reconcile_settles {d : DirectMessage} {v : IncomingMessage × Delivery}
    (h : Carries d v) (existing : MessageRow) :
    (reconcileDuplicateMessage existing d.packetId d.observation).Calls
      (Op.Settles v.2.packetId?) :=
  reconcileDuplicateMessage_calls (fun _ _ => trivial) (fun _ => trivial)
    (fun _ hp _ => h.packetId ▸ hp) _ _

/-- Run among the deliveries of `vs`, the task ends with the message of `v` stored. -/
abbrev Stores {α : Type} (sha256 : Bytes → Bytes) (contacts : ContactTable)
    (vs : List (IncomingMessage × Delivery)) (v : IncomingMessage × Delivery) (p : Task α)
    (s : App) : Prop :=
  Program.Guarded ((process sha256).when (Undisturbed v.1)) (Delivering contacts vs) KeepsStored
    KeepsStored (fun _ t => Delivering contacts vs t ∧ Stored v.1 t) p s

theorem nonEmpty_lower_getD (k : Text) :
    ((nonEmpty (lower k)).map lower).getD [] = lower k := by
  unfold nonEmpty
  split
  next h => simpa using h.symm
  next => simp

section Guard

variable {sha256 : Bytes → Bytes} {contacts : ContactTable}
  {vs : List (IncomingMessage × Delivery)} {v : IncomingMessage × Delivery} {s s' : App}

theorem identities_process {op : Op} {x : op.Ans} (h : process sha256 op s x s')
    (hop : op.Settles v.2.packetId?) : identities s'.contacts = identities s.contacts := by
  cases op with
  | upsertContact u => exact hop.elim
  | deleteContact publicKey => exact hop.elim
  | updateLastContacted key timestamp =>
      obtain ⟨c, hc⟩ := h
      simp only [perform, Option.some.injEq, Prod.mk.injEq] at hc
      simp [← hc.2]
  | touchLastSeen key timestamp =>
      obtain ⟨c, hc⟩ := h
      simp only [perform, Option.some.injEq, Prod.mk.injEq] at hc
      simp [← hc.2]
  | updateDirectPath key path pathLen mode timestamp =>
      obtain ⟨c, hc⟩ := h
      simp only [perform, Option.some.injEq, Prod.mk.injEq] at hc
      simp [← hc.2]
  | _ => rw [process_contacts h rfl]

/-- A call of a delivery keeps the state of the run; it links its packet only when its
message is stored. -/
theorem delivering_step (hagree : PacketsAgree vs)
    (hd : ∀ w ∈ vs, DeliveredAs contacts w.1 w.2) (hv : v ∈ vs) {op : Op} {x : op.Ans}
    (hI : Delivering contacts vs s) (h : process sha256 op s x s')
    (hop : op.Settles v.2.packetId?)
    (hstored : ∀ p id, op = .markDecrypted p id → Stored v.1 s) :
    Delivering contacts vs s' ∧ KeepsStored s s' := by
  have hkeep : KeepsStored s s' := fun m hlen hm => stored_mono hlen h hm
  refine ⟨⟨?_, ?_⟩, hkeep⟩
  · rw [identities_process h hop, hI.contacts_eq]
  · intro w hw p hp hlink
    apply hkeep _ (hd w hw).length
    by_cases hmark : ∃ id, op = .markDecrypted p id
    · obtain ⟨id, rfl⟩ := hmark
      have hvp : v.2.packetId? = some p := hop
      exact hagree v hv w hw p hvp hp ▸ hstored p id rfl
    · apply hI.linked w hw p hp
      cases op with
      | createRawPacket data timestamp => exact hop.elim
      | markDecrypted q id =>
          have hne : p ≠ q := fun hpq => hmark ⟨id, hpq ▸ rfl⟩
          obtain rfl := process_markDecrypted.mp h
          rwa [RawPacketRepository.getLinkedMessageId_markDecrypted_of_ne _ _ hne] at hlink
      | _ => rwa [process_rawPackets h rfl] at hlink

variable (hagree : PacketsAgree vs) (hd : ∀ w ∈ vs, DeliveredAs contacts w.1 w.2) (hv : v ∈ vs)

include hagree hd hv

/-- A call that links no packet keeps the state of the run. -/
theorem guarded_call {α : Type} {Q : α → App → Prop} {op : Op} {next : op.Ans → Task α}
    (hI : Delivering contacts vs s) (hop : op.Settles none)
    (h : ∀ s' x s'', KeepsStored s s'' → Undisturbed v.1 op s' →
      process sha256 op s' x s'' → Delivering contacts vs s'' →
      Program.Guarded ((process sha256).when (Undisturbed v.1)) (Delivering contacts vs)
        KeepsStored KeepsStored Q (next x) s'') :
    Program.Guarded ((process sha256).when (Undisturbed v.1)) (Delivering contacts vs)
      KeepsStored KeepsStored Q (.call op next) s := by
  apply Program.Guarded.call hI
  rintro s' x s'' hI' hM ⟨hok, hx⟩
  have hmark : ∀ p id, op = .markDecrypted p id → Stored v.1 s' := by
    rintro p id rfl
    simp [Op.Settles] at hop
  have hkeep := delivering_step hagree hd hv hI' hx hop.of_none hmark
  exact ⟨hkeep, h s' x s'' (hM.trans hkeep.2) hok hx hkeep.1⟩

/-- Once its message is stored, whatever a delivery still does keeps it stored. -/
theorem guarded_of_stored {α : Type} {p : Task α} (hp : p.Calls (Op.Settles v.2.packetId?))
    (hI : Delivering contacts vs s) (hs : Stored v.1 s) :
    Stores sha256 contacts vs v p s := by
  have hlen := (hd v hv).length
  refine hp.guarded (fun hM => hM v.1 hlen) ?_ hI hs
  rintro op t x t' hop hIt hst ⟨-, hx⟩
  have hstep := delivering_step hagree hd hv hIt hx hop fun _ _ _ => hst
  exact ⟨hstep, hstep.2 v.1 hlen hst⟩

/-- The insert of a delivered message leaves it stored, whether or not it is accepted. -/
theorem insertDirectMessage_guarded {d : DirectMessage} (hc : Carries d v)
    (hI : Delivering contacts vs s) :
    Stores sha256 contacts vs v (insertDirectMessage d) s := by
  simp only [insertDirectMessage, Program.await_bind]
  apply guarded_call hagree hd hv hI (by trivial)
  intro s' x s'' _ _ hx hI''
  have hstored : Stored v.1 s'' := by
    obtain ⟨-, rfl⟩ := process_createMessage.mp hx
    exact holder_isSome_create_self hc.dedupKey
  have hmark : ∀ p ∈ d.packetId, ∀ id, (Op.markDecrypted p id).Settles v.2.packetId? :=
    fun p hp _ => hc.packetId ▸ hp
  exact guarded_of_stored hagree hd hv (settleInsert_calls trivial (fun _ _ => trivial)
    (fun _ => trivial) hmark (fun _ => trivial) (fun _ => trivial) x) hI'' hstored

/-- From the content lookup on: an undisturbed lookup finds only the message itself. -/
theorem storeByContent_guarded {d : DirectMessage} (hc : Carries d v)
    (hI : Delivering contacts vs s) :
    Stores sha256 contacts vs v (storeByContent d) s := by
  unfold storeByContent
  split
  · simp only [Program.await_bind]
    apply guarded_call hagree hd hv hI (by trivial)
    intro s' x s'' _ hok hx hI''
    obtain ⟨rfl, rfl⟩ := process_getByContent.mp hx
    cases hfound : getByContent s''.messages .priv d.conversationKey d.text
        (some d.senderTimestamp) (some d.outgoing) with
    | none => exact insertDirectMessage_guarded hagree hd hv hc hI''
    | some existing =>
        rw [hc.conversationKey, hc.text, hc.senderTimestamp, hc.incoming] at hfound
        have hstored : Stored v.1 s'' := by
          by_contra hnot
          apply hok
          exact ⟨by simpa [Stored] using hnot, by simp [hfound]⟩
        refine guarded_of_stored hagree hd hv ?_ hI'' hstored
        exact Program.Calls.bind (reconcile_settles hc existing) fun _ => by simp
  · exact insertDirectMessage_guarded hagree hd hv hc hI

/-- A packet that is linked already delivers a stored message. -/
theorem storeByLink_guarded {d : DirectMessage} (hc : Carries d v) {p : Nat}
    (hp : d.packetId = some p) (hI : Delivering contacts vs s) :
    Stores sha256 contacts vs v (storeByLink d p) s := by
  simp only [storeByLink, Program.await_bind]
  apply guarded_call hagree hd hv hI (by trivial)
  intro s' x s'' _ _ hx hI''
  obtain ⟨rfl, rfl⟩ := process_getLinkedMessageId.mp hx
  cases hlink : RawPacketRepository.getLinkedMessageId s''.rawPackets p with
  | none => exact storeByContent_guarded hagree hd hv hc hI''
  | some id =>
      have hstored : Stored v.1 s'' :=
        hI''.linked v hv p (hc.packetId ▸ hp) (by simp [hlink])
      apply guarded_call hagree hd hv hI'' (by trivial)
      intro t x t' hkeep _ hx hIt'
      cases x with
      | none => exact storeByContent_guarded hagree hd hv hc hIt'
      | some existing =>
          have hstored' : Stored v.1 t' := hkeep v.1 (hd v hv).length hstored
          refine guarded_of_stored hagree hd hv ?_ hIt' hstored'
          exact Program.Calls.bind (reconcile_settles hc existing) fun _ => by simp

theorem store_guarded {d : DirectMessage} (hc : Carries d v) (hI : Delivering contacts vs s) :
    Stores sha256 contacts vs v (store d) s := by
  unfold store
  split
  next p _ hp => exact storeByLink_guarded hagree hd hv hc hp hI
  next => exact storeByContent_guarded hagree hd hv hc hI

/-- Storing a delivered message, under the lock or not, leaves it stored. -/
theorem storeDirectMessage_guarded {d : DirectMessage} (hc : Carries d v)
    (hI : Delivering contacts vs s) : Stores sha256 contacts vs v (storeDirectMessage d) s := by
  unfold storeDirectMessage
  split
  · simp only [Program.await_bind]
    apply guarded_call hagree hd hv hI (by trivial)
    intro s' x s'' _ _ _ hI''
    apply Program.Guarded.bind KeepsStored.refl
    refine (store_guarded hagree hd hv hc hI'').mono fun msgId t ht => ?_
    exact guarded_of_stored hagree hd hv ⟨trivial, fun _ => trivial⟩ ht.1 ht.2
  · exact store_guarded hagree hd hv hc hI

/-- A claim of the prefix messages of a full key is answered. -/
theorem guarded_claim {α : Type} {Q : α → App → Prop} {key : Text}
    {next : Option Nat → Task α} (hlen : key.length = 64) (hI : Delivering contacts vs s)
    (h : ∀ n s'', KeepsStored s s'' → Delivering contacts vs s'' →
      Program.Guarded ((process sha256).when (Undisturbed v.1)) (Delivering contacts vs)
        KeepsStored KeepsStored Q (next (some n)) s'') :
    Program.Guarded ((process sha256).when (Undisturbed v.1)) (Delivering contacts vs)
      KeepsStored KeepsStored Q (.call (.claimPrefixMessages key) next) s := by
  apply guarded_call hagree hd hv hI (by trivial)
  intro s' x s'' hkeep hok hx hI''
  rw [process_claimPrefixMessages] at hx
  split at hx
  next hnone =>
    have hcollides := (claimPrefixMessages_eq_none_iff (by simpa using hlen)).mp hnone
    exact absurd hcollides hok
  next n t' _ =>
    obtain ⟨rfl, -⟩ := hx
    exact h n s'' hkeep hI''

/-- The author of a signed post resolves as at the start of the run. -/
theorem resolveDirectMessageSenderMetadata_guarded {signer : Text}
    (hfull : ∀ a ∈ (getByKeyOrPrefix contacts (lower signer)).contact?, a.publicKey.length = 64)
    (hI : Delivering contacts vs s) :
    Program.Guarded ((process sha256).when (Undisturbed v.1)) (Delivering contacts vs) KeepsStored
      KeepsStored (fun r t => Delivering contacts vs t ∧
        ∃ name key, r = some (name, key) ∧ (key.map lower).getD [] = authorKey contacts signer)
      (resolveDirectMessageSenderMetadata signer) s := by
  simp only [resolveDirectMessageSenderMetadata, Program.await_bind]
  apply guarded_call hagree hd hv hI (by trivial)
  intro s' x s'' _ _ hx hI''
  obtain ⟨rfl, rfl⟩ := process_getContactByKeyOrPrefix.mp hx
  have hsame := getByKeyOrPrefix_identity hI''.contacts_eq (lower signer)
  have hnone : (getByKeyOrPrefix s''.contacts (lower signer)).contact? = none →
      authorKey contacts signer = lower signer := by
    intro h
    rw [h] at hsame
    have hstart := Option.map_eq_none_iff.mp hsame.symm
    simp [authorKey, hstart]
  cases hres : getByKeyOrPrefix s''.contacts (lower signer) with
  | contact c =>
      rw [hres] at hsame
      obtain ⟨a, ha, hid⟩ := Option.map_eq_some_iff.mp hsame.symm
      have hkey : a.publicKey = c.publicKey := congrArg Prod.fst hid
      have hauthor : authorKey contacts signer = lower c.publicKey := by
        simp [authorKey, ha, hkey]
      apply guarded_claim hagree hd hv (by simpa [← hkey] using hfull a ha) hI''
      intro n t _ hIt
      exact Program.Guarded.pure hIt fun t' hIt' _ => ⟨hIt', _, _, rfl, by simp [hauthor]⟩
  | unknown =>
      refine Program.Guarded.pure hI'' fun t' hIt' _ => ⟨hIt', _, _, rfl, ?_⟩
      rw [hnone (by rw [hres]; rfl), nonEmpty_lower_getD]
  | ambiguous =>
      refine Program.Guarded.pure hI'' fun t' hIt' _ => ⟨hIt', _, _, rfl, ?_⟩
      rw [hnone (by rw [hres]; rfl), nonEmpty_lower_getD]

omit hagree hd hv in
/-- A key resolves to a contact of the same identity as at the start of the run. -/
theorem getByKey_of_start (hI : Delivering contacts vs s) {key : Text} {c : Contact}
    (hc : getByKey contacts key = some c) :
    ∃ c', getByKey s.contacts key = some c' ∧ c'.publicKey = c.publicKey ∧ c'.type = c.type := by
  have hsame : (getByKey s.contacts key).map identity = (getByKey contacts key).map identity := by
    rw [getByKey_identity, getByKey_identity, hI.contacts_eq]
  rw [hc] at hsame
  obtain ⟨c', hc', hid⟩ := Option.map_eq_some_iff.mp hsame
  exact ⟨c', hc', congrArg Prod.fst hid, congrArg Prod.snd hid⟩

omit hagree hd hv in
theorem getByKeyOrPrefix_of_start (hI : Delivering contacts vs s) {key : Text} {c : Contact}
    (hc : (getByKeyOrPrefix contacts key).contact? = some c) :
    ∃ c', getByKeyOrPrefix s.contacts key = .contact c' ∧ c'.publicKey = c.publicKey ∧
      c'.type = c.type := by
  have hsame := getByKeyOrPrefix_identity hI.contacts_eq key
  rw [hc] at hsame
  obtain ⟨c', hc', hid⟩ := Option.map_eq_some_iff.mp hsame
  refine ⟨c', ?_, congrArg Prod.fst hid, congrArg Prod.snd hid⟩
  cases hres : getByKeyOrPrefix s.contacts key with
  | contact c'' => simpa [hres, Resolution.contact?] using hc'
  | unknown => simp [hres, Resolution.contact?] at hc'
  | ambiguous => simp [hres, Resolution.contact?] at hc'

end Guard

section Tasks

variable {sha256 : Bytes → Bytes} {contacts : ContactTable}
  {vs : List (IncomingMessage × Delivery)} {m : IncomingMessage} {s : App}
  (hagree : PacketsAgree vs) (hd : ∀ w ∈ vs, DeliveredAs contacts w.1 w.2)

include hagree hd

/-- The packet path stores the message of its packet. -/
theorem ingestDecryptedDirectMessage_guarded {d : DecryptedIngest} (hv : (m, .packet d) ∈ vs)
    (hI : Delivering contacts vs s) :
    Stores sha256 contacts vs (m, .packet d) (ingestDecryptedDirectMessage d) s := by
  obtain ⟨⟨hout, htxt⟩, c, hc, htype, hlen, hfull, hm⟩ := hd _ hv
  have hconv : lower c.publicKey = m.conversationKey :=
    (congrArg IncomingMessage.conversationKey hm).symm
  have hauthor : m.author =
      ((Delivery.packet d).signer? c).elim (lower c.publicKey) (authorKey contacts) :=
    congrArg IncomingMessage.author hm
  have htheir : lower c.publicKey = lower d.theirPublicKey := by
    simpa using congrArg lower (getByKey_publicKey hc)
  -- the row offered under the resolved conversation and author
  have hstore : ∀ {name key signature t}, Delivering contacts vs t →
      (key.map lower).getD [] = m.author → Stores sha256 contacts vs (m, .packet d)
        (storeDecrypted d m.conversationKey name key signature) t := by
    intro name key signature t hIt hkey
    apply Program.Guarded.bind KeepsStored.refl
    refine (storeDirectMessage_guarded hagree hd hv ?_ hIt).mono fun _ t' ht' => ?_
    · exact ⟨rfl, (congrArg IncomingMessage.text hm).symm,
        (congrArg IncomingMessage.timestamp hm).symm, hout, hkey, rfl⟩
    · exact guarded_of_stored hagree hd hv trivial ht'.1 ht'.2
  simp only [ingestDecryptedDirectMessage, hout, htxt, and_false, if_false, Program.await_bind]
  apply guarded_call hagree hd hv hI (by trivial)
  intro s' x s'' _ _ hx hI''
  obtain ⟨rfl, rfl⟩ := process_getContactByKey.mp hx
  obtain ⟨c', hc', hkey, htype'⟩ := getByKey_of_start hI'' hc
  simp only [hc', prepareResolvedContact, Program.await_bind, Program.call_bind]
  apply guarded_claim hagree hd hv (by simpa [hkey] using hlen) hI''
  intro n t _ hIt
  simp only [hkey, htype', htype, decide_false, hconv, Program.pure_eq, Program.pure_bind,
    Bool.false_eq_true, if_false]
  have hsigner : ((Delivery.packet d).signer? c) =
      if c'.type = contactTypeRoom then d.decrypted.signedSenderPrefix.bind nonEmpty else none := by
    rw [htype']
    rfl
  unfold storeIncoming
  split
  next signer hroom hsign =>
    have hsome : (Delivery.packet d).signer? c = some signer := by
      rw [hsigner, if_pos (of_decide_eq_true hroom), hsign]
    apply Program.Guarded.bind KeepsStored.refl
    refine (resolveDirectMessageSenderMetadata_guarded hagree hd hv (hfull signer hsome)
      hIt).mono ?_
    rintro r t' ⟨hIt', name, key, rfl, hkey'⟩
    exact hstore hIt' (by rw [hkey', hauthor, hsome]; rfl)
  next hnot =>
    have hnone : (Delivery.packet d).signer? c = none := by
      rw [hsigner]
      split
      next hroom =>
        cases hsign : d.decrypted.signedSenderPrefix.bind nonEmpty with
        | none => rfl
        | some signer => exact absurd hsign (hnot signer (decide_eq_true hroom))
      next => rfl
    exact hstore hIt (by simp [hauthor, hnone, htheir])

/-- The event path stores the message of its event when it is undisturbed. -/
theorem onContactMessage_guarded {e : ContactMessageEvent} (hv : (m, .event e) ∈ vs)
    (hI : Delivering contacts vs s) :
    Stores sha256 contacts vs (m, .event e) (onContactMessage e) s := by
  obtain ⟨htxt, c, hc, htype, hlen, hfull, hm⟩ := hd _ hv
  have hconv : lower c.publicKey = m.conversationKey :=
    (congrArg IncomingMessage.conversationKey hm).symm
  have hauthor : m.author =
      ((Delivery.event e).signer? c).elim (lower c.publicKey) (authorKey contacts) :=
    congrArg IncomingMessage.author hm
  simp only [onContactMessage, if_neg htxt, resolveFallbackDirectMessageContext,
    Program.await_bind, Program.call_bind]
  apply guarded_call hagree hd hv hI (by trivial)
  intro s' x s'' _ _ hx hI''
  obtain ⟨rfl, rfl⟩ := process_getContactByKeyOrPrefix.mp hx
  obtain ⟨c', hc', hkey, htype'⟩ := getByKeyOrPrefix_of_start hI'' hc
  simp only [hc', prepareResolvedContact, Program.await_bind, Program.call_bind]
  apply guarded_claim hagree hd hv (by simpa [hkey] using hlen) hI''
  intro n t _ hIt
  simp only [hkey, htype', htype, decide_false, hconv, Program.pure_eq, Program.pure_bind,
    Bool.false_eq_true, if_false]
  -- the row offered under the resolved conversation and author
  have hstore : ∀ {context name key t}, Delivering contacts vs t →
      context.conversationKey = m.conversationKey → (key.map lower).getD [] = m.author →
      Stores sha256 contacts vs (m, .event e) (do
        let msgId ← ingestFallbackDirectMessage e context name key
        pure (some msgId)) t := by
    intro context name key t hIt hcontext hkey
    apply Program.Guarded.bind KeepsStored.refl
    refine (storeDirectMessage_guarded hagree hd hv ?_ hIt).mono fun _ t' ht' => ?_
    · exact ⟨hcontext, (congrArg IncomingMessage.text hm).symm,
        (congrArg IncomingMessage.timestamp hm).symm, rfl, hkey, rfl⟩
    · exact guarded_of_stored hagree hd hv trivial ht'.1 ht'.2
  have hpost : isSignedPost e (some c') = isSignedPost e (some c) := by
    simp [isSignedPost, htype']
  unfold storeContactMessage
  split
  next signer hpost' hsign =>
    have hsome : (Delivery.event e).signer? c = some signer := by
      simp only [Delivery.signer?, ← hpost, hpost', if_true, hsign]
    apply Program.Guarded.bind KeepsStored.refl
    refine (resolveDirectMessageSenderMetadata_guarded hagree hd hv (hfull signer hsome)
      hIt).mono ?_
    rintro r t' ⟨hIt', name, key, rfl, hkey'⟩
    exact hstore hIt' rfl (by rw [hkey', hauthor, hsome]; rfl)
  next hnot =>
    have hnone : (Delivery.event e).signer? c = none := by
      simp only [Delivery.signer?, ← hpost]
      split
      next hsigned =>
        cases hsign : e.signature.bind nonEmpty with
        | none => rfl
        | some signer => exact absurd hsign (hnot signer hsigned)
      next => rfl
    exact hstore hIt rfl (by simp [hauthor, hnone, ← hconv])

end Tasks

end RemoteTerm
