import RemoteTerm.Library.Program
import RemoteTerm.Repository.RawPackets
import RemoteTerm.Repository.PrefixClaim
import RemoteTerm.Services.AckTracker

/-!
# The process and the calls its tasks suspend at

The state that message tasks share, and the calls at which they may be
interrupted: repository statements, locks, radio commands and sleeps. A task is
a `Program` over these calls; code between two calls is uninterrupted.

## Implementation notes

Every repository method holds the database lock for all its statements, so each
is one call. `claimAck` and `registerAck` are uninterrupted stretches of code on
module-level dictionaries; making them calls lets tasks interleave around them.
The outgoing-timestamp lock is never held across a suspension and is left out.
Broadcasts to browsers and log lines read nothing back and are left out, but for
the reports that a radio setting could not be restored.
-/

namespace RemoteTerm

open Library

/-- A row of `channels`. -/
structure Channel where
  key : Text
  name : Text
  deriving DecidableEq

/-- The fields of `AppSettings` that are modelled. -/
structure AppSettings where
  knownRegions : List Text := []
  floodScope : Text := []

/-- `OutgoingReservationKey`. -/
structure ReservationKey where
  msgType : MessageType
  conversationKey : Text
  text : Text
  deriving DecidableEq

/-- What the tasks of the process share. -/
structure App where
  messages : MessageTable
  rawPackets : RawPacketTable
  contacts : ContactTable
  channels : List Channel := []
  settings : AppSettings := {}
  storeLock : Bool := false
  radioLock : Bool := false
  reservations : List (ReservationKey × Int) := []
  acks : AckTracker := .empty

/-- The process at start-up with an empty database. -/
def App.empty : App := { messages := .empty, rawPackets := .empty, contacts := .empty }

/-- Commands to the radio. -/
inductive RadioCommand where
  | addContact (publicKey : Text)
  | resetPath (publicKey : Text)
  | setFloodScope (scope : Text)
  | forceUnscoped
  | sendMsg (publicKey text : Text) (timestamp : Int) (attempt : Nat)
  | setPathHashMode (mode : Int)
  | setChannel (slot : Int) (name : Text) (secret : Bytes)
  | sendChanMsg (slot : Int) (text : Text) (timestamp : Bytes)
  deriving DecidableEq

/-- What a failed restore leaves on the radio, as it is reported to the operator. -/
inductive RestoreReport where
  | floodScope
  | pathHashMode
  deriving DecidableEq

/-- What awaiting a radio command gives: an event with the fields that are read, an
`ERROR` event, no event, or an exception. -/
inductive RadioReply where
  | ok (expectedAck : Option Text) (suggestedTimeout : Option Int)
  | error
  | noResponse
  | raised
  deriving DecidableEq, Inhabited

/-- What entering `radio_operation` gives; the last two are exceptions. -/
inductive RadioGrant where
  | granted
  | busy
  | disconnected
  deriving DecidableEq, Inhabited

/-- The calls at which a task suspends. -/
inductive Op where
  | createMessage (m : NewMessage)
  | addPath (id : Nat) (p : MessagePath)
  | incrementAckCount (id : Nat)
  | getAckAndPaths (id : Nat)
  | getMessageById (id : Nat)
  | getByContent (msgType : MessageType) (conversationKey text : Text)
      (senderTimestamp : Option Int) (outgoing : Option Bool)
  | claimPrefixMessages (fullKey : Text)
  | createRawPacket (data : Bytes) (timestamp : Int)
  | markDecrypted (packetId messageId : Nat)
  | getLinkedMessageId (packetId : Nat)
  | undecryptedBatch (lastId : Int) (batchSize : Nat)
  | getContactByKey (publicKey : Text)
  | getContactByKeyOrPrefix (keyOrPrefix : Text)
  | getContactsByName (name : Text)
  | getContactsByFirstByte (hexByte : Text)
  | upsertContact (u : ContactUpsert)
  | deleteContact (publicKey : Text)
  | updateLastContacted (publicKey : Text) (timestamp : Int)
  | touchLastSeen (publicKey : Text) (timestamp : Int)
  | updateDirectPath (publicKey path : Text) (pathLen : Int) (pathHashMode : Option Int)
      (updatedAt : Int)
  | getChannels
  | getSettings
  | acquireStoreLock
  | releaseStoreLock
  | isReserved (key : ReservationKey) (timestamp : Int)
  | reserve (key : ReservationKey) (timestamp : Int)
  | releaseReservation (key : ReservationKey) (timestamp : Int)
  | claimAck (ackCode : Text)
  | registerAck (ackCode : Text) (messageId : Nat) (timeoutMs : Int)
  | acquireRadio
  | releaseRadio
  | radio (command : RadioCommand)
  | reportError (report : RestoreReport)
  | sleep

/-- What each call answers. -/
@[reducible] def Op.Ans : Op → Type
  | .createMessage _ => Option Nat
  | .addPath .. => Unit
  | .incrementAckCount _ => Nat
  | .getAckAndPaths _ => Nat × Option (List MessagePath)
  | .getMessageById _ => Option MessageRow
  | .getByContent .. => Option MessageRow
  | .claimPrefixMessages _ => Option Nat
  | .createRawPacket .. => Nat × Bool
  | .markDecrypted .. => Unit
  | .getLinkedMessageId _ => Option Nat
  | .undecryptedBatch .. => List RawPacketRow
  | .getContactByKey _ => Option Contact
  | .getContactByKeyOrPrefix _ => ContactRepository.Resolution
  | .getContactsByName _ => List Contact
  | .getContactsByFirstByte _ => List Contact
  | .upsertContact _ => Unit
  | .deleteContact _ => Unit
  | .updateLastContacted .. => Unit
  | .touchLastSeen .. => Unit
  | .updateDirectPath .. => Unit
  | .getChannels => List Channel
  | .getSettings => AppSettings
  | .acquireStoreLock => Unit
  | .releaseStoreLock => Unit
  | .isReserved .. => Bool
  | .reserve .. => Bool
  | .releaseReservation .. => Unit
  | .claimAck _ => Option Nat
  | .registerAck .. => Bool
  | .acquireRadio => RadioGrant
  | .releaseRadio => Unit
  | .radio _ => RadioReply
  | .reportError _ => Unit
  | .sleep => Unit

/-- A task of the process. -/
abbrev Task (α : Type) := Program Op Op.Ans α

/-- Suspend at one call. -/
abbrev await (op : Op) : Task op.Ans := Program.await op

/-- What the environment supplies to one call: the clock in milliseconds, the
radio's reply, and the outcome of entering a radio operation. -/
structure Choice where
  now : Int := 0
  reply : RadioReply := .noResponse
  grant : RadioGrant := .granted
  deriving Inhabited

/-- Perform one call; `none` while the call has to wait for a lock. -/
def perform (sha256 : Bytes → Bytes) (c : Choice) : (op : Op) → App → Option (op.Ans × App)
  | .createMessage m, s =>
      let created := MessageRepository.create s.messages m
      some (created.1, { s with messages := created.2 })
  | .addPath id p, s => some ((), { s with messages := MessageRepository.addPath s.messages id p })
  | .incrementAckCount id, s =>
      let messages := MessageRepository.incrementAckCount s.messages id
      let count := (MessageRepository.getById messages id).elim 1 MessageRow.acked
      some (count, { s with messages := messages })
  | .getAckAndPaths id, s =>
      some ((MessageRepository.getById s.messages id).elim (0, none) fun r => (r.acked, r.paths), s)
  | .getMessageById id, s => some (MessageRepository.getById s.messages id, s)
  | .getByContent msgType conversationKey text senderTimestamp outgoing, s =>
      some (MessageRepository.getByContent s.messages msgType conversationKey text senderTimestamp
        outgoing, s)
  | .claimPrefixMessages fullKey, s =>
      match MessageRepository.claimPrefixMessages s.contacts s.messages fullKey with
      | none => some (none, s)
      | some (claimed, messages) => some (some claimed, { s with messages := messages })
  | .createRawPacket data timestamp, s =>
      match RawPacketRepository.create sha256 s.rawPackets data timestamp with
      | (none, _) => none
      | (some created, rawPackets) => some (created, { s with rawPackets := rawPackets })
  | .markDecrypted packetId messageId, s =>
      some ((), { s with
        rawPackets := RawPacketRepository.markDecrypted s.rawPackets packetId messageId })
  | .getLinkedMessageId packetId, s =>
      some (RawPacketRepository.getLinkedMessageId s.rawPackets packetId, s)
  | .undecryptedBatch lastId batchSize, s =>
      some (RawPacketRepository.undecryptedBatch s.rawPackets lastId batchSize, s)
  | .getContactByKey publicKey, s => some (ContactRepository.getByKey s.contacts publicKey, s)
  | .getContactByKeyOrPrefix keyOrPrefix, s =>
      some (ContactRepository.getByKeyOrPrefix s.contacts keyOrPrefix, s)
  | .getContactsByName name, s => some (ContactRepository.getByName s.contacts name, s)
  | .getContactsByFirstByte hexByte, s =>
      some (ContactRepository.getByPubkeyFirstByte s.contacts hexByte, s)
  | .upsertContact u, s => some ((), { s with contacts := ContactRepository.upsert s.contacts u })
  | .deleteContact publicKey, s =>
      some ((), { s with contacts := ContactRepository.delete s.contacts publicKey })
  | .updateLastContacted publicKey timestamp, s =>
      some ((), { s with
        contacts := ContactRepository.updateLastContacted s.contacts publicKey timestamp })
  | .touchLastSeen publicKey timestamp, s =>
      some ((), { s with
        contacts := ContactRepository.touchLastSeen s.contacts publicKey timestamp })
  | .updateDirectPath publicKey path pathLen pathHashMode updatedAt, s =>
      some ((), { s with
        contacts := ContactRepository.updateDirectPath s.contacts publicKey path pathLen
          pathHashMode updatedAt })
  | .getChannels, s => some (s.channels, s)
  | .getSettings, s => some (s.settings, s)
  | .acquireStoreLock, s => if s.storeLock then none else some ((), { s with storeLock := true })
  | .releaseStoreLock, s => some ((), { s with storeLock := false })
  | .isReserved key timestamp, s => some (decide ((key, timestamp) ∈ s.reservations), s)
  | .reserve key timestamp, s =>
      if (key, timestamp) ∈ s.reservations then some (false, s)
      else some (true, { s with reservations := (key, timestamp) :: s.reservations })
  | .releaseReservation key timestamp, s =>
      some ((), { s with reservations := s.reservations.filter fun r => r ≠ (key, timestamp) })
  | .claimAck ackCode, s =>
      let claimed := s.acks.claimAck ackCode c.now
      some (claimed.1, { s with acks := claimed.2 })
  | .registerAck ackCode messageId timeoutMs, s =>
      let registered := s.acks.registerAck ackCode messageId timeoutMs c.now
      some (registered.1, { s with acks := registered.2 })
  | .acquireRadio, s =>
      match c.grant with
      | .granted => if s.radioLock then none else some (.granted, { s with radioLock := true })
      | refused => some (refused, s)
  | .releaseRadio, s => some ((), { s with radioLock := false })
  | .radio _, s => some (c.reply, s)
  | .reportError _, s => some ((), s)
  | .sleep, s => some ((), s)

/-- The calls of the process, in any environment. -/
def process (sha256 : Bytes → Bytes) : Program.Semantics Op Op.Ans App :=
  Program.Semantics.ofFunction (perform sha256)

/-- The calls whose answer depends on the clock or on the radio. -/
def Op.readsEnvironment : Op → Bool
  | .claimAck _ | .registerAck .. | .acquireRadio | .radio _ => true
  | _ => false

/-- Every other call has at most one answer in a state. -/
theorem process_unique {sha256 : Bytes → Bytes} {op : Op} {s s' s'' : App} {x y : op.Ans}
    (hop : op.readsEnvironment = false) (h : process sha256 op s x s')
    (h' : process sha256 op s y s'') : x = y ∧ s' = s'' := by
  obtain ⟨c, hc⟩ := h
  obtain ⟨c', hc'⟩ := h'
  have hsame : perform sha256 c op s = perform sha256 c' op s := by
    cases op <;> first | rfl | simp [Op.readsEnvironment] at hop
  exact Prod.mk.inj (Option.some.inj (hc.symm.trans (hsame.trans hc')))

/-- The calls that never wait for another task. -/
def Op.Answers : Op → Prop
  | .acquireStoreLock => False
  | _ => True

/-- A call that does not wait answers in every state. -/
theorem process_answers (sha256 : Bytes → Bytes) (op : Op) (h : op.Answers) (s : App) :
    ∃ x s', process sha256 op s x s' := by
  suffices hc : ∃ c r, perform sha256 c op s = some r by
    obtain ⟨c, r, hr⟩ := hc
    exact ⟨r.1, r.2, c, hr⟩
  cases op with
  | acquireStoreLock => exact h.elim
  | acquireRadio => exact ⟨{ grant := .busy }, _, rfl⟩
  | createRawPacket data timestamp =>
      obtain ⟨created, t, ht⟩ :=
        RawPacketRepository.create_answers sha256 s.rawPackets data timestamp
      exact ⟨default, (created, { s with rawPackets := t }), by simp only [perform, ht]⟩
  | claimPrefixMessages fullKey =>
      simp only [perform]
      cases MessageRepository.claimPrefixMessages s.contacts s.messages fullKey with
      | none => exact ⟨default, _, rfl⟩
      | some r => exact ⟨default, _, rfl⟩
  | reserve key timestamp =>
      simp only [perform]
      split <;> exact ⟨default, _, rfl⟩
  | _ => exact ⟨default, _, rfl⟩

section Calls

variable {sha256 : Bytes → Bytes} {s s' : App}

/-- A call that answers alike in every environment. -/
theorem process_iff {op : Op} {x y : op.Ans} {t : App}
    (h : ∀ c, perform sha256 c op s = some (y, t)) :
    process sha256 op s x s' ↔ x = y ∧ s' = t := by
  constructor
  · rintro ⟨c, hc⟩
    obtain ⟨rfl, rfl⟩ := Prod.mk.inj (Option.some.inj ((h c).symm.trans hc))
    exact ⟨rfl, rfl⟩
  · rintro ⟨rfl, rfl⟩
    exact ⟨default, h default⟩

@[simp] theorem process_createMessage {m : NewMessage} {x : Option Nat} :
    process sha256 (.createMessage m) s x s' ↔
      x = (MessageRepository.create s.messages m).1 ∧
        s' = { s with messages := (MessageRepository.create s.messages m).2 } :=
  process_iff fun _ => rfl

@[simp] theorem process_addPath {id : Nat} {p : MessagePath} {x : Unit} :
    process sha256 (.addPath id p) s x s' ↔
      s' = { s with messages := MessageRepository.addPath s.messages id p } :=
  (process_iff fun _ => rfl).trans (and_iff_right rfl)

@[simp] theorem process_incrementAckCount {id : Nat} {x : Nat} :
    process sha256 (.incrementAckCount id) s x s' ↔
      x = (MessageRepository.getById (MessageRepository.incrementAckCount s.messages id) id).elim 1
          MessageRow.acked ∧
        s' = { s with messages := MessageRepository.incrementAckCount s.messages id } :=
  process_iff fun _ => rfl

@[simp] theorem process_getByContent {msgType : MessageType} {conversationKey text : Text}
    {senderTimestamp : Option Int} {outgoing : Option Bool} {x : Option MessageRow} :
    process sha256 (.getByContent msgType conversationKey text senderTimestamp outgoing) s x s' ↔
      x = MessageRepository.getByContent s.messages msgType conversationKey text senderTimestamp
          outgoing ∧ s' = s :=
  process_iff fun _ => rfl

@[simp] theorem process_markDecrypted {packetId messageId : Nat} {x : Unit} :
    process sha256 (.markDecrypted packetId messageId) s x s' ↔
      s' = { s with
        rawPackets := RawPacketRepository.markDecrypted s.rawPackets packetId messageId } :=
  (process_iff fun _ => rfl).trans (and_iff_right rfl)

@[simp] theorem process_getLinkedMessageId {packetId : Nat} {x : Option Nat} :
    process sha256 (.getLinkedMessageId packetId) s x s' ↔
      x = RawPacketRepository.getLinkedMessageId s.rawPackets packetId ∧ s' = s :=
  process_iff fun _ => rfl

@[simp] theorem process_getMessageById {id : Nat} {x : Option MessageRow} :
    process sha256 (.getMessageById id) s x s' ↔
      x = MessageRepository.getById s.messages id ∧ s' = s :=
  process_iff fun _ => rfl

@[simp] theorem process_claimPrefixMessages {fullKey : Text} {x : Option Nat} :
    process sha256 (.claimPrefixMessages fullKey) s x s' ↔
      match MessageRepository.claimPrefixMessages s.contacts s.messages fullKey with
      | none => x = none ∧ s' = s
      | some (claimed, messages) => x = some claimed ∧ s' = { s with messages := messages } := by
  have hperform : ∀ c, perform sha256 c (.claimPrefixMessages fullKey) s =
      match MessageRepository.claimPrefixMessages s.contacts s.messages fullKey with
      | none => some (none, s)
      | some (claimed, messages) => some (some claimed, { s with messages := messages }) :=
    fun _ => rfl
  cases hclaim : MessageRepository.claimPrefixMessages s.contacts s.messages fullKey with
  | none => exact process_iff fun c => by rw [hperform, hclaim]
  | some claimed => exact process_iff fun c => by rw [hperform, hclaim]

@[simp] theorem process_getContactByKey {publicKey : Text} {x : Option Contact} :
    process sha256 (.getContactByKey publicKey) s x s' ↔
      x = ContactRepository.getByKey s.contacts publicKey ∧ s' = s :=
  process_iff fun _ => rfl

@[simp] theorem process_getContactByKeyOrPrefix {keyOrPrefix : Text}
    {x : ContactRepository.Resolution} :
    process sha256 (.getContactByKeyOrPrefix keyOrPrefix) s x s' ↔
      x = ContactRepository.getByKeyOrPrefix s.contacts keyOrPrefix ∧ s' = s :=
  process_iff fun _ => rfl

@[simp] theorem process_getContactsByName {name : Text} {x : List Contact} :
    process sha256 (.getContactsByName name) s x s' ↔
      x = ContactRepository.getByName s.contacts name ∧ s' = s :=
  process_iff fun _ => rfl

@[simp] theorem process_getContactsByFirstByte {hexByte : Text} {x : List Contact} :
    process sha256 (.getContactsByFirstByte hexByte) s x s' ↔
      x = ContactRepository.getByPubkeyFirstByte s.contacts hexByte ∧ s' = s :=
  process_iff fun _ => rfl

@[simp] theorem process_createRawPacket {data : Bytes} {timestamp : Int} {x : Nat × Bool} :
    process sha256 (.createRawPacket data timestamp) s x s' ↔
      ∃ t, RawPacketRepository.create sha256 s.rawPackets data timestamp = (some x, t) ∧
        s' = { s with rawPackets := t } := by
  obtain ⟨created, t, hcreate⟩ := RawPacketRepository.create_answers sha256 s.rawPackets data
    timestamp
  have hperform : ∀ c, perform sha256 c (.createRawPacket data timestamp) s =
      match RawPacketRepository.create sha256 s.rawPackets data timestamp with
      | (none, _) => none
      | (some created, rawPackets) => some (created, { s with rawPackets := rawPackets }) :=
    fun _ => rfl
  rw [process_iff fun c => by rw [hperform, hcreate]]
  simp [hcreate, eq_comm]

@[simp] theorem process_getChannels {x : List Channel} :
    process sha256 .getChannels s x s' ↔ x = s.channels ∧ s' = s :=
  process_iff fun _ => rfl

@[simp] theorem process_getSettings {x : AppSettings} :
    process sha256 .getSettings s x s' ↔ x = s.settings ∧ s' = s :=
  process_iff fun _ => rfl

@[simp] theorem process_isReserved {key : ReservationKey} {timestamp : Int} {x : Bool} :
    process sha256 (.isReserved key timestamp) s x s' ↔
      x = decide ((key, timestamp) ∈ s.reservations) ∧ s' = s :=
  process_iff fun _ => rfl

@[simp] theorem process_reserve {key : ReservationKey} {timestamp : Int} {x : Bool} :
    process sha256 (.reserve key timestamp) s x s' ↔
      if (key, timestamp) ∈ s.reservations then x = false ∧ s' = s
      else x = true ∧ s' = { s with reservations := (key, timestamp) :: s.reservations } := by
  have hperform : ∀ c, perform sha256 c (.reserve key timestamp) s =
      if (key, timestamp) ∈ s.reservations then some (false, s)
      else some (true, { s with reservations := (key, timestamp) :: s.reservations }) :=
    fun _ => rfl
  by_cases h : (key, timestamp) ∈ s.reservations
  · rw [if_pos h]
    exact process_iff fun c => by rw [hperform, if_pos h]
  · rw [if_neg h]
    exact process_iff fun c => by rw [hperform, if_neg h]

@[simp] theorem process_getAckAndPaths {id : Nat} {x : Nat × Option (List MessagePath)} :
    process sha256 (.getAckAndPaths id) s x s' ↔
      x = (MessageRepository.getById s.messages id).elim (0, none) (fun r => (r.acked, r.paths)) ∧
        s' = s :=
  process_iff fun _ => rfl

end Calls

end RemoteTerm
