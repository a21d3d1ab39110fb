import RemoteTerm.Decoder.PathPayload
import RemoteTerm.Decoder.Region
import RemoteTerm.Services.DmIngest

/-!
# Processing raw packets

`packet_processor.py`: a packet is stored, parsed, and handed to the handler of
its payload type. Modelled are the handlers of channel messages, direct messages,
returned paths and standalone acks.

## Implementation notes

Adverts only touch contacts and are left out. The returned dictionaries only feed a
broadcast and are left out.
-/

namespace RemoteTerm

open Library

/-- What the packet pipeline reads from the outside: the primitives and the private key. -/
structure Pipeline where
  crypto : Crypto
  privateKey : Option Bytes

/-- `get_public_key`. -/
def Pipeline.publicKey (env : Pipeline) : Option Bytes :=
  env.privateKey.map env.crypto.derivePublicKey

/-- One reception of a packet: its bytes, the signal readings, and the clock. -/
structure Reception where
  rawBytes : Bytes
  timestamp : Option Int := none
  snr : Option Rat := none
  rssi : Option Int := none
  now : Int

/-- `timestamp or int(time.time())`. -/
def Reception.receivedAt (r : Reception) : Int := receivedOrNow r.timestamp r.now

/-- The first stored channel whose key decrypts a packet. -/
def decryptingChannel (crypto : Crypto) (channels : List Channel) (rawBytes : Bytes) :
    Option (Channel × DecryptedGroupText) :=
  channels.findSome? fun channel => do
    let key ← bytesOfHex channel.key
    let decrypted ← tryDecryptPacketWithChannelKey crypto rawBytes key
    return (channel, decrypted)

/-- `path.hex()` of a parsed packet. -/
def pathHex (packetInfo : Option PacketInfo) : Option Text :=
  packetInfo.map fun info => hexOfBytes info.path

/-- `path_length` of a parsed packet. -/
def pathLength (packetInfo : Option PacketInfo) : Option Int :=
  packetInfo.map fun info => (info.pathLength : Int)

/-- The arguments that a live packet gives to `create_message_from_decrypted`. -/
def liveChannelMessage (r : Reception) (packetId : Nat) (packetInfo : Option PacketInfo)
    (scope : Option Nat × Option Text) (channel : Channel) (decrypted : DecryptedGroupText) :
    DecryptedChannelMessage where
  packetId := packetId
  channelKey := channel.key
  sender := decrypted.sender
  messageText := decrypted.message
  timestamp := decrypted.timestamp
  receivedAt := some r.receivedAt
  path := pathHex packetInfo
  pathLen := pathLength packetInfo
  rssi := r.rssi
  snr := r.snr
  transportCode := scope.1
  region := scope.2
  now := r.now

/-- `_process_group_text`: the first channel that decrypts the packet creates its message. -/
def processGroupText (env : Pipeline) (r : Reception) (packetId : Nat)
    (packetInfo : Option PacketInfo) (scope : Option Nat × Option Text) : Task Unit := do
  let channels ← await .getChannels
  match decryptingChannel env.crypto channels r.rawBytes with
  | none => pure ()
  | some (channel, decrypted) => do
      let _ ← createMessageFromDecrypted
        (liveChannelMessage r packetId packetInfo scope channel decrypted)
      pure ()

/-- The first candidate contact whose key decrypts a packet. -/
def decryptingContact (crypto : Crypto) (privateKey : Bytes) (ourPublicKey : Option Bytes)
    (rawBytes : Bytes) (candidates : List Contact) : Option (Contact × DecryptedDirectMessage) :=
  candidates.findSome? fun contact => do
    let key ← bytesOfHex contact.publicKey
    let decrypted ← tryDecryptDm crypto rawBytes privateKey key ourPublicKey
    return (contact, decrypted)

/-- Whether a direct message is ours, by its two hash bytes; `none` when it is not for us. -/
def packetDirection (destHash srcHash ourFirstByte : UInt8) : Option Bool :=
  if destHash = ourFirstByte ∧ srcHash ≠ ourFirstByte then some false
  else if srcHash = ourFirstByte ∧ destHash ≠ ourFirstByte then some true
  else if destHash = ourFirstByte ∧ srcHash = ourFirstByte then some false
  else none

/-- A packet whose hash bytes are equal is our own echo when the message was stored as sent. -/
def resolveDirection (isOutgoing : Bool) (destHash srcHash : UInt8) (contact : Contact)
    (decrypted : DecryptedDirectMessage) : Task Bool :=
  if ¬ isOutgoing ∧ destHash = srcHash then do
    let existing ← await (.getByContent .priv (lower contact.publicKey) decrypted.message
      (some decrypted.timestamp) (some true))
    pure existing.isSome
  else pure isOutgoing

/-- The arguments that a live packet gives to `create_dm_message_from_decrypted`. -/
def liveIngest (r : Reception) (packetId : Nat) (packetInfo : PacketInfo)
    (scope : Option Nat × Option Text) (contact : Contact) (decrypted : DecryptedDirectMessage)
    (outgoing : Bool) : DecryptedIngest where
  packetId := packetId
  decrypted := decrypted
  theirPublicKey := contact.publicKey
  receivedAt := some r.receivedAt
  path := pathHex (some packetInfo)
  pathLen := pathLength (some packetInfo)
  rssi := r.rssi
  snr := r.snr
  outgoing := outgoing
  transportCode := scope.1
  region := scope.2
  now := r.now

/-- `_process_direct_message` once the direction is known: look up the candidates by the
other party's hash byte, and ingest what the first one decrypts. -/
def processCandidates (env : Pipeline) (r : Reception) (packetId : Nat) (packetInfo : PacketInfo)
    (scope : Option Nat × Option Text) (privateKey ourPublicKey : Bytes)
    (destHash srcHash : UInt8) (isOutgoing : Bool) : Task Unit := do
  let candidates ← await (.getContactsByFirstByte
    (hexOfBytes [if isOutgoing then destHash else srcHash]))
  match decryptingContact env.crypto privateKey (if isOutgoing then none else some ourPublicKey)
      r.rawBytes candidates with
  | none => pure ()
  | some (contact, decrypted) => do
      let outgoing ← resolveDirection isOutgoing destHash srcHash contact decrypted
      let _ ← ingestDecryptedDirectMessage
        (liveIngest r packetId packetInfo scope contact decrypted outgoing)
      pure ()

/-- `_process_direct_message`. -/
def processDirectMessage (env : Pipeline) (r : Reception) (packetId : Nat)
    (packetInfo : PacketInfo) (scope : Option Nat × Option Text) : Task Unit :=
  match env.privateKey, env.publicKey, packetInfo.payload with
  | some privateKey, some ourPublicKey, destHash :: srcHash :: _ :: _ :: _ =>
      match packetDirection destHash srcHash (ourPublicKey.getD 0 0) with
      | none => pure ()
      | some isOutgoing =>
          processCandidates env r packetId packetInfo scope privateKey ourPublicKey destHash
            srcHash isOutgoing
  | _, _, _ => pure ()

/-- `apply_dm_ack_code`. -/
def applyDmAckCode (ackCode : Text) : Task Bool := do
  let due ← await (.claimAck ackCode)
  match due with
  | none => pure false
  | some messageId => do
      let _ ← await (.incrementAckCount messageId)
      pure true

/-- The first candidate contact, known by its full key, whose secret decrypts a PATH packet. -/
def pathContact (crypto : Crypto) (privateKey ourPublicKey rawBytes : Bytes)
    (candidates : List Contact) : Option (Contact × DecryptedPathPayload) :=
  candidates.findSome? fun contact =>
    if contact.publicKey.length ≠ 64 then none
    else do
      let key ← bytesOfHex contact.publicKey
      let result ← tryDecryptPath crypto rawBytes privateKey key ourPublicKey
      return (contact, result)

/-- The acknowledgement that a PATH packet bundles. -/
def bundledAckCode (result : DecryptedPathPayload) : Option Text :=
  if result.extraType = PayloadType.ack.toNat ∧ 4 ≤ result.extra.length then
    some (hexOfBytes (result.extra.take 4))
  else none

/-- `apply_dm_ack_code` for a code that may be absent. -/
def applyBundledAck : Option Text → Task Unit
  | none => pure ()
  | some ackCode => do
      let _ ← applyDmAckCode ackCode
      pure ()

/-- `_process_path_packet` from the lookup of candidates on. -/
def processPathCandidates (env : Pipeline) (r : Reception) (privateKey ourPublicKey : Bytes)
    (srcHash : UInt8) : Task Unit := do
  let candidates ← await (.getContactsByFirstByte (hexOfBytes [srcHash]))
  match pathContact env.crypto privateKey ourPublicKey r.rawBytes candidates with
  | none => pure ()
  | some (contact, result) => do
      await (.updateDirectPath contact.publicKey (hexOfBytes result.returnedPath)
        result.returnedPathLen (some result.returnedPathHashMode) r.receivedAt)
      applyBundledAck (bundledAckCode result)
      let _ ← await (.getContactByKey contact.publicKey)
      pure ()

/-- `_process_path_packet`. -/
def processPathPacket (env : Pipeline) (r : Reception) (packetInfo : PacketInfo) : Task Unit :=
  match env.privateKey, env.publicKey, packetInfo.payload with
  | some privateKey, some ourPublicKey, destHash :: srcHash :: _ :: _ :: _ =>
      if destHash ≠ ourPublicKey.getD 0 0 then pure ()
      else processPathCandidates env r privateKey ourPublicKey srcHash
  | _, _, _ => pure ()

/-- The transport code and region of a parsed packet. -/
def resolveScope (crypto : Crypto) (packetInfo : PacketInfo) :
    Task (Option Nat × Option Text) :=
  match packetInfo.transportCodes with
  | none => pure (none, none)
  | some _ => do
      let settings ← await .getSettings
      pure (packetScope crypto settings.knownRegions packetInfo)

/-- The handler of a payload type. -/
def processPayload (env : Pipeline) (r : Reception) (packetId : Nat) (packetInfo : PacketInfo)
    (scope : Option Nat × Option Text) : Task Unit :=
  match packetInfo.payloadType with
  | .groupText => processGroupText env r packetId (some packetInfo) scope
  | .textMessage => processDirectMessage env r packetId packetInfo scope
  | .ack =>
      if 4 ≤ packetInfo.payload.length then do
        let _ ← applyDmAckCode (hexOfBytes (packetInfo.payload.take 4))
        pure ()
      else pure ()
  | .path => processPathPacket env r packetInfo
  | _ => pure ()

/-- `process_raw_packet`. -/
def processRawPacket (env : Pipeline) (r : Reception) : Task Unit := do
  let created ← await (.createRawPacket r.rawBytes r.receivedAt)
  match parsePacket r.rawBytes with
  | none => pure ()
  | some packetInfo => do
      let scope ← resolveScope env.crypto packetInfo
      processPayload env r created.1 packetInfo scope

theorem tryDecryptPacketWithChannelKey_parses {crypto : Crypto} {rawBytes key : Bytes}
    {d : DecryptedGroupText} (h : tryDecryptPacketWithChannelKey crypto rawBytes key = some d) :
    ∃ info, parsePacket rawBytes = some info ∧ info.payloadType = .groupText := by
  simp only [tryDecryptPacketWithChannelKey, Option.bind_eq_bind, Option.bind_eq_some_iff] at h
  obtain ⟨info, hinfo, h⟩ := h
  refine ⟨info, hinfo, ?_⟩
  by_contra hne
  simp [hne] at h

/-- A packet that some channel decrypts is a channel message packet. -/
theorem decryptingChannel_parses {crypto : Crypto} {channels : List Channel} {rawBytes : Bytes}
    {channel : Channel} {d : DecryptedGroupText}
    (h : decryptingChannel crypto channels rawBytes = some (channel, d)) :
    ∃ info, parsePacket rawBytes = some info ∧ info.payloadType = .groupText := by
  obtain ⟨c, -, hc⟩ := List.exists_of_findSome?_eq_some h
  simp only [Option.bind_eq_bind, Option.bind_eq_some_iff] at hc
  obtain ⟨key, -, d', hd, -⟩ := hc
  exact tryDecryptPacketWithChannelKey_parses hd

theorem resolveScope_eval {sha256 : Bytes → Bytes} {crypto : Crypto} {info : PacketInfo}
    {s s' : App} {scope : Option Nat × Option Text} :
    Program.Eval (process sha256) (resolveScope crypto info) s scope s' ↔
      scope = packetScope crypto s.settings.knownRegions info ∧ s' = s := by
  unfold resolveScope packetScope
  cases info.transportCodes with
  | none => simp
  | some codes => simp [and_comm]

/-- Receiving a packet that a stored channel decrypts stores it and creates its message. -/
theorem processRawPacket_groupText {env : Pipeline} {r : Reception} {s s' : App}
    {channel : Channel} {d : DecryptedGroupText}
    (hdec : decryptingChannel env.crypto s.channels r.rawBytes = some (channel, d)) :
    Program.Eval (process env.crypto.sha256) (processRawPacket env r) s () s' ↔
      ∃ info created t x, parsePacket r.rawBytes = some info ∧
        RawPacketRepository.create env.crypto.sha256 s.rawPackets r.rawBytes r.receivedAt =
          (some created, t) ∧
        Program.Eval (process env.crypto.sha256)
          (createMessageFromDecrypted (liveChannelMessage r created.1 (some info)
            (packetScope env.crypto s.settings.knownRegions info) channel d))
          { s with rawPackets := t } x s' := by
  obtain ⟨info, hinfo, htype⟩ := decryptingChannel_parses hdec
  simp only [processRawPacket, hinfo, Program.await_bind, Program.eval_call_iff,
    process_createRawPacket, Program.eval_bind_iff, resolveScope_eval, processPayload, htype,
    processGroupText, process_getChannels]
  constructor
  · rintro ⟨created, u, ⟨t, ht, rfl⟩, scope, v, ⟨rfl, rfl⟩, channels, w, ⟨rfl, rfl⟩, h⟩
    simp only [hdec, Program.eval_bind_iff, Program.pure_eq, Program.eval_pure_iff] at h
    obtain ⟨x, y, hx, -, rfl⟩ := h
    exact ⟨info, created, t, x, rfl, ht, hx⟩
  · rintro ⟨_, created, t, x, hinfo', ht, hx⟩
    obtain rfl := Option.some.inj hinfo'
    refine ⟨created, _, ⟨t, ht, rfl⟩, _, _, ⟨rfl, rfl⟩, _, _, ⟨rfl, rfl⟩, ?_⟩
    simp only [hdec, Program.eval_bind_iff, Program.pure_eq, Program.eval_pure_iff]
    exact ⟨x, s', hx, trivial, rfl⟩

end RemoteTerm
