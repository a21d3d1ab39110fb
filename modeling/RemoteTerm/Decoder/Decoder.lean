import RemoteTerm.Library.Text
import RemoteTerm.Decoder.PathUtils

/-!
# Packet decoding

`decoder.py`: the packet header, and the decryption of channel messages and of
direct messages.

## Implementation notes

SHA-256, HMAC-SHA256, AES-128-ECB and the curve operations come from third-party
packages and are the fields of `Crypto`; an exception of one of them is `none`.
-/

namespace RemoteTerm

open Library

/-- The cryptographic primitives that the decoder calls. -/
structure Crypto where
  sha256 : Bytes → Bytes
  hmacSha256 : Bytes → Bytes → Bytes
  aesEcbDecrypt : Bytes → Bytes → Option Bytes
  deriveSharedSecret : Bytes → Bytes → Option Bytes
  derivePublicKey : Bytes → Bytes

/-- `PayloadType`. -/
inductive PayloadType where
  | request
  | response
  | textMessage
  | ack
  | advert
  | groupText
  | groupData
  | anonRequest
  | path
  | trace
  | multipart
  | control
  | rawCustom
  deriving DecidableEq, Repr

namespace PayloadType

/-- The number of a payload type on the wire. -/
def toNat : PayloadType → Nat
  | request => 0x00
  | response => 0x01
  | textMessage => 0x02
  | ack => 0x03
  | advert => 0x04
  | groupText => 0x05
  | groupData => 0x06
  | anonRequest => 0x07
  | path => 0x08
  | trace => 0x09
  | multipart => 0x0A
  | control => 0x0B
  | rawCustom => 0x0F

/-- `PayloadType(n)`, with `none` for a `ValueError`. -/
def ofNat? (n : Nat) : Option PayloadType :=
  [request, response, textMessage, ack, advert, groupText, groupData, anonRequest, path, trace,
    multipart, control, rawCustom].find? fun p => p.toNat = n

end PayloadType

/-- The fields of `PacketInfo` that are read. -/
structure PacketInfo where
  payloadType : PayloadType
  pathLength : Nat
  path : Bytes
  payload : Bytes
  transportCodes : Option (Nat × Nat)
  deriving DecidableEq

/-- `parse_packet`. -/
def parsePacket (rawPacket : Bytes) : Option PacketInfo := do
  let envelope ← parsePacketEnvelope rawPacket
  let payloadType ← PayloadType.ofNat? envelope.payloadType
  return ⟨payloadType, envelope.hopCount, envelope.path, envelope.payload, envelope.transportCodes⟩

/-- `get_packet_payload_type`. -/
def getPacketPayloadType : Bytes → Option PayloadType
  | [] => none
  | header :: _ => PayloadType.ofNat? ((header.toNat >>> 2) &&& 0x0F)

/-- `bytes.decode("utf-8")`, with `none` for a `UnicodeDecodeError`. -/
def decodeUtf8 (bs : Bytes) : Option Text := (String.fromUTF8? bs.toByteArray).map String.toList

/-- The text before the first null character. -/
def beforeNull (text : Text) : Text := text.takeWhile (· ≠ '\x00')

/-- The characters before and after the first `": "`. -/
def splitAtColon : List Char → Option (List Char × List Char)
  | [] => none
  | c :: rest =>
      match c, rest with
      | ':', ' ' :: after => some ([], after)
      | _, _ => (splitAtColon rest).map fun p => (c :: p.1, p.2)

/-- Characters that may not stand in a sender name. -/
def isInvalidInSender (c : Char) : Bool := c = ':' ∨ c = '[' ∨ c = ']' ∨ c = '\x00'

/-- The `"sender: message"` format of channel text. -/
def parseSender (messageText : Text) : Option Text × Text :=
  match splitAtColon messageText with
  | none => (none, messageText)
  | some (front, after) =>
      if 0 < front.length ∧ front.length < 50 ∧ ¬ front.any isInvalidInSender then
        (some front, after)
      else (none, messageText)

/-- `DecryptedGroupText`. -/
structure DecryptedGroupText where
  timestamp : Nat
  flags : Nat
  sender : Option Text
  message : Text
  channelHash : Text
  deriving DecidableEq

/-- The ciphertext of a payload, when its length fits the cipher and its MAC is the one
computed with the secret. -/
def verifiedCiphertext (crypto : Crypto) (secret mac ciphertext : Bytes) : Option Bytes :=
  if ciphertext.length = 0 ∨ ciphertext.length % 16 ≠ 0 then none
  else if (crypto.hmacSha256 secret ciphertext).take 2 ≠ mac then none
  else some ciphertext

/-- `decrypt_group_text`. -/
def decryptGroupText (crypto : Crypto) (payload channelKey : Bytes) :
    Option DecryptedGroupText := do
  if payload.length < 3 then none
  let ciphertext ← verifiedCiphertext crypto (channelKey ++ List.replicate 16 0)
    ((payload.drop 1).take 2) (payload.drop 3)
  let decrypted ← crypto.aesEcbDecrypt channelKey ciphertext
  if decrypted.length < 5 then none
  let text ← decodeUtf8 (decrypted.drop 5)
  let (sender, content) := parseSender (beforeNull text)
  return {
    timestamp := littleEndian (decrypted.take 4)
    flags := (decrypted.getD 4 0).toNat
    sender := sender
    message := content
    channelHash := hexOfBytes (payload.take 1) }

/-- `try_decrypt_packet_with_channel_key`. -/
def tryDecryptPacketWithChannelKey (crypto : Crypto) (rawPacket channelKey : Bytes) :
    Option DecryptedGroupText := do
  let packetInfo ← parsePacket rawPacket
  if packetInfo.payloadType ≠ .groupText then none
  if packetInfo.payload.head? ≠ (crypto.sha256 channelKey).head? then none
  decryptGroupText crypto packetInfo.payload channelKey

/-- `DecryptedDirectMessage`. -/
structure DecryptedDirectMessage where
  timestamp : Nat
  flags : Nat
  message : Text
  destHash : Text
  srcHash : Text
  signedSenderPrefix : Option Text
  deriving DecidableEq

/-- `DecryptedDirectMessage.txt_type`. -/
def DecryptedDirectMessage.txtType (d : DecryptedDirectMessage) : Nat := d.flags >>> 2

/-- The signed sender prefix of a room post, and the bytes of the text. -/
def splitSignedPrefix (flags : Nat) (messageBytes : Bytes) : Option (Option Text × Bytes) :=
  if flags >>> 2 = 2 then
    if messageBytes.length < 4 then none
    else some (some (hexOfBytes (messageBytes.take 4)), messageBytes.drop 4)
  else some (none, messageBytes)

/-- `decrypt_direct_message`. -/
def decryptDirectMessage (crypto : Crypto) (payload sharedSecret : Bytes) :
    Option DecryptedDirectMessage := do
  if payload.length < 4 then none
  let ciphertext ← verifiedCiphertext crypto sharedSecret ((payload.drop 2).take 2)
    (payload.drop 4)
  let decrypted ← crypto.aesEcbDecrypt (sharedSecret.take 16) ciphertext
  if decrypted.length < 5 then none
  let flags := (decrypted.getD 4 0).toNat
  let (signedSenderPrefix, messageBytes) ← splitSignedPrefix flags (decrypted.drop 5)
  let text ← decodeUtf8 messageBytes
  return {
    timestamp := littleEndian (decrypted.take 4)
    flags := flags
    message := beforeNull text
    destHash := hexOfBytes (payload.take 1)
    srcHash := hexOfBytes ((payload.drop 1).take 1)
    signedSenderPrefix := signedSenderPrefix }

/-- `try_decrypt_dm`: only the hash bytes decide whether a contact is tried; without our
public key a packet is only tried as one from the contact. -/
def tryDecryptDm (crypto : Crypto) (rawPacket ourPrivateKey theirPublicKey : Bytes)
    (ourPublicKey : Option Bytes) : Option DecryptedDirectMessage := do
  let packetInfo ← parsePacket rawPacket
  if packetInfo.payloadType ≠ .textMessage then none
  if packetInfo.payload.length < 4 then none
  let destHash := packetInfo.payload.getD 0 0
  let srcHash := packetInfo.payload.getD 1 0
  let isInbound := srcHash = theirPublicKey.getD 0 0
  let isOutbound := ∃ key ∈ ourPublicKey,
    srcHash = key.getD 0 0 ∧ destHash = theirPublicKey.getD 0 0
  if ¬ isInbound ∧ ¬ isOutbound then none
  let sharedSecret ← crypto.deriveSharedSecret ourPrivateKey theirPublicKey
  decryptDirectMessage crypto packetInfo.payload sharedSecret

end RemoteTerm
