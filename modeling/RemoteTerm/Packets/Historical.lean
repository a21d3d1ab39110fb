import RemoteTerm.Packets.Processor

/-!
# Decrypting stored packets

Packets that no key decrypted when they arrived stay in `raw_packets`. When a
channel key or a contact becomes known, a background task scans them in batches
and ingests what the key decrypts.

## Implementation notes

A scan is unrolled for a given number of batches. The early return on a cached
count of zero is left out: a scan of nothing does nothing.
-/

namespace RemoteTerm

open Library

/-- Run the body of a scan on the rows of one batch. -/
def forBatch (body : RawPacketRow → Task Unit) : List RawPacketRow → Task Unit
  | [] => pure ()
  | row :: rest => do
      body row
      forBatch body rest

/-- `stream_all_undecrypted`: each batch starts after the last row of the one before. -/
def forAllUndecrypted (batchSize : Nat) (body : RawPacketRow → Task Unit) :
    Nat → Int → Task Unit
  | 0, _ => pure ()
  | batches + 1, lastId => do
      let rows ← await (.undecryptedBatch lastId batchSize)
      match rows.getLast? with
      | none => pure ()
      | some last => do
          forBatch body rows
          forAllUndecrypted batchSize body batches last.id

/-- `UNDECRYPTED_PACKET_BATCH_SIZE`. -/
def undecryptedPacketBatchSize : Nat := 500

/-- A channel key to try on stored packets, as bytes and as hexadecimal text. -/
structure HistoricalChannel where
  keyBytes : Bytes
  keyHex : Text
  deriving DecidableEq

/-- The arguments that a stored packet gives to `create_message_from_decrypted`. -/
def historicalChannelMessage (row : RawPacketRow) (keyHex : Text) (result : DecryptedGroupText)
    (scope : Option Nat × Option Text) (now : Int) : DecryptedChannelMessage where
  packetId := row.id
  channelKey := keyHex
  sender := result.sender
  messageText := result.message
  timestamp := result.timestamp
  receivedAt := some row.timestamp
  path := pathHex (parsePacket row.data)
  pathLen := pathLength (parsePacket row.data)
  transportCode := scope.1
  region := scope.2
  now := now

/-- The transport code of a stored packet and the region it resolves to. -/
def historicalScope (crypto : Crypto) (knownRegions : List Text) (row : RawPacketRow) :
    Option Nat × Option Text :=
  match parsePacket row.data with
  | none => (none, none)
  | some info => packetScope crypto knownRegions info

/-- The body of the scan with one channel key. -/
def decryptChannelPacket (crypto : Crypto) (channel : HistoricalChannel)
    (knownRegions : List Text) (now : Int) (row : RawPacketRow) : Task Unit :=
  match tryDecryptPacketWithChannelKey crypto row.data channel.keyBytes with
  | none => pure ()
  | some result => do
      let _ ← createMessageFromDecrypted (historicalChannelMessage row channel.keyHex result
        (historicalScope crypto knownRegions row) now)
      pure ()

/-- `_run_historical_channel_decryption`. -/
def runHistoricalChannelDecryption (crypto : Crypto) (channel : HistoricalChannel) (now : Int)
    (batches : Nat) : Task Unit := do
  let settings ← await .getSettings
  forAllUndecrypted undecryptedPacketBatchSize
    (decryptChannelPacket crypto channel settings.knownRegions now) batches (-1)

/-- The first of several channel keys that decrypts a packet. -/
def firstDecryption (crypto : Crypto) (channels : List HistoricalChannel) (rawBytes : Bytes) :
    Option (HistoricalChannel × DecryptedGroupText) :=
  channels.findSome? fun channel =>
    (tryDecryptPacketWithChannelKey crypto rawBytes channel.keyBytes).map fun result =>
      (channel, result)

/-- The body of the scan with several channel keys: it passes on no transport code and no
region. -/
def decryptChannelsPacket (crypto : Crypto) (channels : List HistoricalChannel) (now : Int)
    (row : RawPacketRow) : Task Unit :=
  match firstDecryption crypto channels row.data with
  | none => pure ()
  | some (channel, result) => do
      let _ ← createMessageFromDecrypted
        (historicalChannelMessage row channel.keyHex result (none, none) now)
      pure ()

/-- `_run_historical_channel_decryption_for_channels`. -/
def runHistoricalChannelDecryptionForChannels (crypto : Crypto)
    (channels : List HistoricalChannel) (now : Int) (batches : Nat) : Task Unit :=
  forAllUndecrypted undecryptedPacketBatchSize (decryptChannelsPacket crypto channels now)
    batches (-1)

/-- The direction that a historical scan gives a direct message: only an unambiguous packet
of ours is outgoing. -/
def historicalOutgoing (ourPublicKey : Bytes) (result : DecryptedDirectMessage) : Bool :=
  lower result.srcHash = hexOfBytes [ourPublicKey.getD 0 0] ∧
    lower result.destHash ≠ hexOfBytes [ourPublicKey.getD 0 0]

/-- The arguments that a stored packet gives to `create_dm_message_from_decrypted`. -/
def historicalIngest (row : RawPacketRow) (contactPublicKeyHex : Text)
    (result : DecryptedDirectMessage) (outgoing : Bool) (now : Int) : DecryptedIngest where
  packetId := row.id
  decrypted := result
  theirPublicKey := contactPublicKeyHex
  receivedAt := some row.timestamp
  path := pathHex (parsePacket row.data)
  pathLen := pathLength (parsePacket row.data)
  outgoing := outgoing
  now := now

/-- The body of the scan for direct messages of one contact. -/
def decryptDmPacket (crypto : Crypto) (privateKey contactPublicKey : Bytes)
    (contactPublicKeyHex : Text) (now : Int) (row : RawPacketRow) : Task Unit :=
  match tryDecryptDm crypto row.data privateKey contactPublicKey none with
  | none => pure ()
  | some result => do
      let outgoing := historicalOutgoing (crypto.derivePublicKey privateKey) result
      let _ ← ingestDecryptedDirectMessage
        (historicalIngest row contactPublicKeyHex result outgoing now)
      pure ()

/-- `run_historical_dm_decryption`: the scan is filtered to text messages. -/
def runHistoricalDmDecryption (crypto : Crypto) (privateKey contactPublicKey : Bytes)
    (contactPublicKeyHex : Text) (now : Int) (batches : Nat) : Task Unit :=
  forAllUndecrypted undecryptedPacketBatchSize
    (fun row =>
      if getPacketPayloadType row.data = some .textMessage then
        decryptDmPacket crypto privateKey contactPublicKey contactPublicKeyHex now row
      else pure ())
    batches (-1)

end RemoteTerm
