import RemoteTerm.Packets.ChannelObservations
import RemoteTerm.Packets.Historical

/-!
# The pipelines of a channel packet

A channel packet creates its message on live arrival, in a scan with one channel
key, or in a scan with several. The three rows carry the same message, heard
over the same path; the transport code and the region are missing from the row
that the scan with several keys creates.
-/

namespace RemoteTerm

open Library MessageRepository

/-- What a stored channel message says: its content, its path, and the scope it was sent in. -/
structure ChannelRecord where
  conversationKey : Text
  text : Text
  senderName : Option Text
  senderTimestamp : Option Int
  paths : List (Text × Option Int)
  transportCode : Option Nat
  region : Option Text
  deriving DecidableEq

/-- The record of a row; of a path only the route and its length. -/
def MessageRow.channelRecord (r : MessageRow) : ChannelRecord where
  conversationKey := r.conversationKey
  text := r.text
  senderName := r.senderName
  senderTimestamp := r.senderTimestamp
  paths := (r.paths.getD []).map fun p => (p.path, p.pathLen)
  transportCode := r.transportCode
  region := r.region

/-- A run of a task that creates one message. -/
def Creates (sha256 : Bytes → Bytes) (task : Task Unit) (s : App) (row : MessageRow) : Prop :=
  ∃ s', Program.Eval (process sha256) task s () s' ∧
    s'.messages.rows = s.messages.rows ++ [row]

/-- The record of the message that `create_message_from_decrypted` stores. -/
def DecryptedChannelMessage.record (d : DecryptedChannelMessage) : ChannelRecord where
  conversationKey := upper d.channelKey
  text := channelText d.sender d.messageText
  senderName := d.sender
  senderTimestamp := some d.timestamp
  paths := (d.path.map fun p => (p, d.pathLen)).toList
  transportCode := d.transportCode
  region := d.region

section Create

variable {sha256 : Bytes → Bytes} {d : DecryptedChannelMessage} {s s' : App} {row : MessageRow}

theorem toRow_channelRecord (senderKey : Option Text) (id : Nat) :
    ((d.newMessage senderKey).toRow id).channelRecord = d.record := by
  simp only [MessageRow.channelRecord, NewMessage.toRow, NewMessage.paths,
    DecryptedChannelMessage.newMessage, DecryptedChannelMessage.observation,
    DecryptedChannelMessage.record]
  cases d.path <;> rfl

/-- A run that creates a message stores the record of its arguments. -/
theorem createMessageFromDecrypted_record {x : Option Nat}
    (h : Program.Eval (process sha256) (createMessageFromDecrypted d) s x s')
    (hrow : s'.messages.rows = s.messages.rows ++ [row]) : row.channelRecord = d.record := by
  simp only [createMessageFromDecrypted, storeChannelMessage, Program.eval_bind_iff] at h
  obtain ⟨senderKey, t, hsender, msgId, u, hcreate, h⟩ := h
  obtain rfl := resolveSenderKey_eval hsender
  simp only [Program.await, Program.eval_call_iff, process_createMessage, Program.eval_pure_iff]
    at hcreate
  obtain ⟨_, _, ⟨rfl, rfl⟩, rfl, rfl⟩ := hcreate
  cases hc : (create t.messages (d.newMessage senderKey)).1 with
  | none =>
      -- a duplicate is reconciled into a stored row, and the table does not grow
      exfalso
      simp only [hc, create_of_none hc, Program.eval_bind_iff, handleDuplicateMessage,
        Program.await_bind, Program.eval_call_iff, process_getByContent] at h
      obtain ⟨_, v, ⟨existing, _, ⟨rfl, rfl⟩, hrec⟩, h⟩ := h
      simp only [Program.pure_eq, Program.eval_pure_iff] at h
      obtain ⟨-, rfl⟩ := h
      have hlen : s'.messages.rows.length = t.messages.rows.length := by
        split at hrec
        · obtain ⟨-, rfl⟩ := Program.eval_pure_iff.mp hrec
          rfl
        · obtain rfl := reconcileDuplicateMessage_eval.mp hrec
          exact reconciledMessages_length _ _ _
      simp [hrow] at hlen
  | some id =>
      obtain ⟨rfl, hrows, -⟩ := create_of_some hc
      simp only [hc, Program.eval_bind_iff, markDecrypted_eval, Program.pure_eq,
        Program.eval_pure_iff] at h
      obtain ⟨-, v, rfl, -, rfl⟩ := h
      have hlast : t.messages.rows ++ [row] =
          t.messages.rows ++ [(d.newMessage senderKey).toRow t.messages.nextId] :=
        hrow.symm.trans hrows
      obtain rfl := List.singleton_injective (List.append_cancel_left hlast)
      exact toRow_channelRecord senderKey _

end Create

section Agreement

variable {env : Pipeline} {s : App} {row : MessageRow} {channel : Channel}
  {decrypted : DecryptedGroupText}

/-- The record that live arrival creates. -/
theorem processRawPacket_record {r : Reception}
    (hdec : decryptingChannel env.crypto s.channels r.rawBytes = some (channel, decrypted))
    (h : Creates env.crypto.sha256 (processRawPacket env r) s row) :
    ∃ info packetId, parsePacket r.rawBytes = some info ∧ row.channelRecord =
      (liveChannelMessage r packetId (some info)
        (packetScope env.crypto s.settings.knownRegions info) channel decrypted).record := by
  obtain ⟨s', heval, hrow⟩ := h
  obtain ⟨info, created, t, x, hinfo, -, hx⟩ := (processRawPacket_groupText hdec).mp heval
  have hbefore : s'.messages.rows = ({ s with rawPackets := t } : App).messages.rows ++ [row] :=
    hrow
  exact ⟨info, created.1, hinfo, createMessageFromDecrypted_record hx hbefore⟩

/-- The record that the scan with one key creates. -/
theorem decryptChannelPacket_record {sha256 : Bytes → Bytes} {crypto : Crypto}
    {c : HistoricalChannel} {knownRegions : List Text} {now : Int} {p : RawPacketRow}
    (hdec : tryDecryptPacketWithChannelKey crypto p.data c.keyBytes = some decrypted)
    (h : Creates sha256 (decryptChannelPacket crypto c knownRegions now p) s row) :
    row.channelRecord = (historicalChannelMessage p c.keyHex decrypted
      (historicalScope crypto knownRegions p) now).record := by
  obtain ⟨s', heval, hrow⟩ := h
  simp only [decryptChannelPacket, hdec, Program.eval_bind_iff] at heval
  obtain ⟨x, t, hx, hrest⟩ := heval
  obtain ⟨-, rfl⟩ := Program.eval_pure_iff.mp hrest
  exact createMessageFromDecrypted_record hx hrow

/-- The record that the scan with several keys creates. -/
theorem decryptChannelsPacket_record {sha256 : Bytes → Bytes} {crypto : Crypto}
    {channels : List HistoricalChannel} {c : HistoricalChannel} {now : Int} {p : RawPacketRow}
    (hdec : firstDecryption crypto channels p.data = some (c, decrypted))
    (h : Creates sha256 (decryptChannelsPacket crypto channels now p) s row) :
    row.channelRecord =
      (historicalChannelMessage p c.keyHex decrypted (none, none) now).record := by
  obtain ⟨s', heval, hrow⟩ := h
  simp only [decryptChannelsPacket, hdec, Program.eval_bind_iff] at heval
  obtain ⟨x, t, hx, hrest⟩ := heval
  obtain ⟨-, rfl⟩ := Program.eval_pure_iff.mp hrest
  exact createMessageFromDecrypted_record hx hrow

/-- The live pipeline decrypts with the key of the channel it finds. -/
theorem decryptingChannel_key {crypto : Crypto} {channels : List Channel} {rawBytes key : Bytes}
    (h : decryptingChannel crypto channels rawBytes = some (channel, decrypted))
    (hkey : bytesOfHex channel.key = some key) :
    tryDecryptPacketWithChannelKey crypto rawBytes key = some decrypted := by
  obtain ⟨c, -, hc⟩ := List.exists_of_findSome?_eq_some h
  simp only [Option.bind_eq_bind, Option.bind_eq_some_iff, Option.pure_def, Option.some.injEq,
    Prod.mk.injEq] at hc
  obtain ⟨key', hkey', d, hd, rfl, rfl⟩ := hc
  obtain rfl := Option.some.inj (hkey.symm.trans hkey')
  exact hd

theorem firstDecryption_key {crypto : Crypto} {channels : List HistoricalChannel}
    {rawBytes : Bytes} {c : HistoricalChannel}
    (h : firstDecryption crypto channels rawBytes = some (c, decrypted)) :
    tryDecryptPacketWithChannelKey crypto rawBytes c.keyBytes = some decrypted := by
  obtain ⟨c', -, hc⟩ := List.exists_of_findSome?_eq_some h
  simp only [Option.map_eq_some_iff, Prod.mk.injEq] at hc
  obtain ⟨d, hd, rfl, rfl⟩ := hc
  exact hd

/-- The scope that a live packet stores is empty exactly when it carries no codes. -/
theorem packetScope_eq_none_iff {crypto : Crypto} {knownRegions : List Text} {info : PacketInfo} :
    packetScope crypto knownRegions info = (none, none) ↔ info.transportCodes = none := by
  unfold packetScope
  cases info.transportCodes <;> simp

/-- The three pipelines of a packet that a stored channel decrypts create one record exactly
when the packet carries no transport codes. -/
theorem channel_records_agree_iff {r : Reception} {p : RawPacketRow} {key : Bytes}
    {single multiple : HistoricalChannel} {channels : List HistoricalChannel}
    {knownRegions : List Text} {now₁ now₂ : Int} {s₁ s₂ : App} {live one many : MessageRow}
    (hdata : p.data = r.rawBytes) (hregions : s.settings.knownRegions = knownRegions)
    (hdec : decryptingChannel env.crypto s.channels r.rawBytes = some (channel, decrypted))
    (hkey : bytesOfHex channel.key = some key)
    (hsingle : single.keyBytes = key ∧ upper single.keyHex = upper channel.key)
    (hmultiple : (firstDecryption env.crypto channels r.rawBytes).map Prod.fst = some multiple)
    (hsame : multiple.keyBytes = key ∧ upper multiple.keyHex = upper channel.key)
    (hlive : Creates env.crypto.sha256 (processRawPacket env r) s live)
    (hone : Creates env.crypto.sha256
      (decryptChannelPacket env.crypto single knownRegions now₁ p) s₁ one)
    (hmany : Creates env.crypto.sha256 (decryptChannelsPacket env.crypto channels now₂ p) s₂ many) :
    (live.channelRecord = one.channelRecord ∧ live.channelRecord = many.channelRecord) ↔
      ∀ info ∈ parsePacket r.rawBytes, info.transportCodes = none := by
  have hdecrypts := decryptingChannel_key hdec hkey
  obtain ⟨⟨multiple', decrypted'⟩, hfirst, rfl⟩ := Option.map_eq_some_iff.mp hmultiple
  have hdecrypted : decrypted' = decrypted := by
    have htry := firstDecryption_key hfirst
    rw [hsame.1, hdecrypts] at htry
    exact (Option.some.inj htry).symm
  subst hdecrypted
  obtain ⟨info, packetId, hinfo, hliveRecord⟩ := processRawPacket_record hdec hlive
  have honeRecord := decryptChannelPacket_record (by rw [hdata, hsingle.1, hdecrypts]) hone
  have hmanyRecord := decryptChannelsPacket_record (by rw [hdata, hfirst]) hmany
  -- the scan with one key passes on everything that the live pipeline does
  have hone_eq : live.channelRecord = one.channelRecord := by
    rw [hliveRecord, honeRecord]
    simp only [DecryptedChannelMessage.record, liveChannelMessage, historicalChannelMessage,
      historicalScope, hdata, hinfo, hsingle.2, hregions]
  -- the scan with several keys differs in the scope alone
  have hmany_iff : live.channelRecord = many.channelRecord ↔
      packetScope env.crypto knownRegions info = (none, none) := by
    rw [hliveRecord, hmanyRecord]
    simp only [DecryptedChannelMessage.record, liveChannelMessage, historicalChannelMessage, hdata,
      hinfo, hsame.2, hregions, ChannelRecord.mk.injEq, true_and]
    rw [Prod.ext_iff]
  simp only [hone_eq, true_and, hinfo, Option.mem_some_iff, forall_eq']
  exact (hone_eq ▸ hmany_iff).trans packetScope_eq_none_iff

end Agreement

section Sample

/-- The sample packet on a scoped route, with the codes of its region. -/
def scopedReception : Reception where
  rawBytes := [0x14, 0x8a, 0xb0, 0x00, 0x00, 0x01, 0xaa] ++ samplePayload
  now := 1700000001

def sampleHistoricalChannel : HistoricalChannel := ⟨sampleKey, sampleChannel.key⟩

/-- A process that knows the region, before or after a packet is stored. -/
def scopedApp : App := { sampleApp with settings := { knownRegions := [sampleRegion] } }

/-- The sample packet as it stands in the table. -/
def storedPacket (r : Reception) : RawPacketRow :=
  RawPacketRepository.newRow sampleCrypto.sha256 r.rawBytes r.receivedAt 1

/-- The scans of the sample packet with one channel key and with several. -/
def scanOne (r : Reception) : Task Unit :=
  decryptChannelPacket sampleCrypto sampleHistoricalChannel [sampleRegion] 0 (storedPacket r)

def scanSeveral (r : Reception) : Task Unit :=
  decryptChannelsPacket sampleCrypto [sampleHistoricalChannel] 0 (storedPacket r)

/-- Run a task alone in the sample process and take the records of the rows it adds. -/
def recordsCreatedBy (task : Task Unit) : Option (List ChannelRecord) :=
  (task.run (perform sampleCrypto.sha256 default) scopedApp).map fun r =>
    r.2.messages.rows.map MessageRow.channelRecord

theorem creates_of_records (task : Task Unit) (record : ChannelRecord)
    (h : recordsCreatedBy task = some [record]) :
    ∃ row, Creates sampleCrypto.sha256 task scopedApp row ∧ row.channelRecord = record := by
  obtain ⟨⟨_, s'⟩, hrun, hrows⟩ := Option.map_eq_some_iff.mp h
  obtain ⟨row, hrow, hrecord⟩ := List.map_eq_singleton_iff.mp hrows
  have heval : Program.Eval (process sampleCrypto.sha256) task scopedApp _ s' :=
    Program.run_eval (fun _ _ _ _ hact => ⟨default, hact⟩) hrun
  exact ⟨row, ⟨s', heval, hrow⟩, hrecord⟩

/-- The record of the sample message, heard over one hop. -/
def sampleRecord (transportCode : Option Nat) (region : Option Text) : ChannelRecord where
  conversationKey := sampleChannel.key
  text := "Al: hi".toList
  senderName := some "Al".toList
  senderTimestamp := some 1700000000
  paths := [("aa".toList, some 1)]
  transportCode := transportCode
  region := region

/-- The three records of a packet without codes are one. -/
theorem channel_records_agree_flood :
    ∃ live one many : MessageRow,
      Creates sampleCrypto.sha256 (processRawPacket samplePipeline (sampleReception 0xaa)) scopedApp
        live ∧
      Creates sampleCrypto.sha256 (scanOne (sampleReception 0xaa)) scopedApp one ∧
      Creates sampleCrypto.sha256 (scanSeveral (sampleReception 0xaa)) scopedApp many ∧
      live.channelRecord = one.channelRecord ∧ live.channelRecord = many.channelRecord := by
  obtain ⟨live, hlive, -⟩ := creates_of_records
    (processRawPacket samplePipeline (sampleReception 0xaa)) (sampleRecord none none)
    (by decide +kernel)
  obtain ⟨one, hone, -⟩ := creates_of_records (scanOne (sampleReception 0xaa))
    (sampleRecord none none) (by decide +kernel)
  obtain ⟨many, hmany, -⟩ := creates_of_records (scanSeveral (sampleReception 0xaa))
    (sampleRecord none none) (by decide +kernel)
  have hdec : decryptingChannel samplePipeline.crypto scopedApp.channels
      (sampleReception 0xaa).rawBytes =
        some (sampleChannel, ⟨1700000000, 0, some "Al".toList, "hi".toList, "11".toList⟩) := by
    decide +kernel
  refine ⟨live, one, many, hlive, hone, hmany, ?_⟩
  have hkey : bytesOfHex sampleChannel.key = some sampleKey := by decide +kernel
  have hmultiple : (firstDecryption samplePipeline.crypto [sampleHistoricalChannel]
      (sampleReception 0xaa).rawBytes).map Prod.fst = some sampleHistoricalChannel := by
    decide +kernel
  exact (channel_records_agree_iff rfl rfl hdec hkey ⟨rfl, rfl⟩ hmultiple ⟨rfl, rfl⟩
    hlive hone hmany).mpr (by decide +kernel)

/-- A scoped packet loses its transport code and its region in the scan with several keys. -/
theorem scoped_record_differs :
    ∃ live one many : MessageRow,
      Creates sampleCrypto.sha256 (processRawPacket samplePipeline scopedReception) scopedApp live ∧
      Creates sampleCrypto.sha256 (scanOne scopedReception) scopedApp one ∧
      Creates sampleCrypto.sha256 (scanSeveral scopedReception) scopedApp many ∧
      live.channelRecord = one.channelRecord ∧ live.channelRecord ≠ many.channelRecord := by
  obtain ⟨live, hlive, hliveRecord⟩ := creates_of_records
    (processRawPacket samplePipeline scopedReception) (sampleRecord (some 45194) (some sampleRegion))
    (by decide +kernel)
  obtain ⟨one, hone, honeRecord⟩ := creates_of_records (scanOne scopedReception)
    (sampleRecord (some 45194) (some sampleRegion)) (by decide +kernel)
  obtain ⟨many, hmany, hmanyRecord⟩ := creates_of_records (scanSeveral scopedReception)
    (sampleRecord none none) (by decide +kernel)
  refine ⟨live, one, many, hlive, hone, hmany, hliveRecord.trans honeRecord.symm, ?_⟩
  rw [hliveRecord, hmanyRecord]
  simp [sampleRecord]

end Sample

end RemoteTerm
