import RemoteTerm.Frontend.PathFraming
import RemoteTerm.Library.JsNumber

/-!
# The packet decoder of the browser

The vendored `MeshCorePacketDecoder` cuts packets for the packet feed and the inspector. It
accepts what the server accepts, and also a packet without a payload and a path that is too
long for the firmware. On a packet of both the fields are the same, the segments of the
inspector cover the packet without gap or overlap, and the message hash does not depend on
the route.

## Implementation notes

The payload decoders are a parameter; each of them catches what it throws. The texts of the
segments, beside their names and values, are left out. Hexadecimal texts are ASCII.
-/

namespace RemoteTerm

open Library

namespace Frontend

/-- A segment of a packet, by the bytes that it covers. -/
structure PacketSegment where
  name : String
  startByte : Nat
  endByte : Nat
  value : Text

/-- `DecodedPacket`. -/
structure DecodedPacket (δ : Type) where
  messageHash : Text
  routeType : Nat
  payloadType : Nat
  payloadVersion : Nat
  transportCodes : Option (Nat × Nat) := none
  pathLength : Nat
  pathHashSize : Option Nat := none
  path : Option (List Text)
  payloadRaw : Text
  decoded : Option δ
  totalBytes : Nat
  isValid : Bool
  errors : List String := []

/-- `PacketStructure`. -/
structure PacketStructure where
  segments : List PacketSegment
  totalBytes : Nat
  rawHex : Text
  messageHash : Text
  payloadSegments : List PacketSegment
  payloadHex : Text
  payloadStartByte : Nat
  payloadTypeName : String

/-- What the decoder of a payload type makes of a payload and a path, and its segments. -/
abbrev PayloadDecoders (δ : Type) :=
  Nat → Bytes → Option (List Text) → Option δ × List PacketSegment

namespace PacketDecoder

open JsNumber

variable {δ : Type}

/-! ### Hexadecimal text -/

/-- `bytesToHex`. -/
abbrev bytesToHex (bytes : Bytes) : Text := packetText bytes

/-- The loop of `hexToBytes`. -/
def hexPairs : Text → Bytes
  | c :: d :: rest => UInt8.ofNat (parseHexInt [c, d]) :: hexPairs rest
  | _ => []

/-- `/[0-9A-F]/`. -/
def isUpperHexDigit (c : Char) : Bool :=
  48 ≤ c.toNat ∧ c.toNat ≤ 57 ∨ 65 ≤ c.toNat ∧ c.toNat ≤ 70

/-- `hexToBytes`. -/
def hexToBytes (hex : Text) : Except String Bytes :=
  let cleanHex := upper (hex.filter fun c => !isSpace c)
  if ¬ cleanHex.all isUpperHexDigit then
    .error "Invalid hex string: invalid characters at position 0"
  else if cleanHex.length % 2 ≠ 0 then .error "Invalid hex string: odd length"
  else .ok (hexPairs cleanHex)

/-- `num.toString(16).padStart(padLength, '0')`. -/
def toHexPadded (num : Int) (padLength : Nat) : Text :=
  List.leftpad padLength '0'
    (if num < 0 then '-' :: Nat.toDigits 16 num.natAbs else Nat.toDigits 16 num.natAbs)

/-- `numberToHex`. -/
def numberToHex (num : Int) (padLength : Nat) : Text := upper (toHexPadded (ushr num 0) padLength)

/-! ### The frame -/

/-- `bytes[i]`. -/
def byteAt (bytes : Bytes) (i : Nat) : Nat := (bytes.getD i 0).toNat

/-- `bytes[i] | bytes[i + 1] << 8 | bytes[i + 2] << 16 | bytes[i + 3] << 24`. -/
def int32At (bytes : Bytes) (i : Nat) : Int :=
  (toInt32 (byteAt bytes i) ||| toInt32 (byteAt bytes (i + 1)) <<< 8 |||
    toInt32 (byteAt bytes (i + 2)) <<< 16 ||| toInt32 (byteAt bytes (i + 3)) <<< 24).toInt

/-- `RouteType.TransportFlood` or `RouteType.TransportDirect`. -/
def isTransport (routeType : Nat) : Bool := routeType = 0 ∨ routeType = 3

/-- `PayloadType.Trace`. -/
def traceType : Nat := 9

/-- `getPayloadTypeName`. -/
def getPayloadTypeName (payloadType : Nat) : String :=
  match payloadType with
  | 0 => "Request"
  | 1 => "Response"
  | 2 => "TextMessage"
  | 3 => "Ack"
  | 4 => "Advert"
  | 5 => "GroupText"
  | 6 => "GroupData"
  | 7 => "AnonRequest"
  | 8 => "Path"
  | 9 => "Trace"
  | 10 => "Multipart"
  | 11 => "Control"
  | 15 => "RawCustom"
  | n => "Unknown (0x" ++ String.ofList (Nat.toDigits 16 n) ++ ")"

/-- `decodePathLenByte`: the hash size, the hop count and the length in bytes. -/
def decodePathLenByte (pathLenByte : Nat) : Nat × Nat × Nat :=
  let hashSize := (pathLenByte >>> 6) + 1
  let hopCount := pathLenByte &&& 63
  (hashSize, hopCount, hopCount * hashSize)

/-- Where the path length byte stands. -/
def pathLenOffset (routeType : Nat) : Nat := if isTransport routeType then 1 + 4 else 1

/-- What the checks of `parseInternal` leave of a packet. -/
structure PacketFrame where
  header : Nat
  hashSize : Nat
  hopCount : Nat
  byteLength : Nat
  deriving DecidableEq

namespace PacketFrame

def routeType (f : PacketFrame) : Nat := f.header &&& 0x03

def payloadType (f : PacketFrame) : Nat := (f.header >>> 2) &&& 0x0F

def payloadVersion (f : PacketFrame) : Nat := (f.header >>> 6) &&& 0x03

def pathOffset (f : PacketFrame) : Nat := pathLenOffset f.routeType + 1

def payloadOffset (f : PacketFrame) : Nat := f.pathOffset + f.byteLength

end PacketFrame

/-- The checks of `parseInternal`. -/
def parseFrame (bytes : Bytes) : Except String PacketFrame :=
  let header := byteAt bytes 0
  let routeType := header &&& 0x03
  let offset := pathLenOffset routeType
  if isTransport routeType ∧ bytes.length < 1 + 4 then
    .error "Packet too short for transport codes"
  else if bytes.length < offset + 1 then .error "Packet too short for path length"
  else
    let (hashSize, hopCount, byteLength) := decodePathLenByte (byteAt bytes offset)
    if hashSize = 4 then
      .error "Invalid path length byte: reserved hash size (bits 7:6 = 11)"
    else if bytes.length < offset + 1 + byteLength then .error "Packet too short for path data"
    else .ok ⟨header, hashSize, hopCount, byteLength⟩

/-- The transport codes of a frame. -/
def transportCodes (bytes : Bytes) (f : PacketFrame) : Option (Nat × Nat) :=
  if isTransport f.routeType then
    some (byteAt bytes 1 ||| byteAt bytes 2 <<< 8, byteAt bytes 3 ||| byteAt bytes 4 <<< 8)
  else none

/-- The bytes of the path. -/
def pathBytes (bytes : Bytes) (f : PacketFrame) : Bytes :=
  (bytes.take (f.pathOffset + f.byteLength)).drop f.pathOffset

/-- The hops of the path. -/
def pathHops (bytes : Bytes) (f : PacketFrame) : Option (List Text) :=
  if f.hopCount > 0 then
    some ((List.range f.hopCount).map fun i =>
      bytesToHex (((pathBytes bytes f).take ((i + 1) * f.hashSize)).drop (i * f.hashSize)))
  else none

/-- One round of the hash loop. -/
def hashByte (hash : Int) (byte : Nat) : Int := bitAnd (shl hash 5 - hash + byte) 0xffffffff

/-- `calculateMessageHash`. -/
def calculateMessageHash (bytes : Bytes) (routeType payloadType payloadVersion : Nat) : Text :=
  let start := pathLenOffset routeType
  let offset :=
    if bytes.length > start then start + (1 + (decodePathLenByte (byteAt bytes start)).2.2)
    else start
  if payloadType = traceType ∧ bytes.length ≥ 13 ∧ bytes.length ≥ offset + 4 then
    numberToHex (int32At bytes offset) 8
  else
    let constantHeader := (payloadType <<< 2) ||| (payloadVersion <<< 6)
    let hashInput := constantHeader :: (bytes.drop offset).map UInt8.toNat
    numberToHex (hashInput.foldl hashByte 0) 8

/-- The segments of the structure. -/
def frameSegments (bytes : Bytes) (f : PacketFrame) : List PacketSegment :=
  [⟨"Header", 0, 0, '0' :: 'x' :: toHexPadded f.header 2⟩] ++
  (if isTransport f.routeType then
    [⟨"Transport Code", 1, 1 + 3, '0' :: 'x' :: toHexPadded (int32At bytes 1) 8⟩] else []) ++
  [⟨"Path Length", pathLenOffset f.routeType, pathLenOffset f.routeType,
    '0' :: 'x' :: toHexPadded (byteAt bytes (pathLenOffset f.routeType)) 2⟩] ++
  (if f.hopCount > 0 then
    [⟨if f.payloadType = traceType then "Path SNR Data" else "Path Data", f.pathOffset,
      f.pathOffset + f.byteLength - 1, bytesToHex (pathBytes bytes f)⟩] else []) ++
  (if bytes.length > f.payloadOffset then
    [⟨"Payload", f.payloadOffset, bytes.length - 1, bytesToHex (bytes.drop f.payloadOffset)⟩]
    else [])

/-- The packet and the structure of bytes that are no packet. -/
def failed (bytes : Bytes) (hexData : Text) (error : String) :
    DecodedPacket δ × PacketStructure where
  fst :=
    { messageHash := []
      routeType := 1
      payloadType := 15
      payloadVersion := 0
      pathLength := 0
      path := none
      payloadRaw := []
      decoded := none
      totalBytes := bytes.length
      isValid := false
      errors := [error] }
  snd :=
    { segments := []
      totalBytes := bytes.length
      rawHex := upper hexData
      messageHash := []
      payloadSegments := []
      payloadHex := []
      payloadStartByte := 0
      payloadTypeName := "Unknown" }

/-- `parseInternal` on bytes. -/
def parseBytes (decoders : PayloadDecoders δ) (bytes : Bytes) (hexData : Text)
    (includeStructure : Bool) : DecodedPacket δ × PacketStructure :=
  if bytes.length < 2 then failed bytes hexData "Packet too short (minimum 2 bytes required)"
  else
    match parseFrame bytes with
    | .error error => failed bytes hexData error
    | .ok f =>
        let path := pathHops bytes f
        let payload := bytes.drop f.payloadOffset
        let (decoded, segments) := decoders f.payloadType payload path
        let payloadSegments :=
          if includeStructure ∧ segments = [] ∧ bytes.length > f.payloadOffset then
            [⟨getPayloadTypeName f.payloadType ++ " Payload", 0, payload.length - 1,
              bytesToHex payload⟩]
          else if includeStructure then segments else []
        let messageHash :=
          calculateMessageHash bytes f.routeType f.payloadType f.payloadVersion
        ({ messageHash := messageHash
           routeType := f.routeType
           payloadType := f.payloadType
           payloadVersion := f.payloadVersion
           transportCodes := transportCodes bytes f
           pathLength := f.hopCount
           pathHashSize := if f.hashSize > 1 then some f.hashSize else none
           path := path
           payloadRaw := bytesToHex payload
           decoded := decoded
           totalBytes := bytes.length
           isValid := true },
         { segments := if includeStructure then frameSegments bytes f else []
           totalBytes := bytes.length
           rawHex := upper hexData
           messageHash := messageHash
           payloadSegments := payloadSegments
           payloadHex := bytesToHex payload
           payloadStartByte := f.payloadOffset
           payloadTypeName := getPayloadTypeName f.payloadType })

/-- `parseInternal`. -/
def parseInternal (decoders : PayloadDecoders δ) (hexData : Text) (includeStructure : Bool) :
    Except String (DecodedPacket δ × PacketStructure) :=
  (hexToBytes hexData).map fun bytes => parseBytes decoders bytes hexData includeStructure

/-- `decode`. -/
def decode (decoders : PayloadDecoders δ) (hexData : Text) : Except String (DecodedPacket δ) :=
  (parseInternal decoders hexData false).map Prod.fst

/-- `analyzeStructure`. -/
def analyzeStructure (decoders : PayloadDecoders δ) (hexData : Text) :
    Except String PacketStructure :=
  (parseInternal decoders hexData true).map Prod.snd

/-- The errors of `validate` on bytes. -/
def validateBytes (bytes : Bytes) : List String :=
  if bytes.length < 2 then ["Packet too short (minimum 2 bytes required)"]
  else
    let routeType := byteAt bytes 0 &&& 0x03
    let offset := pathLenOffset routeType
    (if isTransport routeType ∧ bytes.length < 1 + 4 then
      ["Packet too short for transport codes"] else []) ++
    if bytes.length < offset + 1 then
      "Packet too short for path length" ::
        if offset ≥ bytes.length then ["No payload data found"] else []
    else
      let (hashSize, _, byteLength) := decodePathLenByte (byteAt bytes offset)
      (if hashSize = 4 then
        ["Invalid path length byte: reserved hash size (bits 7:6 = 11)"] else []) ++
      (if bytes.length < offset + 1 + byteLength then ["Packet too short for path data"]
        else []) ++
      if offset + 1 + byteLength ≥ bytes.length then ["No payload data found"] else []

/-- `validate`. -/
def validate (hexData : Text) : Except String (List String) :=
  (hexToBytes hexData).map validateBytes

/-! ### The frames of packets -/

end PacketDecoder

end Frontend

/-- The grammar of the browser: the path may be long, and the payload may be empty. -/
structure PacketFields.Framed (p : PacketFields) : Prop where
  transport : p.transport.length = if p.routeType = 0 ∨ p.routeType = 3 then 4 else 0
  notReserved : p.hashSize ≠ 4
  path : p.path.length = p.hops * p.hashSize

/-- The grammar of the server asks for more. -/
theorem PacketFields.wellFormed_iff (p : PacketFields) :
    p.WellFormed ↔ p.Framed ∧ p.path.length ≤ maxPathSize ∧ p.payload ≠ [] := by
  constructor
  · rintro ⟨htransport, hreserved, hfits, hpath, hpayload⟩
    exact ⟨⟨htransport, hreserved, hpath⟩, hpath ▸ hfits, hpayload⟩
  · rintro ⟨⟨htransport, hreserved, hpath⟩, hfits, hpayload⟩
    exact ⟨htransport, hreserved, hpath ▸ hfits, hpath, hpayload⟩

namespace Frontend.PacketDecoder

variable {δ : Type} {p : PacketFields} {raw : Bytes} {f : PacketFrame}

/-- What the browser reads of a packet. -/
def frameOf (p : PacketFields) : PacketFrame where
  header := p.header.toNat
  hashSize := p.hashSize
  hopCount := p.hops
  byteLength := p.hops * p.hashSize

@[simp] theorem isTransport_iff (routeType : Nat) :
    isTransport routeType = true ↔ routeType = 0 ∨ routeType = 3 := by
  simp [isTransport]

theorem byteAt_append (xs ys : Bytes) (b : UInt8) {n : Nat} (hn : n = xs.length) :
    byteAt (xs ++ b :: ys) n = b.toNat := by
  subst hn
  simp [byteAt]

/-- The bytes of a packet around its path byte. -/
theorem bytes_around (p : PacketFields) :
    p.bytes = (p.header :: p.transport) ++ p.pathByte :: (p.path ++ p.payload) := rfl

theorem length_bytes (p : PacketFields) :
    p.bytes.length = p.transport.length + p.path.length + p.payload.length + 2 := by
  rw [bytes_around]
  simp only [List.length_append, List.length_cons]
  omega

theorem routeType_frameOf (p : PacketFields) : (frameOf p).routeType = p.routeType :=
  and_three _

theorem pathLenOffset_of_framed (hp : p.Framed) :
    pathLenOffset p.routeType = p.transport.length + 1 := by
  have hlen := hp.transport
  unfold pathLenOffset
  split_ifs at hlen ⊢ <;> simp_all

theorem decodePathLenByte_eq (b : UInt8) :
    decodePathLenByte b.toNat =
      (b.toNat / 64 + 1, b.toNat % 64, b.toNat % 64 * (b.toNat / 64 + 1)) := by
  unfold decodePathLenByte
  rw [shiftRight_six, show b.toNat &&& 63 = b.toNat % 64 from and_sixtyThree _]

theorem parseFrame_bytes (hp : p.Framed) : parseFrame p.bytes = .ok (frameOf p) := by
  have hoffset := pathLenOffset_of_framed hp
  have hheader : byteAt p.bytes 0 = p.header.toNat := rfl
  have hroute : p.header.toNat &&& 0x03 = p.routeType := and_three _
  have hpathByte : byteAt p.bytes (p.transport.length + 1) = p.pathByte.toNat :=
    byteAt_append _ _ _ rfl
  have hpath := hp.path
  have hlen := length_bytes p
  have htransport := hp.transport
  unfold parseFrame
  dsimp only
  rw [hheader, hroute, hoffset, hpathByte, decodePathLenByte_eq]
  dsimp only
  have hreserved : ¬ p.pathByte.toNat / 64 + 1 = 4 := hp.notReserved
  change p.path.length = p.pathByte.toNat % 64 * (p.pathByte.toNat / 64 + 1) at hpath
  rw [if_neg, if_neg (by omega), if_neg hreserved, if_neg (by omega)]
  · rfl
  · rintro ⟨hscoped, hshort⟩
    rw [if_pos ((isTransport_iff _).mp hscoped)] at htransport
    omega

/-- What passes the checks is a packet. -/
theorem framed_of_parseFrame (hlength : 2 ≤ raw.length) (h : parseFrame raw = .ok f) :
    ∃ p : PacketFields, p.Framed ∧ p.bytes = raw ∧ frameOf p = f := by
  obtain ⟨first, rest, rfl⟩ := List.exists_cons_of_ne_nil (l := raw) (by
    rintro rfl
    simp at hlength)
  have hheader : byteAt (first :: rest) 0 = first.toNat := rfl
  unfold parseFrame at h
  dsimp only at h
  rw [hheader, and_three] at h
  split at h
  next => cases h
  next hscoped =>
    split at h
    next => cases h
    next hlong =>
      have hoffset : pathLenOffset (first.toNat % 4) =
          (if first.toNat % 4 = 0 ∨ first.toNat % 4 = 3 then 4 else 0) + 1 := by
        unfold pathLenOffset
        split_ifs <;> simp_all
      generalize htransport : (if first.toNat % 4 = 0 ∨ first.toNat % 4 = 3 then 4 else 0) = k
        at hoffset
      rw [hoffset] at h hlong
      rw [List.length_cons] at hlong
      obtain ⟨pathByte, body, hbody⟩ := List.exists_cons_of_ne_nil (l := rest.drop k) (by
        rw [ne_eq, List.drop_eq_nil_iff]
        omega)
      have hrest : rest = rest.take k ++ pathByte :: body := by
        rw [← hbody, List.take_append_drop]
      have htake : (rest.take k).length = k := by
        rw [List.length_take]
        omega
      have hpathByte : byteAt (first :: rest) (k + 1) = pathByte.toNat := by
        rw [hrest]
        exact byteAt_append (first :: rest.take k) body pathByte (by simp [htake])
      rw [hpathByte, decodePathLenByte_eq] at h
      dsimp only at h
      split at h
      next => cases h
      next hreserved =>
        split at h
        next => cases h
        next hfits =>
          have hlen : rest.length = k + (body.length + 1) := by
            have heq := congrArg List.length hrest
            rwa [List.length_append, htake, List.length_cons] at heq
          rw [List.length_cons] at hfits
          refine ⟨⟨first, rest.take k, pathByte,
              body.take (pathByte.toNat % 64 * (pathByte.toNat / 64 + 1)),
              body.drop (pathByte.toNat % 64 * (pathByte.toNat / 64 + 1))⟩,
            ⟨htake.trans htransport.symm, hreserved, ?_⟩, ?_, Except.ok.inj h⟩
          · exact List.length_take_of_le (by omega)
          · rw [PacketFields.bytes, List.take_append_drop, ← hrest]

theorem pathOffset_frameOf (hp : p.Framed) :
    (frameOf p).pathOffset = p.transport.length + 2 := by
  rw [PacketFrame.pathOffset, routeType_frameOf, pathLenOffset_of_framed hp]

theorem payloadOffset_frameOf (hp : p.Framed) :
    (frameOf p).payloadOffset = p.transport.length + 2 + p.path.length := by
  rw [PacketFrame.payloadOffset, pathOffset_frameOf hp, hp.path]
  rfl

theorem bytes_behind (p : PacketFields) :
    p.bytes = (p.header :: (p.transport ++ [p.pathByte]) ++ p.path) ++ p.payload := by
  simp [PacketFields.bytes]

theorem drop_payloadOffset (hp : p.Framed) :
    p.bytes.drop (frameOf p).payloadOffset = p.payload := by
  rw [payloadOffset_frameOf hp, bytes_behind]
  refine List.drop_left' ?_
  simp only [List.length_append, List.length_cons, List.length_nil]

theorem pathBytes_frameOf (hp : p.Framed) : pathBytes p.bytes (frameOf p) = p.path := by
  have hend : (frameOf p).pathOffset + (frameOf p).byteLength =
      p.transport.length + 2 + p.path.length := payloadOffset_frameOf hp
  unfold pathBytes
  rw [hend, bytes_behind, List.take_left', pathOffset_frameOf hp, List.drop_left']
  · simp
  · simp only [List.length_append, List.length_cons, List.length_nil]

/-- Two bytes, the lower one first. -/
theorem or_shiftLeft_eight (lo hi : UInt8) :
    lo.toNat ||| hi.toNat <<< 8 = littleEndian [lo, hi] := by
  have hlo : lo.toNat < 2 ^ 8 := lo.toNat_lt
  rw [Nat.or_comm, ← Nat.shiftLeft_add_eq_or_of_lt hlo, Nat.shiftLeft_eq]
  simp only [littleEndian]
  omega

theorem transportCodes_frameOf (hp : p.Framed) :
    transportCodes p.bytes (frameOf p) = p.transportCodes := by
  have hlen := hp.transport
  unfold transportCodes PacketFields.transportCodes
  rw [routeType_frameOf]
  by_cases hscoped : p.routeType = 0 ∨ p.routeType = 3
  · rw [if_pos hscoped] at hlen
    rw [if_pos ((isTransport_iff _).mpr hscoped), if_pos hscoped]
    obtain ⟨a, b, c, d, habcd⟩ : ∃ a b c d, p.transport = [a, b, c, d] := by
      match htransport : p.transport, hlen with
      | [a, b, c, d], _ => exact ⟨a, b, c, d, rfl⟩
    have hfirst := or_shiftLeft_eight a b
    have hsecond := or_shiftLeft_eight c d
    rw [habcd, PacketFields.bytes, habcd]
    exact congrArg some (Prod.ext hfirst hsecond)
  · rw [if_neg fun h => hscoped ((isTransport_iff _).mp h), if_neg hscoped]

/-- Chunks of one size spell what they were cut from. -/
theorem flatten_chunks {l : Bytes} {count size : Nat} (h : l.length = count * size) :
    ((List.range count).map fun i => (l.take ((i + 1) * size)).drop (i * size)).flatten = l := by
  induction count generalizing l with
  | zero =>
      rw [Nat.zero_mul, List.length_eq_zero_iff] at h
      simp [h]
  | succ count ih =>
      have hrest : (l.drop size).length = count * size := by
        rw [List.length_drop, h, Nat.succ_mul, Nat.add_sub_cancel]
      have hchunks : ((List.range count).map fun i =>
          (l.take ((i + 1 + 1) * size)).drop ((i + 1) * size)) =
          (List.range count).map fun i =>
            ((l.drop size).take ((i + 1) * size)).drop (i * size) := by
        refine List.map_congr_left fun i _ => ?_
        have hwidth (j : Nat) : (j + 1) * size - j * size = size := by
          rw [Nat.succ_mul, Nat.add_sub_cancel_left]
        have hstart : (i + 1) * size = size + i * size := by rw [Nat.succ_mul, Nat.add_comm]
        rw [List.drop_take, List.drop_take, hwidth, hwidth, List.drop_drop, hstart]
      rw [List.range_succ_eq_map, List.map_cons, List.map_map, List.flatten_cons]
      simp only [Function.comp_def, Nat.succ_eq_add_one]
      rw [hchunks, ih hrest]
      simp

theorem flatten_map_packetText (chunks : List Bytes) :
    (chunks.map packetText).flatten = packetText chunks.flatten := by
  induction chunks with
  | nil => rfl
  | cons chunk chunks ih =>
      rw [List.map_cons, List.flatten_cons, ih, List.flatten_cons, packetText_append]

/-- The hops spell the path. -/
theorem flatten_pathHops (hp : p.Framed) :
    ((pathHops p.bytes (frameOf p)).getD []).flatten = packetText p.path := by
  unfold pathHops
  rw [pathBytes_frameOf hp]
  by_cases hhops : p.hops > 0
  · rw [if_pos (show (frameOf p).hopCount > 0 from hhops), Option.getD_some]
    have hflat := flatten_chunks hp.path
    rw [← hflat, ← flatten_map_packetText, List.map_map, hflat]
    rfl
  · rw [if_neg (show ¬ (frameOf p).hopCount > 0 from hhops)]
    have hnil : p.path = [] := by
      rw [← List.length_eq_zero_iff, hp.path, Nat.eq_zero_of_not_pos hhops, Nat.zero_mul]
    rw [hnil]
    rfl

/-! ### Reading the server's text -/

theorem hexPairs_packetText (bs : Bytes) : hexPairs (packetText bs) = bs := by
  induction bs with
  | nil => rfl
  | cons b bs ih =>
      have hcons : packetText (b :: bs) = upper (hexOfByte b) ++ packetText bs := by
        rw [← List.singleton_append, packetText_append, packetText, hexOfBytes_singleton]
      have hbyte := parseHexInt_hexOfByte b
      rw [hcons]
      change UInt8.ofNat (parseHexInt (upper (hexOfByte b))) :: hexPairs (packetText bs) = _
      rw [hbyte, ih, UInt8.ofNat_toNat]

theorem mem_hexOfBytes {c : Char} {bs : Bytes} (h : c ∈ hexOfBytes bs) :
    ∃ n < 16, c = hexDigit n := by
  obtain ⟨b, -, hb⟩ := List.mem_flatMap.mp h
  have hlt := b.toNat_lt
  rcases List.mem_cons.mp hb with rfl | hb
  · exact ⟨_, by omega, rfl⟩
  · exact ⟨_, by omega, List.mem_singleton.mp hb⟩

theorem hexToBytes_hexOfBytes (bs : Bytes) : hexToBytes (hexOfBytes bs) = .ok bs := by
  have hblank : (hexOfBytes bs).filter (fun c => !isSpace c) = hexOfBytes bs := by
    refine List.filter_eq_self.mpr fun c hc => ?_
    obtain ⟨n, hn, rfl⟩ := mem_hexOfBytes hc
    rw [isSpace_hexDigit hn]
    rfl
  have hdigits : (upper (hexOfBytes bs)).all isUpperHexDigit = true := by
    refine List.all_eq_true.mpr fun c hc => ?_
    obtain ⟨d, hd, rfl⟩ := List.mem_map.mp hc
    obtain ⟨n, hn, rfl⟩ := mem_hexOfBytes hd
    have hall : ∀ n < 16, isUpperHexDigit (upperChar (hexDigit n)) = true := by decide
    exact hall n hn
  have heven := packetText_length bs
  unfold hexToBytes
  dsimp only
  rw [hblank, if_neg (by simpa using hdigits), if_neg]
  · exact congrArg Except.ok (hexPairs_packetText bs)
  · change ¬ (packetText bs).length % 2 ≠ 0
    omega

/-! ### What is accepted -/

/-- What `parseInternal` returns of a packet. -/
theorem parseBytes_framed (decoders : PayloadDecoders δ) (hp : p.Framed) (hexData : Text)
    (includeStructure : Bool) :
    let packet := (parseBytes decoders p.bytes hexData includeStructure).1
    packet.isValid = true ∧ packet.routeType = p.routeType ∧
      packet.payloadType = p.header.toNat / 4 % 16 ∧
      packet.payloadVersion = p.header.toNat / 64 ∧
      packet.transportCodes = p.transportCodes ∧ packet.pathLength = p.hops ∧
      packet.pathHashSize.getD 1 = p.hashSize ∧
      (packet.path.getD []).flatten = packetText p.path ∧
      packet.payloadRaw = packetText p.payload ∧ packet.totalBytes = p.bytes.length := by
  have hlen := length_bytes p
  have hpayload := drop_payloadOffset hp
  unfold parseBytes
  rw [if_neg (by omega), parseFrame_bytes hp]
  dsimp only
  refine ⟨rfl, routeType_frameOf p, ?_, upperBits_of_lt p.header.toNat_lt,
    transportCodes_frameOf hp, rfl, ?_, flatten_pathHops hp, congrArg packetText hpayload, rfl⟩
  · change (p.header.toNat >>> 2) &&& 0x0F = _
    rw [and_fifteen, shiftRight_two]
  · have hpos : 1 ≤ p.hashSize := Nat.succ_pos _
    change Option.getD (if p.hashSize > 1 then some p.hashSize else none) 1 = _
    split_ifs
    · rfl
    · exact (le_antisymm (by omega) hpos).symm

theorem isValid_parseBytes_iff (decoders : PayloadDecoders δ) (hexData : Text)
    (includeStructure : Bool) :
    (parseBytes decoders raw hexData includeStructure).1.isValid = true ↔
      ∃ p : PacketFields, p.Framed ∧ p.bytes = raw := by
  constructor
  · intro h
    unfold parseBytes at h
    split at h
    next => cases h
    next hlong =>
      split at h
      next => cases h
      next f hf =>
        obtain ⟨p, hp, hbytes, -⟩ := framed_of_parseFrame (not_lt.mp hlong) hf
        exact ⟨p, hp, hbytes⟩
  · rintro ⟨p, hp, rfl⟩
    exact (parseBytes_framed decoders hp hexData includeStructure).1

/-- `validate` checks what `parseInternal` checks, and that a payload is there. -/
theorem validateBytes_eq_nil_iff :
    validateBytes raw = [] ↔
      2 ≤ raw.length ∧ ∃ f, parseFrame raw = .ok f ∧ f.payloadOffset < raw.length := by
  unfold validateBytes parseFrame
  dsimp only
  by_cases hshort : raw.length < 2
  · rw [if_pos hshort]
    exact iff_of_false (by simp) fun h => absurd h.1 (by omega)
  rw [if_neg hshort]
  by_cases hscoped : isTransport (byteAt raw 0 &&& 0x03) = true ∧ raw.length < 1 + 4
  · rw [if_pos hscoped, if_pos hscoped]
    exact iff_of_false (by simp) (by simp)
  rw [if_neg hscoped, if_neg hscoped, List.nil_append]
  by_cases hpath : raw.length < pathLenOffset (byteAt raw 0 &&& 0x03) + 1
  · rw [if_pos hpath, if_pos hpath]
    exact iff_of_false (by simp) (by simp)
  rw [if_neg hpath, if_neg hpath]
  generalize decodePathLenByte (byteAt raw (pathLenOffset (byteAt raw 0 &&& 0x03))) = decoded
  obtain ⟨hashSize, hopCount, byteLength⟩ := decoded
  dsimp only
  by_cases hreserved : hashSize = 4
  · rw [if_pos hreserved, if_pos hreserved]
    exact iff_of_false (by simp) (by simp)
  rw [if_neg hreserved, if_neg hreserved, List.nil_append]
  by_cases hfits : raw.length < pathLenOffset (byteAt raw 0 &&& 0x03) + 1 + byteLength
  · rw [if_pos hfits, if_pos hfits]
    exact iff_of_false (by simp) (by simp)
  rw [if_neg hfits, if_neg hfits, List.nil_append]
  by_cases hpayload : pathLenOffset (byteAt raw 0 &&& 0x03) + 1 + byteLength ≥ raw.length
  · rw [if_pos hpayload]
    refine iff_of_false (by simp) ?_
    rintro ⟨-, f, hf, hlt⟩
    obtain rfl := Except.ok.inj hf
    exact hlt.not_ge hpayload
  · rw [if_neg hpayload]
    exact iff_of_true rfl ⟨by omega, _, rfl, not_le.mp hpayload⟩

theorem validateBytes_eq_nil_iff_framed :
    validateBytes raw = [] ↔
      ∃ p : PacketFields, p.Framed ∧ p.bytes = raw ∧ p.payload ≠ [] := by
  rw [validateBytes_eq_nil_iff]
  constructor
  · rintro ⟨hlength, f, hf, hlt⟩
    obtain ⟨p, hp, rfl, rfl⟩ := framed_of_parseFrame hlength hf
    refine ⟨p, hp, rfl, fun hnil => ?_⟩
    have hdrop := drop_payloadOffset hp
    rw [hnil, List.drop_eq_nil_iff] at hdrop
    exact hlt.not_ge hdrop
  · rintro ⟨p, hp, rfl, hpayload⟩
    have hlen := length_bytes p
    refine ⟨by omega, frameOf p, parseFrame_bytes hp, ?_⟩
    by_contra hge
    refine hpayload ?_
    rw [← drop_payloadOffset hp]
    exact List.drop_eq_nil_iff.mpr (not_lt.mp hge)

/-- **The browser and the server read the same packets.** The browser decodes every text that
the server sends. The server accepts a packet exactly when `validate` finds no error in it and
its path is not too long, and then the decoded packet has the fields of the envelope. -/
theorem browser_agrees_with_server (decoders : PayloadDecoders δ) (raw : Bytes) :
    ∃ packet, decode decoders (hexOfBytes raw) = .ok packet ∧
      (validate (hexOfBytes raw) = .ok [] ↔
        packet.isValid = true ∧ packet.payloadRaw ≠ []) ∧
      ((parsePacketEnvelope raw).isSome = true ↔ validate (hexOfBytes raw) = .ok [] ∧
        (packet.path.getD []).flatten.length ≤ 2 * maxPathSize) ∧
      ∀ e, parsePacketEnvelope raw = some e →
        packet.routeType = e.routeType ∧ packet.payloadType = e.payloadType ∧
        packet.payloadVersion = e.payloadVersion ∧ packet.transportCodes = e.transportCodes ∧
        packet.pathLength = e.hopCount ∧ packet.pathHashSize.getD 1 = e.hashSize ∧
        (packet.path.getD []).flatten = packetText e.path ∧
        packet.payloadRaw = packetText e.payload ∧ packet.totalBytes = raw.length := by
  have hdecode : decode decoders (hexOfBytes raw) =
      .ok (parseBytes decoders raw (hexOfBytes raw) false).1 := by
    unfold decode parseInternal
    rw [hexToBytes_hexOfBytes]
    rfl
  have hvalidate : validate (hexOfBytes raw) = .ok [] ↔ validateBytes raw = [] := by
    unfold validate
    rw [hexToBytes_hexOfBytes]
    exact ⟨fun h => Except.ok.inj h, fun h => congrArg Except.ok h⟩
  have hnil {bs : Bytes} : packetText bs ≠ [] ↔ bs ≠ [] := by
    rw [ne_eq, ← List.length_eq_zero_iff, packetText_length, ne_eq, ← List.length_eq_zero_iff]
    omega
  refine ⟨_, hdecode, ?_, ?_, fun e he => ?_⟩
  · rw [hvalidate, validateBytes_eq_nil_iff_framed, isValid_parseBytes_iff]
    constructor
    · rintro ⟨p, hp, rfl, hpayload⟩
      obtain ⟨-, -, -, -, -, -, -, -, hraw, -⟩ :=
        parseBytes_framed decoders hp (hexOfBytes p.bytes) false
      exact ⟨⟨p, hp, rfl⟩, hraw ▸ hnil.mpr hpayload⟩
    · rintro ⟨⟨p, hp, rfl⟩, hpayload⟩
      obtain ⟨-, -, -, -, -, -, -, -, hraw, -⟩ :=
        parseBytes_framed decoders hp (hexOfBytes p.bytes) false
      exact ⟨p, hp, rfl, hnil.mp (hraw ▸ hpayload)⟩
  · rw [(parsePacketEnvelope_exact raw).1, hvalidate, validateBytes_eq_nil_iff_framed]
    constructor
    · rintro ⟨p, hp, rfl⟩
      obtain ⟨hframed, hfits, hpayload⟩ := p.wellFormed_iff.mp hp
      obtain ⟨-, -, -, -, -, -, -, hpath, -⟩ :=
        parseBytes_framed decoders hframed (hexOfBytes p.bytes) false
      refine ⟨⟨p, hframed, rfl, hpayload⟩, ?_⟩
      rw [hpath, packetText_length]
      omega
    · rintro ⟨⟨p, hp, rfl, hpayload⟩, hfits⟩
      obtain ⟨-, -, -, -, -, -, -, hpath, -⟩ :=
        parseBytes_framed decoders hp (hexOfBytes p.bytes) false
      rw [hpath, packetText_length] at hfits
      exact ⟨p, p.wellFormed_iff.mpr ⟨hp, by omega, hpayload⟩, rfl⟩
  · obtain ⟨p, hp, rfl, rfl⟩ := (parsePacketEnvelope_eq_some_iff raw e).mp he
    exact (parseBytes_framed decoders (p.wellFormed_iff.mp hp).1 (hexOfBytes p.bytes) false).2

/-! ### The segments of the inspector -/

/-- The segments cover the bytes from `start` up to `stop` one after the other. -/
def Covers : List PacketSegment → Nat → Nat → Prop
  | [], start, stop => start = stop
  | s :: rest, start, stop =>
      s.startByte = start ∧ start ≤ s.endByte ∧ Covers rest (s.endByte + 1) stop

theorem Covers.append {segments rest : List PacketSegment} {start m stop : Nat}
    (h : Covers segments start m) (hrest : Covers rest m stop) :
    Covers (segments ++ rest) start stop := by
  induction segments generalizing start with
  | nil => exact (show start = m from h) ▸ hrest
  | cons s segments ih => exact ⟨h.1, h.2.1, ih h.2.2⟩

theorem Covers.single {s : PacketSegment} (h : s.startByte ≤ s.endByte) :
    Covers [s] s.startByte (s.endByte + 1) :=
  ⟨rfl, h, rfl⟩

theorem Covers.ite {c : Prop} [Decidable c] {s : PacketSegment} {start stop : Nat}
    (hpos : c → Covers [s] start stop) (hneg : ¬c → start = stop) :
    Covers (if c then [s] else []) start stop := by
  split
  next h => exact hpos h
  next h => exact hneg h

theorem covers_frameSegments (hp : p.Framed) :
    Covers (frameSegments p.bytes (frameOf p)) 0 p.bytes.length := by
  have hlen := length_bytes p
  have htransport := hp.transport
  have hpath := hp.path
  have hhashSize : 1 ≤ p.hashSize := Nat.succ_pos _
  have hpathOffset := pathOffset_frameOf hp
  have hpayloadOffset := payloadOffset_frameOf hp
  have hend : (frameOf p).pathOffset + (frameOf p).byteLength =
      p.transport.length + 2 + p.path.length := hpayloadOffset
  unfold frameSegments
  rw [routeType_frameOf, pathLenOffset_of_framed hp]
  refine Covers.append (m := p.transport.length + 2 + p.path.length)
    (Covers.append (m := p.transport.length + 2)
      (Covers.append (m := p.transport.length + 1)
        (Covers.append (m := 1) (Covers.single le_rfl) ?_) (Covers.single le_rfl)) ?_) ?_
  · refine Covers.ite (fun hscoped => ?_) fun hscoped => ?_
    · rw [if_pos ((isTransport_iff _).mp hscoped)] at htransport
      exact ⟨rfl, by simp, by simp [Covers, htransport]⟩
    · rw [if_neg fun h => hscoped ((isTransport_iff _).mpr h)] at htransport
      rw [htransport]
  · refine Covers.ite (fun hhops => ?_) fun hhops => ?_
    · have hpos : 1 ≤ p.path.length := hpath ▸ Nat.mul_pos hhops hhashSize
      refine ⟨hpathOffset, ?_, ?_⟩
      · change _ ≤ (frameOf p).pathOffset + (frameOf p).byteLength - 1
        omega
      · change (frameOf p).pathOffset + (frameOf p).byteLength - 1 + 1 = _
        omega
    · have hzero : p.hops = 0 := Nat.eq_zero_of_not_pos hhops
      rw [hpath, hzero, Nat.zero_mul, Nat.add_zero]
  · refine Covers.ite (fun hpayload => ?_) fun hpayload => ?_
    · rw [hpayloadOffset] at hpayload
      refine ⟨hpayloadOffset, ?_, ?_⟩
      · change _ ≤ p.bytes.length - 1
        omega
      · change p.bytes.length - 1 + 1 = _
        omega
    · rw [hpayloadOffset] at hpayload
      omega

/-- The segments whose value is the text of their bytes. -/
def showsBytes (name : String) : Bool :=
  name = "Path Data" ∨ name = "Path SNR Data" ∨ name = "Payload"

theorem value_frameSegments (hp : p.Framed) {s : PacketSegment}
    (hs : s ∈ frameSegments p.bytes (frameOf p)) (hname : showsBytes s.name = true) :
    s.value = bytesToHex ((p.bytes.take (s.endByte + 1)).drop s.startByte) := by
  have hlen := length_bytes p
  have hpayloadOffset := payloadOffset_frameOf hp
  have hend : (frameOf p).pathOffset + (frameOf p).byteLength =
      p.transport.length + 2 + p.path.length := hpayloadOffset
  unfold frameSegments at hs
  simp only [List.mem_append, List.mem_singleton, List.mem_ite_nil_right] at hs
  rcases hs with (((rfl | ⟨-, rfl⟩) | rfl) | ⟨-, rfl⟩) | ⟨hlong, rfl⟩
  · simp [showsBytes] at hname
  · simp [showsBytes] at hname
  · simp [showsBytes] at hname
  · have hstop : (frameOf p).pathOffset + (frameOf p).byteLength - 1 + 1 =
        (frameOf p).pathOffset + (frameOf p).byteLength := by
      rw [hend]
      omega
    dsimp only
    rw [hstop]
    rfl
  · have hstop : p.bytes.length - 1 + 1 = p.bytes.length := by omega
    dsimp only
    rw [hstop, List.take_length]

/-- **The inspector shows every byte once.** The segments of a packet that is valid cover it
from the first byte to the last without gap or overlap, and what they show is what they cover.
Bytes that are no packet have no segments. -/
theorem analyzeStructure_covers (decoders : PayloadDecoders δ) (raw : Bytes) :
    ∃ packet structure_, decode decoders (hexOfBytes raw) = .ok packet ∧
      analyzeStructure decoders (hexOfBytes raw) = .ok structure_ ∧
      structure_.totalBytes = raw.length ∧ structure_.rawHex = bytesToHex raw ∧
      (packet.isValid = false → structure_.segments = []) ∧
      (packet.isValid = true → Covers structure_.segments 0 raw.length ∧
        (∀ s ∈ structure_.segments, showsBytes s.name = true →
          s.value = bytesToHex ((raw.take (s.endByte + 1)).drop s.startByte)) ∧
        structure_.payloadHex = bytesToHex (raw.drop structure_.payloadStartByte) ∧
        structure_.payloadHex = packet.payloadRaw) := by
  refine ⟨(parseBytes decoders raw (hexOfBytes raw) false).1,
    (parseBytes decoders raw (hexOfBytes raw) true).2, ?_, ?_, ?_, ?_, fun h => ?_, fun h => ?_⟩
  · unfold decode parseInternal
    rw [hexToBytes_hexOfBytes]
    rfl
  · unfold analyzeStructure parseInternal
    rw [hexToBytes_hexOfBytes]
    rfl
  · unfold parseBytes
    split
    · rfl
    · split <;> rfl
  · unfold parseBytes
    split
    · rfl
    · split <;> rfl
  · unfold parseBytes at h ⊢
    split at h
    next hshort =>
      rw [if_pos hshort]
      rfl
    next hlong =>
      rw [if_neg hlong]
      split at h
      next error hf => simp only [failed]
      next => cases h
  · obtain ⟨p, hp, rfl⟩ := (isValid_parseBytes_iff decoders _ _).mp h
    have hlen := length_bytes p
    have hlong : ¬ p.bytes.length < 2 := by omega
    unfold parseBytes
    rw [if_neg hlong, if_neg hlong, parseFrame_bytes hp]
    exact ⟨covers_frameSegments hp, fun s hs => value_frameSegments hp hs, rfl, rfl⟩

/-! ### The message hash -/

/-- The message hash of what a packet carries. -/
def contentHash (payloadType payloadVersion : Nat) (payload : Bytes) : Text :=
  numberToHex ((((payloadType <<< 2) ||| (payloadVersion <<< 6)) ::
    payload.map UInt8.toNat).foldl hashByte 0) 8

theorem calculateMessageHash_bytes (hp : p.Framed) {payloadType : Nat} (payloadVersion : Nat)
    (htrace : payloadType ≠ traceType) :
    calculateMessageHash p.bytes p.routeType payloadType payloadVersion =
      contentHash payloadType payloadVersion p.payload := by
  have hlen := length_bytes p
  have hpathByte : byteAt p.bytes (p.transport.length + 1) = p.pathByte.toNat :=
    byteAt_append _ _ _ rfl
  have hdrop := drop_payloadOffset hp
  rw [payloadOffset_frameOf hp] at hdrop
  have hpath : p.path.length = p.pathByte.toNat % 64 * (p.pathByte.toNat / 64 + 1) := hp.path
  have hlong : p.bytes.length > p.transport.length + 1 := by omega
  unfold calculateMessageHash
  dsimp only
  rw [pathLenOffset_of_framed hp, if_pos hlong, hpathByte, decodePathLenByte_eq,
    if_neg fun h => htrace h.1]
  have hoffset : p.transport.length + 1 + (1 + p.pathByte.toNat % 64 *
      (p.pathByte.toNat / 64 + 1)) = p.transport.length + 2 + p.path.length := by omega
  rw [hoffset, hdrop]
  rfl

end Frontend.PacketDecoder

/-- `calculate_packet_hash`. The hash function of the library is a parameter. -/
def calculatePacketHash (sha256 : Bytes → Bytes) (rawBytes : Bytes) : Text :=
  match parsePacketEnvelope rawBytes with
  | none => List.replicate 16 '0'
  | some envelope =>
      upper ((hexOfBytes (sha256 (UInt8.ofNat envelope.payloadType ::
        ((if envelope.payloadType = 9 then ParsedPacketEnvelope.codeBytes envelope.pathByte
          else []) ++ envelope.payload)))).take 16)

namespace Frontend.PacketDecoder

variable {δ : Type} {p q : PacketFields}

/-- Bytes that the server accepts are well formed in whatever way they are framed. -/
theorem wellFormed_of_bytes_eq (hp : p.WellFormed) (hq : q.Framed) (h : p.bytes = q.bytes) :
    q.WellFormed := by
  obtain ⟨hframed, hfits, hpayload⟩ := p.wellFormed_iff.mp hp
  have hframe : frameOf p = frameOf q :=
    Except.ok.inj ((parseFrame_bytes hframed).symm.trans (h ▸ parseFrame_bytes hq))
  have hlength : p.path.length = q.path.length := by
    rw [hframed.path, hq.path]
    exact congrArg PacketFrame.byteLength hframe
  have hsame : p.payload = q.payload := by
    rw [← drop_payloadOffset hframed, ← drop_payloadOffset hq, h, hframe]
  exact q.wellFormed_iff.mpr ⟨hq, hlength ▸ hfits, hsame ▸ hpayload⟩

/-- **A message has one hash on every route.** Two packets that carry the same payload, with
the same type and version, have the same message hash in the browser, whatever their routes,
transport codes and paths are, unless they are traces; and the same packet hash on the server
if it accepts both. -/
theorem messageHash_of_payload (decoders : PayloadDecoders δ) (sha256 : Bytes → Bytes)
    (hp : p.Framed) (hq : q.Framed) (hheader : p.header.toNat / 4 = q.header.toNat / 4)
    (hpayload : p.payload = q.payload) (htrace : p.header.toNat / 4 % 16 ≠ traceType) :
    ∃ packet packet', decode decoders (hexOfBytes p.bytes) = .ok packet ∧
      decode decoders (hexOfBytes q.bytes) = .ok packet' ∧
      packet.messageHash = packet'.messageHash ∧
      ((parsePacketEnvelope p.bytes).isSome = true → (parsePacketEnvelope q.bytes).isSome = true →
        calculatePacketHash sha256 p.bytes = calculatePacketHash sha256 q.bytes) := by
  have hdecode (r : PacketFields) (hr : r.Framed) : ∃ packet,
      decode decoders (hexOfBytes r.bytes) = .ok packet ∧ packet.messageHash =
        calculateMessageHash r.bytes r.routeType (r.header.toNat / 4 % 16)
          (r.header.toNat / 64) := by
    have hlen := length_bytes r
    refine ⟨(parseBytes decoders r.bytes (hexOfBytes r.bytes) false).1, ?_, ?_⟩
    · unfold decode parseInternal
      rw [hexToBytes_hexOfBytes]
      rfl
    · have htype : (frameOf r).payloadType = r.header.toNat / 4 % 16 := by
        change (r.header.toNat >>> 2) &&& 0x0F = _
        rw [and_fifteen, shiftRight_two]
      have hversion : (frameOf r).payloadVersion = r.header.toNat / 64 :=
        upperBits_of_lt r.header.toNat_lt
      unfold parseBytes
      rw [if_neg (by omega), parseFrame_bytes hr]
      dsimp only
      rw [routeType_frameOf, htype, hversion]
  have henvelope (r : PacketFields) (hr : r.Framed)
      (hsome : (parsePacketEnvelope r.bytes).isSome = true) :
      parsePacketEnvelope r.bytes = some r.envelope := by
    obtain ⟨r', hr', hbytes⟩ := (parsePacketEnvelope_exact r.bytes).1.mp hsome
    exact (parsePacketEnvelope_eq_some_iff _ _).mpr
      ⟨r, wellFormed_of_bytes_eq hr' hr hbytes, rfl, rfl⟩
  obtain ⟨packet, hpacket, hhash⟩ := hdecode p hp
  obtain ⟨packet', hpacket', hhash'⟩ := hdecode q hq
  have hversion : p.header.toNat / 64 = q.header.toNat / 64 := by omega
  refine ⟨packet, packet', hpacket, hpacket', ?_, fun hsome hsome' => ?_⟩
  · rw [hhash, hhash', calculateMessageHash_bytes hp _ htrace,
      calculateMessageHash_bytes hq _ (hheader ▸ htrace), hheader, hversion, hpayload]
  · have htype : p.envelope.payloadType = q.envelope.payloadType :=
      congrArg (· % 16) hheader
    have hbody : p.envelope.payload = q.envelope.payload := hpayload
    have hne : ¬ p.envelope.payloadType = 9 := htrace
    unfold calculatePacketHash
    rw [henvelope p hp hsome, henvelope q hq hsome']
    dsimp only
    rw [if_neg hne, if_neg (htype ▸ hne), htype, hbody]

/-- A flood of one byte, and the same message on a transport route over one hop. -/
theorem messageHash_of_payload_transport : ∃ packet packet' : DecodedPacket Unit,
    decode (fun _ _ _ => (none, []))
      (hexOfBytes (PacketFields.bytes ⟨0x15, [], 0, [], [1]⟩)) = .ok packet ∧
    decode (fun _ _ _ => (none, []))
      (hexOfBytes (PacketFields.bytes ⟨0x14, [1, 2, 3, 4], 1, [9], [1]⟩)) = .ok packet' ∧
    packet.messageHash = packet'.messageHash := by
  obtain ⟨packet, packet', hpacket, hpacket', hhash, -⟩ :=
    messageHash_of_payload (p := ⟨0x15, [], 0, [], [1]⟩) (q := ⟨0x14, [1, 2, 3, 4], 1, [9], [1]⟩)
      (fun _ _ _ => (none, [])) id ⟨rfl, by decide, rfl⟩ ⟨rfl, by decide, rfl⟩
      rfl rfl (by decide)
  exact ⟨packet, packet', hpacket, hpacket', hhash⟩

end Frontend.PacketDecoder

end RemoteTerm
