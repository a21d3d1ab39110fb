import RemoteTerm.Decoder.PathUtils

/-!
# The packet grammar

A packet is a header byte, four transport bytes when the route type is a
transport one, a path byte, the path that it announces and a payload. The parser
accepts exactly these byte strings, and what it returns is the packet, cut into
its fields.
-/

namespace RemoteTerm

/-- A byte string cut into the fields of a packet. -/
structure PacketFields where
  header : UInt8
  transport : Bytes
  pathByte : UInt8
  path : Bytes
  payload : Bytes

namespace PacketFields

variable (p : PacketFields)

/-- The fields one after the other. -/
def bytes : Bytes := p.header :: (p.transport ++ p.pathByte :: (p.path ++ p.payload))

/-- The lowest two bits of the header. -/
def routeType : Nat := p.header.toNat % 4

/-- The lower six bits of the path byte. -/
def hops : Nat := p.pathByte.toNat % 64

/-- The size mode, the upper two bits of the path byte, plus one. -/
def hashSize : Nat := p.pathByte.toNat / 64 + 1

/-- The grammar. -/
structure WellFormed : Prop where
  transport : p.transport.length = if p.routeType = 0 ∨ p.routeType = 3 then 4 else 0
  notReserved : p.hashSize ≠ 4
  fits : p.hops * p.hashSize ≤ maxPathSize
  path : p.path.length = p.hops * p.hashSize
  payload : p.payload ≠ []

/-- The transport codes of a transport route. -/
def transportCodes : Option (Nat × Nat) :=
  if p.routeType = 0 ∨ p.routeType = 3 then
    some (littleEndian (p.transport.take 2), littleEndian (p.transport.drop 2))
  else none

/-- The envelope of a packet. -/
def envelope : ParsedPacketEnvelope where
  header := p.header.toNat
  routeType := p.routeType
  payloadType := p.header.toNat / 4 % 16
  payloadVersion := p.header.toNat / 64
  pathByte := p.pathByte.toNat
  hopCount := p.hops
  hashSize := p.hashSize
  pathByteLen := p.hops * p.hashSize
  path := p.path
  payload := p.payload
  transportCodes := p.transportCodes

end PacketFields

section BitFields

theorem and_three (n : Nat) : n &&& 0x03 = n % 4 := Nat.and_two_pow_sub_one_eq_mod n 2

theorem and_fifteen (n : Nat) : n &&& 0x0F = n % 16 := Nat.and_two_pow_sub_one_eq_mod n 4

theorem and_sixtyThree (n : Nat) : n &&& 0x3F = n % 64 := Nat.and_two_pow_sub_one_eq_mod n 6

theorem shiftRight_two (n : Nat) : n >>> 2 = n / 4 := Nat.shiftRight_eq_div_pow n 2

theorem shiftRight_six (n : Nat) : n >>> 6 = n / 64 := Nat.shiftRight_eq_div_pow n 6

/-- The upper two bits of a byte need no mask. -/
theorem upperBits_of_lt {n : Nat} (h : n < 256) : (n >>> 6) &&& 0x03 = n / 64 := by
  rw [and_three, shiftRight_six]
  omega

end BitFields

/-- A path byte is accepted when its mode is not reserved and its path fits. -/
theorem validatePathByte_eq_some_iff (b : UInt8) (hops size len : Nat) :
    validatePathByte b.toNat = some (hops, size, len) ↔
      b.toNat / 64 + 1 ≠ 4 ∧ b.toNat % 64 * (b.toNat / 64 + 1) ≤ maxPathSize ∧
        hops = b.toNat % 64 ∧ size = b.toNat / 64 + 1 ∧ len = hops * size := by
  have hmode : (b.toNat >>> 6) &&& 0x03 = b.toNat / 64 := upperBits_of_lt b.toNat_lt
  unfold validatePathByte decodePathByte pathWireLen
  rw [hmode, and_sixtyThree]
  by_cases hreserved : b.toNat / 64 = 3
  · rw [if_pos hreserved]
    exact iff_of_false (by simp) (fun h => h.1 (by omega))
  · rw [if_neg hreserved]
    dsimp only
    by_cases hlong : b.toNat % 64 * (b.toNat / 64 + 1) > maxPathSize
    · rw [if_pos hlong]
      exact iff_of_false (by simp) (fun h => absurd h.2.1 (by omega))
    · rw [if_neg hlong, Option.some.injEq, Prod.mk.injEq, Prod.mk.injEq]
      constructor
      · rintro ⟨rfl, rfl, rfl⟩
        exact ⟨by omega, by omega, rfl, rfl, rfl⟩
      · rintro ⟨-, -, rfl, rfl, rfl⟩
        exact ⟨rfl, rfl, rfl⟩

/-- The transport bytes are cut off exactly when the route type is a transport one. -/
theorem readTransportCodes_eq_some_iff (routeType : Nat) (raw rest : Bytes)
    (codes : Option (Nat × Nat)) :
    readTransportCodes routeType raw = some (codes, rest) ↔
      ∃ transport, raw = transport ++ rest ∧
        transport.length = (if routeType = 0 ∨ routeType = 3 then 4 else 0) ∧
        codes = if routeType = 0 ∨ routeType = 3 then
          some (littleEndian (transport.take 2), littleEndian (transport.drop 2)) else none := by
  unfold readTransportCodes
  split_ifs with hroute hshort
  · refine iff_of_false (by simp) ?_
    rintro ⟨transport, rfl, hlen, -⟩
    rw [List.length_append] at hshort
    omega
  · rw [Option.some.injEq, Prod.mk.injEq]
    constructor
    · rintro ⟨rfl, rfl⟩
      refine ⟨raw.take 4, (List.take_append_drop 4 raw).symm, by rw [List.length_take]; omega, ?_⟩
      rw [List.take_take, List.drop_take]
      rfl
    · rintro ⟨transport, rfl, hlen, rfl⟩
      have htake : (transport ++ rest).take 2 = transport.take 2 :=
        List.take_append_of_le_length (by omega)
      have hdrop : ((transport ++ rest).drop 2).take 2 = transport.drop 2 := by
        rw [List.drop_append_of_le_length (by omega),
          List.take_append_of_le_length (by rw [List.length_drop]; omega)]
        exact List.take_of_length_le (by rw [List.length_drop]; omega)
      exact ⟨by rw [htake, hdrop], List.drop_left' hlen⟩
  · rw [Option.some.injEq, Prod.mk.injEq]
    constructor
    · rintro ⟨rfl, rfl⟩
      exact ⟨[], rfl, rfl, rfl⟩
    · rintro ⟨transport, rfl, hlen, rfl⟩
      rw [List.length_eq_zero_iff.mp hlen]
      exact ⟨rfl, rfl⟩

/-- What the parser returns is the envelope of a packet that spells the input, and every packet
is parsed. -/
theorem parsePacketEnvelope_eq_some_iff (raw : Bytes) (e : ParsedPacketEnvelope) :
    parsePacketEnvelope raw = some e ↔
      ∃ p : PacketFields, p.WellFormed ∧ p.bytes = raw ∧ p.envelope = e := by
  constructor
  · intro h
    unfold parsePacketEnvelope at h
    split at h
    next => cases h
    next => cases h
    next first rest _ =>
      dsimp only at h
      split at h
      next => cases h
      next => cases h
      next codes pathByte body htransport =>
        split at h
        next => cases h
        next hops size len hvalid =>
          split at h
          next => cases h
          next hlong =>
            rw [and_three] at htransport
            obtain ⟨transport, rfl, hlen, hcodes⟩ :=
              (readTransportCodes_eq_some_iff _ _ _ _).mp htransport
            obtain ⟨hmode, hfits, rfl, rfl, rfl⟩ :=
              (validatePathByte_eq_some_iff _ _ _ _).mp hvalid
            refine ⟨⟨first, transport, pathByte,
                body.take (pathByte.toNat % 64 * (pathByte.toNat / 64 + 1)),
                body.drop (pathByte.toNat % 64 * (pathByte.toNat / 64 + 1))⟩,
              ⟨hlen, hmode, hfits, ?_, ?_⟩, ?_, Option.some.inj (Eq.trans ?_ h)⟩
            · rw [List.length_take]
              exact Nat.min_eq_left (by omega)
            · rw [ne_eq, List.drop_eq_nil_iff]
              exact hlong
            · rw [PacketFields.bytes, List.take_append_drop]
            · rw [hcodes, and_three, and_fifteen, shiftRight_two, upperBits_of_lt first.toNat_lt]
              rfl
  · rintro ⟨⟨header, transport, pathByte, path, payload⟩, hp, rfl, rfl⟩
    obtain ⟨hlen, hmode, hfits, hpath, hpayload⟩ := hp
    change path.length = pathByte.toNat % 64 * (pathByte.toNat / 64 + 1) at hpath
    change payload ≠ [] at hpayload
    have htransport : readTransportCodes (header.toNat &&& 0x03)
        (transport ++ pathByte :: (path ++ payload)) =
        some (PacketFields.transportCodes ⟨header, transport, pathByte, path, payload⟩,
          pathByte :: (path ++ payload)) := by
      rw [and_three]
      exact (readTransportCodes_eq_some_iff _ _ _ _).mpr ⟨transport, rfl, hlen, rfl⟩
    have hvalid : validatePathByte pathByte.toNat = some (pathByte.toNat % 64,
        pathByte.toNat / 64 + 1, pathByte.toNat % 64 * (pathByte.toNat / 64 + 1)) :=
      (validatePathByte_eq_some_iff _ _ _ _).mpr ⟨hmode, hfits, rfl, rfl, rfl⟩
    have hlong : ¬ (path ++ payload).length ≤
        pathByte.toNat % 64 * (pathByte.toNat / 64 + 1) := by
      have hpos := List.length_pos_iff.mpr hpayload
      rw [List.length_append]
      omega
    obtain ⟨second, rest, hrest⟩ :
        ∃ second rest, transport ++ pathByte :: (path ++ payload) = second :: rest :=
      List.exists_cons_of_ne_nil (by simp)
    rw [PacketFields.bytes, hrest, parsePacketEnvelope]
    · dsimp only
      rw [← hrest, htransport]
      dsimp only
      rw [hvalid]
      dsimp only
      rw [if_neg hlong, List.take_left' hpath, List.drop_left' hpath, and_three, and_fifteen,
        shiftRight_two, upperBits_of_lt header.toNat_lt]
      rfl
    · simp

namespace ParsedPacketEnvelope

/-- A code as two bytes, the lower one first. -/
def codeBytes (code : Nat) : Bytes := [UInt8.ofNat (code % 256), UInt8.ofNat (code / 256)]

/-- The transport bytes that were read as two codes. -/
def transportBytes (e : ParsedPacketEnvelope) : Bytes :=
  e.transportCodes.elim [] fun codes => codeBytes codes.1 ++ codeBytes codes.2

/-- The fields of an envelope one after the other. -/
def bytes (e : ParsedPacketEnvelope) : Bytes :=
  UInt8.ofNat e.header ::
    (e.transportBytes ++ UInt8.ofNat e.pathByte :: (e.path ++ e.payload))

theorem codeBytes_littleEndian {bs : Bytes} (h : bs.length = 2) :
    codeBytes (littleEndian bs) = bs := by
  match bs, h with
  | [lo, hi], _ =>
      have hlo := lo.toNat_lt
      have hlow : (lo.toNat + 256 * (hi.toNat + 256 * 0)) % 256 = lo.toNat := by omega
      have hhigh : (lo.toNat + 256 * (hi.toNat + 256 * 0)) / 256 = hi.toNat := by omega
      simp only [codeBytes, littleEndian, hlow, hhigh, UInt8.ofNat_toNat]

/-- The envelope of a packet spells it. -/
theorem bytes_envelope {p : PacketFields} (hp : p.WellFormed) : p.envelope.bytes = p.bytes := by
  have htransport : p.envelope.transportBytes = p.transport := by
    have hlen := hp.transport
    unfold transportBytes
    change (p.transportCodes).elim [] _ = _
    unfold PacketFields.transportCodes
    split_ifs at hlen ⊢ with hroute
    · rw [Option.elim_some, codeBytes_littleEndian (by rw [List.length_take]; omega),
        codeBytes_littleEndian (by rw [List.length_drop]; omega), List.take_append_drop]
    · exact (List.length_eq_zero_iff.mp hlen).symm
  unfold bytes
  rw [htransport]
  simp only [PacketFields.envelope, PacketFields.bytes, UInt8.ofNat_toNat]

end ParsedPacketEnvelope

/-- **The parser accepts exactly the grammar.** It returns an envelope if and only if the bytes are
a packet; the fields of an envelope spell the input, and the header fields are the bit fields of
its first byte. -/
theorem parsePacketEnvelope_exact (raw : Bytes) :
    ((parsePacketEnvelope raw).isSome = true ↔
        ∃ p : PacketFields, p.WellFormed ∧ p.bytes = raw) ∧
      ∀ e, parsePacketEnvelope raw = some e →
        e.bytes = raw ∧
        (∃ first, raw.head? = some first ∧ e.header = first.toNat) ∧
        e.header = e.routeType + 4 * e.payloadType + 64 * e.payloadVersion ∧
        e.routeType < 4 ∧ e.payloadType < 16 ∧ e.payloadVersion < 4 ∧
        (e.transportCodes.isSome = true ↔ e.routeType = 0 ∨ e.routeType = 3) ∧
        e.pathByte = e.hopCount + 64 * (e.hashSize - 1) ∧ e.hopCount < 64 ∧
        1 ≤ e.hashSize ∧ e.hashSize ≤ 3 ∧
        e.path.length = e.hopCount * e.hashSize ∧ e.path.length ≤ maxPathSize ∧
        e.payload ≠ [] := by
  constructor
  · rw [Option.isSome_iff_exists]
    constructor
    · rintro ⟨e, he⟩
      obtain ⟨p, hp, hbytes, -⟩ := (parsePacketEnvelope_eq_some_iff raw e).mp he
      exact ⟨p, hp, hbytes⟩
    · rintro ⟨p, hp, hbytes⟩
      exact ⟨p.envelope, (parsePacketEnvelope_eq_some_iff raw _).mpr ⟨p, hp, hbytes, rfl⟩⟩
  · intro e he
    obtain ⟨p, hp, rfl, rfl⟩ := (parsePacketEnvelope_eq_some_iff raw e).mp he
    have hheader := p.header.toNat_lt
    have hpathByte := p.pathByte.toNat_lt
    have hmode : p.pathByte.toNat / 64 + 1 ≠ 4 := hp.notReserved
    have hpath : p.path.length = p.pathByte.toNat % 64 * (p.pathByte.toNat / 64 + 1) := hp.path
    have hfits : p.pathByte.toNat % 64 * (p.pathByte.toNat / 64 + 1) ≤ maxPathSize := hp.fits
    refine ⟨ParsedPacketEnvelope.bytes_envelope hp, ⟨p.header, rfl, rfl⟩, ?_⟩
    simp only [PacketFields.envelope, PacketFields.routeType, PacketFields.hops,
      PacketFields.hashSize]
    refine ⟨by omega, by omega, by omega, by omega, ?_, by omega, by omega, by omega, by omega,
      hpath, hpath ▸ hfits, hp.payload⟩
    unfold PacketFields.transportCodes
    split_ifs with hroute
    · exact iff_of_true rfl hroute
    · exact iff_of_false (by simp) hroute

end RemoteTerm
