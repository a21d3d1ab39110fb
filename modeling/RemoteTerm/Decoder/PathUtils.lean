import Mathlib.Data.List.Basic

/-!
# Packet framing

`path_utils.parse_packet_envelope`: the header byte, the transport codes of
scoped routes, the packed path byte, the path and the payload.
-/

namespace RemoteTerm

/-- A `bytes` value. -/
abbrev Bytes := List UInt8

/-- `int.from_bytes(.., "little")`. -/
def littleEndian : Bytes → Nat
  | [] => 0
  | b :: rest => b.toNat + 256 * littleEndian rest

/-- `ParsedPacketEnvelope`. -/
structure ParsedPacketEnvelope where
  header : Nat
  routeType : Nat
  payloadType : Nat
  payloadVersion : Nat
  pathByte : Nat
  hopCount : Nat
  hashSize : Nat
  pathByteLen : Nat
  path : Bytes
  payload : Bytes
  transportCodes : Option (Nat × Nat) := none
  deriving DecidableEq

/-- `MAX_PATH_SIZE`. -/
def maxPathSize : Nat := 64

/-- `decode_path_byte`: hop count and hash size; hash mode 3 is reserved. -/
def decodePathByte (pathByte : Nat) : Option (Nat × Nat) :=
  let hashMode := (pathByte >>> 6) &&& 0x03
  if hashMode = 3 then none else some (pathByte &&& 0x3F, hashMode + 1)

/-- `path_wire_len`. -/
def pathWireLen (hopCount hashSize : Nat) : Nat := hopCount * hashSize

/-- `validate_path_byte`: hop count, hash size and the length of the path in bytes. -/
def validatePathByte (pathByte : Nat) : Option (Nat × Nat × Nat) :=
  match decodePathByte pathByte with
  | none => none
  | some (hopCount, hashSize) =>
      let byteLen := pathWireLen hopCount hashSize
      if byteLen > maxPathSize then none else some (hopCount, hashSize, byteLen)

/-- The transport codes of a `TRANSPORT_*` route, and the bytes after them. -/
def readTransportCodes (routeType : Nat) (rest : Bytes) :
    Option (Option (Nat × Nat) × Bytes) :=
  if routeType = 0x00 ∨ routeType = 0x03 then
    if rest.length < 4 then none
    else some (some (littleEndian (rest.take 2), littleEndian ((rest.drop 2).take 2)),
      rest.drop 4)
  else some (none, rest)

/-- `parse_packet_envelope`: at least one payload byte must follow the path. -/
def parsePacketEnvelope : Bytes → Option ParsedPacketEnvelope
  | [] | [_] => none
  | first :: rest =>
      let header := first.toNat
      let routeType := header &&& 0x03
      match readTransportCodes routeType rest with
      | none | some (_, []) => none
      | some (transportCodes, pathByte :: body) =>
          match validatePathByte pathByte.toNat with
          | none => none
          | some (hopCount, hashSize, pathByteLen) =>
              if body.length ≤ pathByteLen then none
              else some
                { header := header
                  routeType := routeType
                  payloadType := (header >>> 2) &&& 0x0F
                  payloadVersion := (header >>> 6) &&& 0x03
                  pathByte := pathByte.toNat
                  hopCount := hopCount
                  hashSize := hashSize
                  pathByteLen := pathByteLen
                  path := body.take pathByteLen
                  payload := body.drop pathByteLen
                  transportCodes := transportCodes }

/-- What is accepted is well formed: the path has its announced length and the
payload is not empty. -/
theorem parsePacketEnvelope_wellFormed {raw : Bytes} {e : ParsedPacketEnvelope}
    (h : parsePacketEnvelope raw = some e) :
    e.path.length = e.pathByteLen ∧ e.pathByteLen = pathWireLen e.hopCount e.hashSize ∧
      e.pathByteLen ≤ maxPathSize ∧ e.payload ≠ [] := by
  unfold parsePacketEnvelope at h
  split at h
  next => simp at h
  next => simp at h
  next first rest _ =>
    dsimp only at h
    split at h
    next => simp at h
    next => simp at h
    next codes pathByte body _ =>
      split at h
      next => simp at h
      next hops size len hv =>
        split at h
        next => simp at h
        next hlen =>
          simp only [Option.some.injEq] at h
          subst h
          have hw : len = pathWireLen hops size ∧ len ≤ maxPathSize := by
            unfold validatePathByte at hv
            split at hv
            next => simp at hv
            next =>
              simp only [Option.ite_none_left_eq_some, Option.some.injEq, Prod.mk.injEq] at hv
              obtain ⟨hle, rfl, rfl, rfl⟩ := hv
              exact ⟨rfl, by omega⟩
          refine ⟨by simp only [List.length_take]; omega, hw.1, hw.2, ?_⟩
          simp only [ne_eq, List.drop_eq_nil_iff]
          omega

end RemoteTerm
