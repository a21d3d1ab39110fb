import RemoteTerm.Decoder.Decoder

/-!
# Flood scopes and transport codes

`region_scope` normalizes scope names; `region_resolver` finds the known region
whose keyed code a scoped packet carries.
-/

namespace RemoteTerm

open Library

/-- `str.isspace` on one character. -/
def isWhitespace (c : Char) : Bool :=
  let n := c.toNat
  9 ≤ n ∧ n ≤ 13 ∨ 28 ≤ n ∧ n ≤ 32 ∨ n = 0x85 ∨ n = 0xA0 ∨ n = 0x1680 ∨
    0x2000 ≤ n ∧ n ≤ 0x200A ∨ n = 0x2028 ∨ n = 0x2029 ∨ n = 0x202F ∨ n = 0x205F ∨ n = 0x3000

/-- `str.strip()`. -/
def strip (s : Text) : Text :=
  ((s.dropWhile isWhitespace).reverse.dropWhile isWhitespace).reverse

/-- `_UNSCOPED_SENTINELS`. -/
def unscopedSentinels : List Text := [[], ['0'], ['*']]

/-- `is_unscoped`. -/
def isUnscoped (scope : Option Text) : Bool := strip (scope.getD []) ∈ unscopedSentinels

/-- `normalize_region_scope`. -/
def normalizeRegionScope (scope : Option Text) : Text :=
  let stripped := strip (scope.getD [])
  if stripped ∈ unscopedSentinels then []
  else if stripped.head? = some '#' then stripped
  else '#' :: stripped

/-- `resolve_override_scope`: the desired scope, and whether it is explicit. -/
def resolveOverrideScope : Option Text → Text × Bool
  | none => ([], false)
  | some override =>
      if isUnscoped (some override) then ([], true)
      else (normalizeRegionScope (some override), true)

/-- `_region_key`. -/
def regionKey (crypto : Crypto) (regionName : Text) : Option Bytes :=
  let normalized := normalizeRegionScope (some regionName)
  if normalized = [] then none
  else some ((crypto.sha256 (String.ofList normalized).toUTF8.toList).take 16)

/-- `compute_transport_code`; the codes `0x0000` and `0xFFFF` are reserved. -/
def computeTransportCode (crypto : Crypto) (regionName : Text) (payloadType : Nat)
    (payload : Bytes) : Option Nat := do
  let key ← regionKey crypto regionName
  let digest := crypto.hmacSha256 key (UInt8.ofNat (payloadType &&& 0xFF) :: payload)
  let code := littleEndian (digest.take 2)
  return if code = 0 then 1 else if code = 0xFFFF then 0xFFFE else code

/-- `resolve_region`: the first known region with the packet's code. -/
def resolveRegion (crypto : Crypto) (payloadType : Nat) (payload : Bytes) (transportCode : Nat)
    (regionNames : List Text) : Option Text :=
  regionNames.find? fun name =>
    name ≠ [] ∧ computeTransportCode crypto name payloadType payload = some transportCode

/-- The transport code of a packet and the region it resolves to. -/
def packetScope (crypto : Crypto) (knownRegions : List Text) (packetInfo : PacketInfo) :
    Option Nat × Option Text :=
  match packetInfo.transportCodes with
  | none => (none, none)
  | some (transportCode, _) =>
      (some transportCode, resolveRegion crypto packetInfo.payloadType.toNat packetInfo.payload
        transportCode knownRegions)

end RemoteTerm
