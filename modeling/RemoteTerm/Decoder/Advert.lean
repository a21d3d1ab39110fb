import Mathlib
import RemoteTerm.Decoder.PathUtils
import RemoteTerm.Library.Text

/-!
# Advertisements

`decoder.parse_advertisement`: the public key, the timestamp, the role and the
location that a node advertises.

## Implementation notes

Coordinates are millionths of a degree, as they are on the wire. The name is not
read by anything modelled here and is left out, and so are the feature fields
that only move its offset.
-/

namespace RemoteTerm

open Library

/-- The fields of `ParsedAdvertisement` that are read. -/
structure ParsedAdvertisement where
  publicKey : Text
  timestamp : Nat
  location : Option (Int × Int)
  deviceRole : Nat
  deriving DecidableEq, Repr

/-- `int.from_bytes(.., "little", signed=True)` of four bytes. -/
def signedLittleEndian (bytes : Bytes) : Int :=
  let n := littleEndian bytes
  if n < 2 ^ 31 then n else (n : Int) - 2 ^ 32

/-- `_is_valid_advert_location`. -/
def isValidAdvertLocation (lat lon : Int) : Bool :=
  -90000000 ≤ lat ∧ lat ≤ 90000000 ∧ -180000000 ≤ lon ∧ lon ≤ 180000000

/-- The advertised location: absent without its flag, when it is cut off and when it is
impossible. -/
def advertLocation (flags : Nat) (appData : Bytes) : Option (Int × Int) :=
  if flags &&& 0x10 ≠ 0 ∧ 8 ≤ appData.length then
    let lat := signedLittleEndian (appData.take 4)
    let lon := signedLittleEndian ((appData.drop 4).take 4)
    if isValidAdvertLocation lat lon then some (lat, lon) else none
  else none

/-- `parse_advertisement`. -/
def parseAdvertisement (payload : Bytes) : Option ParsedAdvertisement :=
  match payload.drop 100 with
  | [] => none
  | flags :: appData =>
      let role := flags.toNat &&& 0x0F
      some
        { publicKey := hexOfBytes (payload.take 32)
          timestamp := littleEndian ((payload.drop 32).take 4)
          location := advertLocation flags.toNat appData
          deviceRole := if role > 4 then 0 else role }

end RemoteTerm
