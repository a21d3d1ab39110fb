import RemoteTerm.Decoder.Region
import RemoteTerm.Library.Text

/-!
# Contact routes

The route columns of a contact, the normalization that every writer applies, and
the route that is pushed to the radio. A route that the firmware can hold has at
most 63 hops, a hash of one to three bytes for each hop, and at most
`MAX_PATH_SIZE` bytes. Normalization does not enforce this by itself; it does
exactly when the path and its announced length fit.

## Implementation notes

Lengths and modes are integers: the radio library hands over signed bytes. The
bit operations on a packed length byte are written as division and remainder.
Timestamps of routes are not read by anything modelled here and are left out. A
hop is lowered as ASCII; one with another letter is refused in any case, though
perhaps with another text than the source's.
-/

namespace RemoteTerm

open Library

/-- `ContactRoute`. -/
structure ContactRoute where
  path : Text
  pathLen : Int
  pathHashMode : Int
  deriving DecidableEq

namespace ContactRoute

/-- Flood routing: no path. -/
def flood : ContactRoute := ⟨[], -1, -1⟩

/-- The firmware can hold the route. -/
def Fits (r : ContactRoute) : Prop :=
  r.pathLen = -1 ∧ r.path = [] ∨
    0 ≤ r.pathLen ∧ r.pathLen ≤ 63 ∧ 0 ≤ r.pathHashMode ∧ r.pathHashMode ≤ 2 ∧
      r.path.length = 2 * (r.pathLen * (r.pathHashMode + 1)) ∧
      r.pathLen * (r.pathHashMode + 1) ≤ maxPathSize

instance (r : ContactRoute) : Decidable r.Fits := by
  unfold Fits
  infer_instance

end ContactRoute

/-- A length that is out of range is a packed path byte; `none` when it stands for a flood
route. The length and the hash mode are kept when the byte has the reserved mode. -/
def unpackPathLength (pathLen : Int) (pathHashMode : Option Int) : Option (Int × Option Int) :=
  if pathLen < -1 ∨ pathLen > 63 then
    let packed := pathLen % 256
    if packed = 255 then none
    else if packed / 64 ≠ 3 then some (packed % 64, some (packed / 64))
    else some (pathLen, pathHashMode)
  else some (pathLen, pathHashMode)

/-- A hash mode that is not 0, 1 or 2 is taken for 0. -/
def effectiveHashMode (pathHashMode : Option Int) : Int :=
  if pathHashMode = some 1 then 1 else if pathHashMode = some 2 then 2 else 0

/-- The path cut to its announced length, or the length lowered to whole hops. -/
def trimRoute (path : Text) (pathLen pathHashMode : Int) : ContactRoute :=
  if path = [] then ⟨path, pathLen, pathHashMode⟩
  else
    let bytesPerHop := pathHashMode + 1
    let actualBytes : Int := (path.length / 2 : Nat)
    let expectedBytes := pathLen * bytesPerHop
    if actualBytes > expectedBytes ∧ expectedBytes ≥ 0 then
      ⟨path.take (expectedBytes * 2).toNat, pathLen, pathHashMode⟩
    else if actualBytes < expectedBytes ∧ bytesPerHop > 0 ∧ actualBytes % bytesPerHop = 0 then
      ⟨path, actualBytes / bytesPerHop, pathHashMode⟩
    else ⟨path, pathLen, pathHashMode⟩

/-- `normalize_contact_route`. -/
def normalizeContactRoute (pathHex : Option Text) (pathLen pathHashMode : Option Int) :
    ContactRoute :=
  match unpackPathLength (pathLen.getD (-1)) pathHashMode with
  | none => .flood
  | some (normalizedLen, normalizedMode) =>
      if normalizedLen = -1 then .flood
      else trimRoute (pathHex.getD []) normalizedLen (effectiveHashMode normalizedMode)

/-- `normalize_route_override`: an override without a length is unset. -/
def normalizeRouteOverride (pathHex : Option Text) (pathLen pathHashMode : Option Int) :
    Option ContactRoute :=
  match pathLen with
  | none => none
  | some pathLen => some (normalizeContactRoute pathHex (some pathLen) pathHashMode)

/-- The width of the hops of an explicit route is the same and each hop is hexadecimal. -/
def checkHops (hopChars : Nat) : List Text → Except String Unit
  | [] => pure ()
  | hop :: rest =>
      if hop.length ≠ hopChars then throw "All hops must use the same width"
      else if (bytesOfHex hop).isNone then throw "Each hop must be valid hex"
      else checkHops hopChars rest

/-- The hops of a comma-separated route text. -/
def explicitHops (routeText : Text) : List Text :=
  ((routeText.splitOn ',').filter fun hop => strip hop ≠ []).map fun hop => lower (strip hop)

/-- The route of a list of hops. -/
def routeOfHops : List Text → Except String ContactRoute
  | [] => throw "Explicit path must include at least one hop"
  | first :: rest =>
      if first.length ≠ 2 ∧ first.length ≠ 4 ∧ first.length ≠ 6 then
        throw "Each hop must be 1, 2, or 3 bytes of hex"
      else do
        checkHops first.length (first :: rest)
        if pathWireLen (rest.length + 1) (first.length / 2) > maxPathSize then
          throw "Explicit path exceeds MAX_PATH_SIZE=64 bytes"
        else pure ⟨(first :: rest).flatten, rest.length + 1, first.length / 2 - 1⟩

/-- `parse_explicit_hop_route`. -/
def parseExplicitHopRoute (routeText : Text) : Except String ContactRoute :=
  routeOfHops (explicitHops routeText)

section Normalize

theorem effectiveHashMode_range (m : Option Int) :
    0 ≤ effectiveHashMode m ∧ effectiveHashMode m ≤ 2 := by
  unfold effectiveHashMode
  split
  · omega
  · split <;> omega

theorem effectiveHashMode_of_range {m : Int} (h : 0 ≤ m ∧ m ≤ 2) :
    effectiveHashMode (some m) = m := by
  obtain rfl | rfl | rfl : m = 0 ∨ m = 1 ∨ m = 2 := by omega
  all_goals rfl

/-- The path fits the announced length and hash mode. -/
def PathFits (path : Text) (pathLen pathHashMode : Int) : Prop :=
  let width := pathHashMode + 1
  let bytes : Int := (path.length / 2 : Nat)
  if path = [] then pathLen = 0
  else if bytes > pathLen * width then
    0 ≤ pathLen ∧ pathLen ≤ 63 ∧ pathLen * width ≤ maxPathSize
  else path.length % 2 = 0 ∧ bytes % width = 0 ∧ bytes / width ≤ 63 ∧ bytes ≤ maxPathSize

/-- The arguments of `normalize_contact_route` describe a route that the firmware can hold:
a flood route, or a path that fits its length and hash mode once these are unpacked. -/
def RouteFits (pathHex : Option Text) (pathLen pathHashMode : Option Int) : Prop :=
  ∀ p ∈ unpackPathLength (pathLen.getD (-1)) pathHashMode,
    p.1 = -1 ∨ PathFits (pathHex.getD []) p.1 (effectiveHashMode p.2)

theorem trimRoute_fits_iff {path : Text} {pathLen mode : Int} (hlen : pathLen ≠ -1)
    (hmode : 0 ≤ mode ∧ mode ≤ 2) :
    (trimRoute path pathLen mode).Fits ↔ PathFits path pathLen mode := by
  -- with the mode fixed, every length is linear in the announced one
  obtain rfl | rfl | rfl : mode = 0 ∨ mode = 1 ∨ mode = 2 := by omega
  all_goals
    unfold trimRoute PathFits ContactRoute.Fits maxPathSize
    by_cases hpath : path = []
    · simp only [hpath, if_true, List.length_nil]
      omega
    · have hpos : path.length ≠ 0 := by simpa using hpath
      simp only [hpath, if_false]
      split
      next hcut =>
        rw [if_pos hcut.1]
        simp only [List.length_take]
        omega
      next hcut =>
        split
        next hwhole =>
          rw [if_neg (by omega)]
          simp only [hpath, and_false, false_or]
          omega
        next hwhole =>
          simp only [hpath, and_false, false_or]
          split <;> omega

/-- Normalization yields a route that the firmware can hold exactly when its arguments
describe one. -/
theorem normalizeContactRoute_fits_iff (pathHex : Option Text) (pathLen pathHashMode : Option Int) :
    (normalizeContactRoute pathHex pathLen pathHashMode).Fits ↔
      RouteFits pathHex pathLen pathHashMode := by
  unfold normalizeContactRoute RouteFits
  cases hunpack : unpackPathLength (pathLen.getD (-1)) pathHashMode with
  | none =>
      refine iff_of_true (Or.inl ⟨rfl, rfl⟩) ?_
      simp
  | some p =>
      obtain ⟨len, mode⟩ := p
      simp only [Option.mem_def, Option.some.injEq, forall_eq']
      by_cases hflood : len = -1
      · rw [if_pos hflood]
        exact iff_of_true (Or.inl ⟨rfl, rfl⟩) (Or.inl hflood)
      · rw [if_neg hflood, trimRoute_fits_iff hflood (effectiveHashMode_range mode)]
        exact (or_iff_right hflood).symm

end Normalize

/-- The route columns of a `contacts` row. -/
structure RouteColumns where
  directPath : Option Text := none
  directPathLen : Option Int := none
  directPathHashMode : Option Int := none
  routeOverridePath : Option Text := none
  routeOverrideLen : Option Int := none
  routeOverrideHashMode : Option Int := none
  deriving DecidableEq

/-- The fields of a radio contact that hold its route; a missing key is `none`. -/
structure RadioRoute where
  outPath : Option Text
  outPathLen : Option Int
  outPathHashMode : Option Int
  deriving DecidableEq

namespace RouteColumns

/-- The columns of a direct route. -/
def setDirect (c : RouteColumns) (r : ContactRoute) : RouteColumns :=
  { c with
    directPath := some r.path
    directPathLen := some r.pathLen
    directPathHashMode := some r.pathHashMode }

/-- The columns of a route override. -/
def setOverride (c : RouteColumns) (r : Option ContactRoute) : RouteColumns :=
  { c with
    routeOverridePath := r.map ContactRoute.path
    routeOverrideLen := r.map ContactRoute.pathLen
    routeOverrideHashMode := r.map ContactRoute.pathHashMode }

/-- The route columns that `update_direct_path` leaves. -/
def updateDirectPath (c : RouteColumns) (path : Text) (pathLen : Int) (pathHashMode : Option Int) :
    RouteColumns :=
  c.setDirect (normalizeContactRoute (some path) (some pathLen) pathHashMode)

/-- The route columns that `upsert` leaves for a contact with direct route fields. -/
def upsertDirect (c : RouteColumns) (path : Option Text) (pathLen pathHashMode : Option Int) :
    RouteColumns :=
  if path = none ∧ pathLen = none ∧ pathHashMode = none then c
  else c.setDirect (normalizeContactRoute path pathLen pathHashMode)

/-- The route columns that `set_routing_override` leaves. -/
def setRoutingOverride (c : RouteColumns) (path : Option Text) (pathLen pathHashMode : Option Int) :
    RouteColumns :=
  c.setOverride (normalizeRouteOverride path pathLen pathHashMode)

/-- `clear_routing_override`. -/
def clearRoutingOverride (c : RouteColumns) : RouteColumns := c.setOverride none

/-- `Contact.direct_route`, as a contact read from the database has it. -/
def directRoute (c : RouteColumns) : ContactRoute :=
  normalizeContactRoute c.directPath (some (c.directPathLen.getD (-1)))
    (some (c.directPathHashMode.getD (-1)))

/-- `Contact.route_override`. -/
def routeOverride (c : RouteColumns) : Option ContactRoute :=
  normalizeRouteOverride c.routeOverridePath c.routeOverrideLen c.routeOverrideHashMode

/-- `Contact.effective_route_tuple`: the routes of a contact are normalized once more. -/
def effectiveRoute (c : RouteColumns) : ContactRoute :=
  match c.routeOverride with
  | some r => normalizeContactRoute (some r.path) (some r.pathLen) (some r.pathHashMode)
  | none =>
      if c.directRoute.pathLen ≥ 0 then
        normalizeContactRoute (some c.directRoute.path) (some c.directRoute.pathLen)
          (some c.directRoute.pathHashMode)
      else .flood

/-- The route fields of `Contact.to_radio_dict`. -/
def toRadioDict (c : RouteColumns) : RadioRoute :=
  ⟨some c.effectiveRoute.path, some c.effectiveRoute.pathLen, some c.effectiveRoute.pathHashMode⟩

end RouteColumns

end RemoteTerm
