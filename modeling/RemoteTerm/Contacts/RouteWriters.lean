import RemoteTerm.Contacts.Routes
import RemoteTerm.Decoder.PathPayload

/-!
# The writers of contact routes

The statements that write the route columns of a contact: decrypted PATH packets,
`PATH_UPDATE` events, contacts read from the radio, path discovery and manual
overrides. Each writer stores what `normalize_contact_route` returns, so a stored
route can exceed what the firmware holds; it does so exactly when the writer's
input announces such a route.
-/

namespace RemoteTerm

open Library

/-- The direct route of `ContactUpsert.from_radio_dict`. -/
def fromRadioDict (r : RadioRoute) : ContactRoute :=
  normalizeContactRoute r.outPath (some (r.outPathLen.getD (-1)))
    (some (r.outPathHashMode.getD (if r.outPathLen.getD (-1) = -1 then -1 else 0)))

/-- `_path_hash_mode_from_hop_width`; `none` is not an integer. -/
def pathHashModeFromHopWidth : Option Int → Int
  | none => 0
  | some hopWidth => max 0 (min (hopWidth - 1) 2)

/-- The route that `set_contact_routing_override` stores for its text; `none` clears it. -/
def overrideOfText (routeText : Text) : Except String (Option ContactRoute) :=
  let routeText := strip routeText
  if routeText = [] then pure none
  else if routeText = "-1".toList then pure (some .flood)
  else if routeText = "0".toList then pure (some ⟨[], 0, 0⟩)
  else do
    let route ← parseExplicitHopRoute routeText
    pure (some route)

/-- A write to the route columns, with the input of its writer: a PATH packet that is
decrypted, a `PATH_UPDATE` event (whose hash mode may be absent or not an integer), a contact
read from the radio, a path discovery response, and the text of a manual override. -/
inductive RouteWrite where
  | pathPacket (crypto : Crypto) (payload sharedSecret : Bytes)
  | pathUpdate (path : Option Text) (pathLen : Option Int) (pathHashMode : Option (Option Int))
  | radioContact (r : RadioRoute)
  | pathDiscovery (outPath : Option Text) (outPathLen outPathHashLen : Option Int)
  | routingOverride (routeText : Text)

namespace RouteWrite

/-- The hash mode of a `PATH_UPDATE` event. -/
def updateHashMode (pathLen : Int) : Option (Option Int) → Option Int
  | none => some (if pathLen = -1 then -1 else 0)
  | some mode => mode

/-- The route columns after a write. -/
def apply (c : RouteColumns) : RouteWrite → RouteColumns
  | .pathPacket crypto payload sharedSecret =>
      match decryptPathPayload crypto payload sharedSecret with
      | none => c
      | some p => c.updateDirectPath (hexOfBytes p.returnedPath) p.returnedPathLen
          (some p.returnedPathHashMode)
  | .pathUpdate path pathLen pathHashMode =>
      match path, pathLen with
      | some path, some pathLen =>
          c.updateDirectPath path pathLen (updateHashMode pathLen pathHashMode)
      | _, _ => c
  | .radioContact r =>
      let route := fromRadioDict r
      c.upsertDirect (some route.path) (some route.pathLen) (some route.pathHashMode)
  | .pathDiscovery outPath outPathLen outPathHashLen =>
      c.updateDirectPath (outPath.getD []) (outPathLen.getD 0)
        (some (pathHashModeFromHopWidth outPathHashLen))
  | .routingOverride routeText =>
      match overrideOfText routeText with
      | .error _ => c
      | .ok none => c.clearRoutingOverride
      | .ok (some r) => c.setRoutingOverride (some r.path) (some r.pathLen) (some r.pathHashMode)

/-- The input of a write describes a route that the firmware can hold. -/
def Fits : RouteWrite → Prop
  | .pathPacket crypto payload sharedSecret =>
      ∀ p ∈ decryptPathPayload crypto payload sharedSecret, p.returnedPath.length ≤ maxPathSize
  | .pathUpdate path pathLen pathHashMode => ∀ path' ∈ path, ∀ pathLen' ∈ pathLen,
      RouteFits (some path') (some pathLen') (updateHashMode pathLen' pathHashMode)
  | .radioContact r =>
      RouteFits (some (fromRadioDict r).path) (some (fromRadioDict r).pathLen)
        (some (fromRadioDict r).pathHashMode)
  | .pathDiscovery outPath outPathLen outPathHashLen =>
      RouteFits (some (outPath.getD [])) (some (outPathLen.getD 0))
        (some (pathHashModeFromHopWidth outPathHashLen))
  | .routingOverride _ => True

end RouteWrite

/-- Three columns hold no route, or one that fits the firmware. -/
def columnsFit : Option Text → Option Int → Option Int → Prop
  | none, none, none => True
  | some path, some pathLen, some pathHashMode => ContactRoute.Fits ⟨path, pathLen, pathHashMode⟩
  | _, _, _ => False

instance (path : Option Text) (pathLen pathHashMode : Option Int) :
    Decidable (columnsFit path pathLen pathHashMode) := by
  unfold columnsFit
  split <;> infer_instance

/-- The stored routes and the route that is pushed to the radio fit the firmware. -/
structure RouteColumns.Fits (c : RouteColumns) : Prop where
  direct : columnsFit c.directPath c.directPathLen c.directPathHashMode
  override : columnsFit c.routeOverridePath c.routeOverrideLen c.routeOverrideHashMode
  pushed : c.effectiveRoute.Fits

section Fits

variable {c : RouteColumns} {r : ContactRoute}

theorem routeFits_of_fits (h : r.Fits) :
    RouteFits (some r.path) (some r.pathLen) (some r.pathHashMode) := by
  intro p hp
  have hrange : ¬ (r.pathLen < -1 ∨ r.pathLen > 63) := by
    rcases h with ⟨hlen, -⟩ | ⟨hlow, hhigh, -⟩ <;> omega
  rw [Option.getD_some, unpackPathLength, if_neg hrange, Option.mem_some_iff] at hp
  obtain rfl := hp
  rcases h with ⟨hlen, -⟩ | ⟨hlow, hhigh, hmode, hmode', hlength, hsize⟩
  · exact Or.inl hlen
  · right
    rw [Option.getD_some, effectiveHashMode_of_range ⟨hmode, hmode'⟩, PathFits]
    unfold maxPathSize at hsize ⊢
    have hmode3 : r.pathHashMode = 0 ∨ r.pathHashMode = 1 ∨ r.pathHashMode = 2 := by omega
    rcases hmode3 with hm | hm | hm
    all_goals
      rw [hm] at hlength hsize ⊢
      by_cases hpath : r.path = []
      · simp only [hpath, if_true, List.length_nil] at hlength ⊢
        omega
      · rw [if_neg hpath, if_neg (by omega)]
        omega

theorem normalize_fits (h : r.Fits) :
    (normalizeContactRoute (some r.path) (some r.pathLen) (some r.pathHashMode)).Fits :=
  (normalizeContactRoute_fits_iff _ _ _).mpr (routeFits_of_fits h)

theorem flood_fits : ContactRoute.flood.Fits := Or.inl ⟨rfl, rfl⟩

theorem directRoute_fits (h : columnsFit c.directPath c.directPathLen c.directPathHashMode) :
    c.directRoute.Fits := by
  unfold RouteColumns.directRoute
  cases hpath : c.directPath <;> cases hlen : c.directPathLen <;>
    cases hmode : c.directPathHashMode <;> simp only [hpath, hlen, hmode, columnsFit] at h
  · exact flood_fits
  · exact normalize_fits h

theorem effectiveRoute_fits (hdirect : columnsFit c.directPath c.directPathLen c.directPathHashMode)
    (hoverride : columnsFit c.routeOverridePath c.routeOverrideLen c.routeOverrideHashMode) :
    c.effectiveRoute.Fits := by
  unfold RouteColumns.effectiveRoute
  cases hr : c.routeOverride with
  | none =>
      dsimp only
      split
      · exact normalize_fits (directRoute_fits hdirect)
      · exact flood_fits
  | some r =>
      apply normalize_fits
      unfold RouteColumns.routeOverride at hr
      cases hpath : c.routeOverridePath <;> cases hlen : c.routeOverrideLen <;>
        cases hmode : c.routeOverrideHashMode <;>
        simp only [hpath, hlen, hmode, columnsFit, normalizeRouteOverride, reduceCtorEq] at hoverride hr
      exact Option.some.inj hr ▸ normalize_fits hoverride

/-- A direct route is written: the columns fit when it does. -/
theorem setDirect_fits_iff (h : c.Fits) : (c.setDirect r).Fits ↔ r.Fits :=
  ⟨fun hc => hc.direct, fun hr => ⟨hr, h.override, effectiveRoute_fits hr h.override⟩⟩

theorem updateDirectPath_fits_iff (h : c.Fits) (path : Text) (pathLen : Int)
    (pathHashMode : Option Int) :
    (c.updateDirectPath path pathLen pathHashMode).Fits ↔
      RouteFits (some path) (some pathLen) pathHashMode :=
  (setDirect_fits_iff h).trans (normalizeContactRoute_fits_iff _ _ _)

theorem clearRoutingOverride_fits (h : c.Fits) : c.clearRoutingOverride.Fits :=
  ⟨h.direct, trivial, effectiveRoute_fits h.direct trivial⟩

theorem setRoutingOverride_fits (h : c.Fits)
    (hr : RouteFits (some r.path) (some r.pathLen) (some r.pathHashMode)) :
    (c.setRoutingOverride (some r.path) (some r.pathLen) (some r.pathHashMode)).Fits := by
  have hroute := (normalizeContactRoute_fits_iff _ _ _).mpr hr
  exact ⟨h.direct, hroute, effectiveRoute_fits h.direct hroute⟩

end Fits

section Override

theorem checkHops_length {n : Nat} {hops : List Text} (h : checkHops n hops = .ok ()) :
    ∀ hop ∈ hops, hop.length = n := by
  induction hops with
  | nil => simp
  | cons hop rest ih =>
      unfold checkHops at h
      split at h
      · exact nomatch h
      next hlen =>
        split at h
        · exact nomatch h
        · intro x hx
          rcases List.mem_cons.mp hx with rfl | hx
          · simpa using hlen
          · exact ih h x hx

theorem length_flatten_of_length {n : Nat} {hops : List Text} (h : ∀ hop ∈ hops, hop.length = n) :
    hops.flatten.length = hops.length * n := by
  induction hops with
  | nil => simp
  | cons hop rest ih =>
      rw [List.flatten_cons, List.length_append, h hop (by simp),
        ih fun x hx => h x (List.mem_cons_of_mem _ hx), List.length_cons]
      rw [Nat.succ_mul, Nat.add_comm]

/-- An explicit route has whole hops of one to three bytes and at most `MAX_PATH_SIZE` bytes. -/
theorem routeOfHops_spec {hops : List Text} {r : ContactRoute} (h : routeOfHops hops = .ok r) :
    ∃ n size : Nat, 1 ≤ n ∧ 1 ≤ size ∧ size ≤ 3 ∧ n * size ≤ maxPathSize ∧
      r.pathLen = n ∧ r.pathHashMode = size - 1 ∧ r.path.length = n * (2 * size) := by
  cases hops with
  | nil => exact nomatch h
  | cons first rest =>
      simp only [routeOfHops] at h
      split at h
      · exact nomatch h
      next hwidth =>
        cases hcheck : checkHops first.length (first :: rest) with
        | error e =>
            rw [hcheck] at h
            exact nomatch h
        | ok _ =>
            simp only [hcheck, bind, Except.bind] at h
            split at h
            · exact nomatch h
            next hsize =>
              obtain rfl := Except.ok.inj h
              obtain ⟨size, hsize2⟩ : ∃ size, first.length = 2 * size :=
                ⟨first.length / 2, by omega⟩
              have hhalf : first.length / 2 = size := by omega
              rw [hhalf, pathWireLen] at hsize
              refine ⟨rest.length + 1, size, by omega, by omega, by omega, by omega, by simp, ?_, ?_⟩
              · simp only [hsize2]
                omega
              · rw [← hsize2]
                exact length_flatten_of_length (checkHops_length hcheck)

/-- What a manual override hands to the repository is a route that fits; 64 one-byte hops are
taken for a packed byte that stands for none. -/
theorem overrideOfText_routeFits {routeText : Text} {r : ContactRoute}
    (h : overrideOfText routeText = .ok (some r)) :
    RouteFits (some r.path) (some r.pathLen) (some r.pathHashMode) := by
  simp only [overrideOfText] at h
  split at h
  · exact nomatch h
  · split at h
    · obtain rfl := Option.some.inj (Except.ok.inj h)
      exact routeFits_of_fits flood_fits
    · split at h
      · obtain rfl := Option.some.inj (Except.ok.inj h)
        exact routeFits_of_fits (by decide)
      · cases hparse : parseExplicitHopRoute (strip routeText) with
        | error e => simp [hparse, bind, Except.bind] at h
        | ok route =>
            simp only [hparse, bind, Except.bind] at h
            obtain rfl := Option.some.inj (Except.ok.inj h)
            obtain ⟨n, size, hn, hone, hthree, hbytes, hlen, hmode, hlength⟩ :=
              routeOfHops_spec hparse
            by_cases hn64 : n = 64
            · -- 64 is a packed byte: no hops, of two bytes each
              subst hn64
              obtain rfl : size = 1 := by
                unfold maxPathSize at hbytes
                omega
              intro p hp
              have hp' : p = (0, some 1) := by
                rw [hlen] at hp
                exact (Option.mem_some_iff.mp hp).symm
              obtain rfl := hp'
              right
              have hpath : route.path ≠ [] := by
                intro hnil
                rw [hnil] at hlength
                exact absurd hlength (by decide)
              rw [Option.getD_some, PathFits, if_neg hpath, if_pos]
              · decide
              · rw [hlength]
                decide
            · apply routeFits_of_fits
              right
              unfold maxPathSize at hbytes ⊢
              obtain rfl | rfl | rfl : size = 1 ∨ size = 2 ∨ size = 3 := by omega
              all_goals
                rw [hlen, hmode, hlength]
                omega

end Override

/-- A decrypted route fits exactly when it is not longer than `MAX_PATH_SIZE`. -/
theorem decrypted_routeFits_iff {crypto : Crypto} {payload secret : Bytes}
    {p : DecryptedPathPayload} (h : decryptPathPayload crypto payload secret = some p) :
    RouteFits (some (hexOfBytes p.returnedPath)) (some p.returnedPathLen)
        (some p.returnedPathHashMode) ↔ p.returnedPath.length ≤ maxPathSize := by
  obtain ⟨hlen, hmode, hlength⟩ := decryptPathPayload_route h
  have hrange : ¬ ((p.returnedPathLen : Int) < -1 ∨ (p.returnedPathLen : Int) > 63) := by omega
  have hhex : (hexOfBytes p.returnedPath).length = 2 * p.returnedPath.length :=
    length_hexOfBytes _
  rw [RouteFits, Option.getD_some, unpackPathLength, if_neg hrange]
  simp only [Option.mem_def, Option.some.injEq, forall_eq']
  rw [effectiveHashMode_of_range (by omega), Option.getD_some,
    or_iff_right (by omega), PathFits]
  unfold maxPathSize
  have hmode3 : p.returnedPathHashMode = 0 ∨ p.returnedPathHashMode = 1 ∨
    p.returnedPathHashMode = 2 := by omega
  rcases hmode3 with hm | hm | hm
  all_goals
    rw [hm] at hlength ⊢
    by_cases hpath : hexOfBytes p.returnedPath = []
    · rw [hpath, List.length_nil] at hhex
      simp only [hpath, if_true]
      omega
    · rw [if_neg hpath, if_neg (by omega)]
      omega

/-- After a write to columns that fit the firmware, the stored routes and the pushed one fit
exactly when the input of the writer describes a route that does. -/
theorem stored_routes_fit_iff {c : RouteColumns} (h : c.Fits) (w : RouteWrite) :
    (RouteWrite.apply c w).Fits ↔ w.Fits := by
  cases w with
  | pathPacket crypto payload sharedSecret =>
      simp only [RouteWrite.apply, RouteWrite.Fits]
      cases hdecrypt : decryptPathPayload crypto payload sharedSecret with
      | none => simpa using h
      | some p =>
          simp only [Option.mem_def, Option.some.injEq, forall_eq']
          rw [updateDirectPath_fits_iff h]
          exact decrypted_routeFits_iff hdecrypt
  | pathUpdate path pathLen pathHashMode =>
      simp only [RouteWrite.apply, RouteWrite.Fits]
      cases path with
      | none => simpa using h
      | some path =>
          cases pathLen with
          | none => simpa using h
          | some pathLen =>
              simp only [Option.mem_def, Option.some.injEq, forall_eq']
              exact updateDirectPath_fits_iff h _ _ _
  | radioContact r =>
      exact (setDirect_fits_iff h).trans (normalizeContactRoute_fits_iff _ _ _)
  | pathDiscovery outPath outPathLen outPathHashLen => exact updateDirectPath_fits_iff h _ _ _
  | routingOverride routeText =>
      refine iff_of_true ?_ trivial
      simp only [RouteWrite.apply]
      cases hoverride : overrideOfText routeText with
      | error e => exact h
      | ok r =>
          cases r with
          | none => exact clearRoutingOverride_fits h
          | some r => exact setRoutingOverride_fits h (overrideOfText_routeFits hoverride)

section Sample

/-- The columns of a new contact. -/
theorem fresh_fits : RouteColumns.Fits {} :=
  ⟨trivial, trivial, flood_fits⟩

/-- An event with a route of two hops. -/
def twoHopUpdate : RouteWrite := .pathUpdate (some "aabb".toList) (some 2) none

theorem stored_routes_fit_iff_twoHopUpdate :
    (RouteWrite.apply {} twoHopUpdate).Fits ↔ twoHopUpdate.Fits :=
  stored_routes_fit_iff fresh_fits twoHopUpdate

/-- A secret shared with a contact. -/
def pathSecret : Bytes :=
  [0xd5, 0xa0, 0x46, 0x7d, 0xc7, 0xdc, 0x04, 0x4f, 0xaa, 0xc2, 0xa0, 0x13, 0xd8, 0x7a, 0xa7, 0x3a,
    0x22, 0x97, 0xb2, 0x88, 0xe0, 0x2c, 0x8e, 0x92, 0x58, 0x62, 0x0e, 0xed, 0x6b, 0xa1, 0xdf, 0x76]

/-- A route of 22 hops of three bytes each, and an acknowledgement. -/
def longPathPlaintext : Bytes :=
  0x96 :: List.replicate 66 0xaa ++ [0x03, 0x0b, 0xad, 0xca, 0xfe] ++ List.replicate 8 0x00

def longPathCiphertext : Bytes :=
  [0xfe, 0x00, 0xd2, 0x55, 0x1c, 0x95, 0x67, 0x44, 0x1c, 0x0d, 0x5e, 0xa8, 0x6a, 0x25, 0x10, 0x67]
    ++ (List.replicate 3 [0xa0, 0x39, 0xd7, 0x21, 0x6d, 0xc6, 0x62, 0x82, 0xbe, 0xbc, 0x10, 0x15,
      0xc1, 0xe4, 0x5a, 0xcf]).flatten
    ++ [0xaf, 0x64, 0xb2, 0x18, 0x19, 0x76, 0x41, 0xa0, 0x1b, 0x72, 0xe6, 0x66, 0x2f, 0xa7, 0x27,
      0x83]

/-- The values of the real primitives on the packet. -/
def longPathCrypto : Crypto where
  sha256 _ := []
  hmacSha256 k b :=
    if k = pathSecret ∧ b = longPathCiphertext then
      [0x64, 0x92, 0x2b, 0xe6, 0xc6, 0xaa, 0x64, 0x72, 0x76, 0x92, 0xf7, 0x70, 0x19, 0xe7, 0x88,
        0xa4, 0x33, 0x88, 0x24, 0xe5, 0x2c, 0x19, 0xd3, 0xbb, 0x4c, 0x90, 0x72, 0x70, 0xd8, 0x8c,
        0x55, 0xfb]
    else []
  aesEcbDecrypt k b :=
    if k = pathSecret.take 16 ∧ b = longPathCiphertext then some longPathPlaintext else none
  deriveSharedSecret _ _ := some pathSecret
  derivePublicKey _ := []

/-- The packet of that route. -/
def longPathPacket : RouteWrite :=
  .pathPacket longPathCrypto ([0x5d, 0x5d, 0x64, 0x92] ++ longPathCiphertext) pathSecret

/-- The route of 66 bytes is stored. -/
theorem long_path_stored :
    (RouteWrite.apply {} longPathPacket).directPathLen = some 22 ∧
      (RouteWrite.apply {} longPathPacket).directPathHashMode = some 2 ∧
      ¬ (RouteWrite.apply {} longPathPacket).Fits := by
  refine ⟨by decide +kernel, by decide +kernel, fun h => ?_⟩
  exact absurd h.direct (by decide +kernel)

end Sample

end RemoteTerm
