import RemoteTerm.Contacts.RouteWriters

/-!
# Route overrides and learned routes

The radio has one route field for a contact. The app pushes the effective route
to it, an override included, and reads it back as the direct route. As long as no
contact is read back while the radio holds an override, the stored direct route
is the last route learned from the mesh.

## Implementation notes

The state records, beside what the app and the radio store, the last learned
route and whether the radio's route was pushed from an override. The radio
receives a PATH packet before the app does and takes its route over as well.
`PATH_UPDATE` events and path discovery, which write direct routes too, are no
events here.
-/

namespace RemoteTerm

open Library

/-- One contact in the app and on the radio, with the history that the route fields lose. -/
structure RoutedContact where
  columns : RouteColumns
  radio : Option RadioRoute
  radioHoldsOverride : Bool
  learned : ContactRoute

/-- What may happen to the route of a contact. -/
inductive RoutingEvent where
  | setRoutingOverride (routeText : Text) (pushed : Bool)
  | push
  | syncFromRadio
  | pathPacket (crypto : Crypto) (payload sharedSecret : Bytes)

namespace RoutedContact

/-- A contact that nothing is known of. -/
def fresh : RoutedContact := ⟨{}, none, false, .flood⟩

/-- `add_contact(contact.to_radio_dict())`. -/
def push (s : RoutedContact) : RoutedContact :=
  { s with
    radio := some s.columns.toRadioDict
    radioHoldsOverride := s.columns.routeOverride.isSome }

/-- The route of a decrypted PATH packet. -/
def learnedRoute (p : DecryptedPathPayload) : ContactRoute :=
  ⟨hexOfBytes p.returnedPath, p.returnedPathLen, p.returnedPathHashMode⟩

/-- The fields of a radio contact that hold a route. -/
def radioRoute (r : ContactRoute) : RadioRoute := ⟨some r.path, some r.pathLen, some r.pathHashMode⟩

/-- The contact after an event. -/
def apply (s : RoutedContact) : RoutingEvent → RoutedContact
  | .setRoutingOverride routeText pushed =>
      match overrideOfText routeText with
      | .error _ => s
      | .ok _ =>
          let updated := { s with columns := RouteWrite.apply s.columns (.routingOverride routeText) }
          if pushed then updated.push else updated
  | .push => s.push
  | .syncFromRadio =>
      match s.radio with
      | none => s
      | some r => { s with columns := RouteWrite.apply s.columns (.radioContact r) }
  | .pathPacket crypto payload sharedSecret =>
      match decryptPathPayload crypto payload sharedSecret with
      | none => s
      | some p =>
          { columns := RouteWrite.apply s.columns (.pathPacket crypto payload sharedSecret)
            radio := s.radio.map fun _ => radioRoute (learnedRoute p)
            radioHoldsOverride := false
            learned := learnedRoute p }

/-- The contact is not read back while the radio holds an override. -/
def ReadsBackLearned (s : RoutedContact) : RoutingEvent → Prop
  | .syncFromRadio => s.radioHoldsOverride = false
  | _ => True

/-- A run whose events all meet a condition on the state before them. -/
inductive Run (ok : RoutedContact → RoutingEvent → Prop) : RoutedContact → RoutedContact → Prop
  | refl (s : RoutedContact) : Run ok s s
  | tail {s t : RoutedContact} {e : RoutingEvent} (run : Run ok s t) (hok : ok t e) :
      Run ok s (t.apply e)

/-- Normalization leaves the route as it is, and one without a path is a flood route. -/
structure IsNormal (r : ContactRoute) : Prop where
  fixed : normalizeContactRoute (some r.path) (some r.pathLen) (some r.pathHashMode) = r
  flood : r.pathLen < 0 → r = .flood

theorem isNormal_flood : IsNormal .flood := ⟨rfl, fun _ => rfl⟩

theorem isNormal_learnedRoute {crypto : Crypto} {payload secret : Bytes}
    {p : DecryptedPathPayload} (h : decryptPathPayload crypto payload secret = some p) :
    IsNormal (learnedRoute p) := by
  obtain ⟨hlen, hmode, hlength⟩ := decryptPathPayload_route h
  have hrange : ¬ ((p.returnedPathLen : Int) < -1 ∨ (p.returnedPathLen : Int) > 63) := by omega
  have hhex : (hexOfBytes p.returnedPath).length = 2 * p.returnedPath.length :=
    length_hexOfBytes _
  have hunpack : unpackPathLength p.returnedPathLen (some (p.returnedPathHashMode : Int)) =
      some ((p.returnedPathLen : Int), some (p.returnedPathHashMode : Int)) := by
    rw [unpackPathLength, if_neg hrange]
  have hbytes : (((hexOfBytes p.returnedPath).length / 2 : Nat) : Int) =
      p.returnedPathLen * (p.returnedPathHashMode + 1) := by
    rw [hhex, Nat.mul_div_cancel_left _ (by decide), hlength]
    norm_cast
  refine ⟨?_, fun hneg => absurd hneg (by simp [learnedRoute])⟩
  change normalizeContactRoute (some (hexOfBytes p.returnedPath)) (some (p.returnedPathLen : Int))
    (some (p.returnedPathHashMode : Int)) = _
  rw [normalizeContactRoute, Option.getD_some, hunpack]
  dsimp only
  rw [if_neg (by omega), effectiveHashMode_of_range (by omega), Option.getD_some, trimRoute]
  split
  · rfl
  · simp only [hbytes]
    rw [if_neg (by omega), if_neg (by omega)]
    rfl

/-- The stored direct route is the learned one, and so is the radio's unless it holds an
override. -/
structure OnTrack (s : RoutedContact) : Prop where
  normal : IsNormal s.learned
  direct : s.columns.directRoute = s.learned
  radio : s.radioHoldsOverride = false → ∀ r ∈ s.radio, fromRadioDict r = s.learned

theorem onTrack_fresh : fresh.OnTrack := ⟨isNormal_flood, rfl, fun _ _ h => nomatch h⟩

section Steps

variable {s : RoutedContact}

/-- Without an override the effective route is the learned one. -/
theorem OnTrack.effectiveRoute (h : s.OnTrack) (hnone : s.columns.routeOverride = none) :
    s.columns.effectiveRoute = s.learned := by
  unfold RouteColumns.effectiveRoute
  rw [hnone, h.direct]
  dsimp only
  split
  · exact h.normal.fixed
  next hneg => exact (h.normal.flood (by omega)).symm

theorem OnTrack.push (h : s.OnTrack) : s.push.OnTrack where
  normal := h.normal
  direct := h.direct
  radio := by
    intro hheld r hr
    have hnone : s.columns.routeOverride = none := by
      simpa [RoutedContact.push] using hheld
    obtain rfl := Option.some.inj hr
    change normalizeContactRoute (some s.columns.effectiveRoute.path)
      (some s.columns.effectiveRoute.pathLen) (some s.columns.effectiveRoute.pathHashMode) = _
    rw [h.effectiveRoute hnone]
    exact h.normal.fixed

/-- An override leaves the direct route alone. -/
theorem OnTrack.override (h : s.OnTrack) (r : Option ContactRoute) :
    OnTrack { s with columns := s.columns.setOverride r } :=
  ⟨h.normal, h.direct, h.radio⟩

theorem OnTrack.setRoutingOverride (h : s.OnTrack) (routeText : Text) :
    OnTrack { s with columns := RouteWrite.apply s.columns (.routingOverride routeText) } := by
  simp only [RouteWrite.apply]
  cases overrideOfText routeText with
  | error e => exact h
  | ok r =>
      cases r with
      | none => exact h.override none
      | some r => exact h.override _

theorem directRoute_setDirect {c : RouteColumns} {r : ContactRoute} (h : IsNormal r) :
    (c.setDirect r).directRoute = r :=
  h.fixed

/-- One event keeps the contact on track, if it does not read an override back. -/
theorem OnTrack.step (h : s.OnTrack) {e : RoutingEvent} (hok : s.ReadsBackLearned e) :
    (s.apply e).OnTrack := by
  cases e with
  | setRoutingOverride routeText pushed =>
      simp only [apply]
      split
      · exact h
      · split
        · exact (h.setRoutingOverride routeText).push
        · exact h.setRoutingOverride routeText
  | push => exact h.push
  | syncFromRadio =>
      simp only [apply]
      cases hradio : s.radio with
      | none => exact h
      | some r =>
          have hlearned : fromRadioDict r = s.learned := h.radio hok r hradio
          have hcolumns : RouteWrite.apply s.columns (.radioContact r) =
              s.columns.setDirect s.learned := by
            change s.columns.setDirect (normalizeContactRoute (some (fromRadioDict r).path)
              (some (fromRadioDict r).pathLen) (some (fromRadioDict r).pathHashMode)) = _
            rw [hlearned, h.normal.fixed]
          dsimp only
          rw [hcolumns]
          exact ⟨h.normal, directRoute_setDirect h.normal, fun hheld => hradio ▸ h.radio hheld⟩
  | pathPacket crypto payload sharedSecret =>
      simp only [apply]
      cases hdecrypt : decryptPathPayload crypto payload sharedSecret with
      | none => exact h
      | some p =>
          have hnormal := isNormal_learnedRoute hdecrypt
          have hcolumns : RouteWrite.apply s.columns (.pathPacket crypto payload sharedSecret) =
              s.columns.setDirect (learnedRoute p) := by
            simp only [RouteWrite.apply, hdecrypt, RouteColumns.updateDirectPath]
            exact congrArg _ hnormal.fixed
          dsimp only
          rw [hcolumns]
          refine ⟨hnormal, directRoute_setDirect hnormal, fun _ r hr => ?_⟩
          obtain ⟨_, -, rfl⟩ := Option.map_eq_some_iff.mp hr
          exact hnormal.fixed

theorem Run.onTrack {t : RoutedContact} (run : Run ReadsBackLearned s t) (h : s.OnTrack) :
    t.OnTrack := by
  induction run with
  | refl => exact h
  | tail _ hok ih => exact ih.step hok

end Steps

/-- In a run that never reads an override back from the radio, the stored direct route is the
last learned one, and so is the effective route once no override is set. -/
theorem direct_route_learned {s : RoutedContact} (run : Run ReadsBackLearned fresh s) :
    s.columns.directRoute = s.learned ∧
      (s.columns.routeOverride = none → s.columns.effectiveRoute = s.learned) := by
  have htrack := run.onTrack onTrack_fresh
  exact ⟨htrack.direct, htrack.effectiveRoute⟩

section Sample

/-- An override that is pushed and cleared, and a contact read back after that. -/
theorem direct_route_learned_cleared :
    let s := ((fresh.apply (.setRoutingOverride "aa,bb".toList true)).apply
      (.setRoutingOverride [] true)).apply .syncFromRadio
    s.columns.directRoute = s.learned ∧
      (s.columns.routeOverride = none → s.columns.effectiveRoute = s.learned) := by
  apply direct_route_learned
  refine Run.tail (Run.tail (Run.tail (.refl _) trivial) trivial) ?_
  change RoutedContact.radioHoldsOverride _ = false
  decide +kernel

/-- An override that is read back while it is set stays as the direct route. -/
theorem override_read_back :
    let s := ((fresh.apply (.setRoutingOverride "aa,bb".toList true)).apply .syncFromRadio).apply
      (.setRoutingOverride [] true)
    Run (fun _ _ => True) fresh s ∧ s.learned = .flood ∧ s.columns.routeOverride = none ∧
      s.columns.effectiveRoute = ⟨"aabb".toList, 2, 0⟩ := by
  refine ⟨Run.tail (Run.tail (Run.tail (.refl _) trivial) trivial) trivial, ?_⟩
  decide +kernel

end Sample

end RoutedContact

end RemoteTerm
