import RemoteTerm.Frontend.PathFraming
import RemoteTerm.Library.Walk

/-!
# The length of a path

`resolvePath` looks up the repeaters of a path, the distance of each hop from the
point before it, and the total over the legs whose ends are both known. The total
leaves out the last leg when the sender has no location and the last hop is the
first one that has.

## Implementation notes

Distances between two locations are any function into values that are added and
compared; a coordinate is a rational number.
-/

namespace RemoteTerm

open Library

namespace PathDistance

variable {D : Type}

/-- Latitude and longitude. -/
abbrev Location := ℚ × ℚ

/-- The fields of a contact that are read. -/
structure Contact where
  public_key : Text
  type : Nat
  lat : Option ℚ
  lon : Option ℚ
deriving DecidableEq

/-- A place with coordinates: `SenderInfo`, or the receiver from the radio's configuration. -/
structure Place where
  lat : Option ℚ
  lon : Option ℚ

/-- `CONTACT_TYPE_REPEATER`. -/
def contactTypeRepeater : Nat := 2

/-- `isValidLocation`. -/
def isValidLocation (lat lon : Option ℚ) : Bool :=
  match lat, lon with
  | some lat, some lon =>
      if lat < -90 ∨ lat > 90 ∨ lon < -180 ∨ lon > 180 then false
      else if lat = 0 ∧ lon = 0 then false
      else true
  | _, _ => false

/-- `calculateDistance`. -/
def calculateDistance (distance : Location → Location → D) (lat1 lon1 lat2 lon2 : Option ℚ) :
    Option D :=
  match lat1, lon1, lat2, lon2 with
  | some lat1, some lon1, some lat2, some lon2 => some (distance (lat1, lon1) (lat2, lon2))
  | _, _, _, _ => none

/-- `findContactsByPrefix`, for repeaters. -/
def findContactsByPrefix (hopPrefix : Text) (contacts : List Contact) : List Contact :=
  contacts.filter fun c =>
    decide (c.type = contactTypeRepeater) && (upper hopPrefix).isPrefixOf (upper c.public_key)

/-- The order of two distances: those that are missing come last. -/
def notAfter [LinearOrder D] : Option D → Option D → Bool
  | _, none => true
  | none, some _ => false
  | some a, some b => a ≤ b

/-- `sortContactsByDistance`. -/
def sortContactsByDistance [LinearOrder D] (distance : Location → Location → D)
    (contacts : List Contact) (fromLat fromLon : Option ℚ) : List Contact :=
  if fromLat = none ∨ fromLon = none then contacts
  else
    contacts.mergeSort fun a b =>
      notAfter (calculateDistance distance fromLat fromLon a.lat a.lon)
        (calculateDistance distance fromLat fromLon b.lat b.lon)

/-- `PathHop`. -/
structure PathHop (D : Type) where
  hopPrefix : Text
  found : List Contact
  distanceFromPrev : Option D

/-- The loop over the hops of `resolvePath`. -/
def resolveHops [LinearOrder D] (distance : Location → Location → D) (contacts : List Contact) :
    Option ℚ → Option ℚ → Bool → List Text → List (PathHop D)
  | _, _, _, [] => []
  | prevLat, prevLon, prevHopUncertain, hopPrefix :: rest =>
      let found := findContactsByPrefix hopPrefix contacts
      let sorted := sortContactsByDistance distance found prevLat prevLon
      let distanceFromPrev :=
        match sorted with
        | [c] =>
            if !prevHopUncertain && isValidLocation c.lat c.lon then
              calculateDistance distance prevLat prevLon c.lat c.lon
            else none
        | _ => none
      { hopPrefix, found := sorted, distanceFromPrev } ::
        match sorted with
        | [] => resolveHops distance contacts none none true rest
        | [c] =>
            if isValidLocation c.lat c.lon then
              resolveHops distance contacts c.lat c.lon false rest
            else resolveHops distance contacts none none true rest
        | c :: _ =>
            if isValidLocation c.lat c.lon then
              resolveHops distance contacts c.lat c.lon true rest
            else resolveHops distance contacts none none true rest

/-- The variables of the loop of `calculateTotalDistances`. -/
structure TotalState (D : Type) where
  prevLat : Option ℚ
  prevLon : Option ℚ
  totalDistance : D
  hasAnyDistance : Bool := false
  lastUnambiguousHopIndex : Int := -1

/-- `totalDistance += dist` when there is a distance. -/
def TotalState.addDistance [Add D] (s : TotalState D) : Option D → TotalState D
  | none => s
  | some dist => { s with totalDistance := s.totalDistance + dist, hasAnyDistance := true }

/-- The loop of `calculateTotalDistances` over the hops from an index. -/
def totalLoop [Add D] (distance : Location → Location → D) :
    TotalState D → Nat → List (PathHop D) → TotalState D
  | s, _, [] => s
  | s, i, hop :: rest =>
      match hop.found with
      | [c] =>
          if isValidLocation c.lat c.lon then
            let added := s.addDistance (calculateDistance distance s.prevLat s.prevLon c.lat c.lon)
            totalLoop distance
              { added with prevLat := c.lat, prevLon := c.lon, lastUnambiguousHopIndex := i }
              (i + 1) rest
          else totalLoop distance { s with prevLat := none, prevLon := none } (i + 1) rest
      | _ => totalLoop distance { s with prevLat := none, prevLon := none } (i + 1) rest

/-- The first hop that is known, and the index behind it. -/
def findStart : Nat → List (PathHop D) → Option (Option ℚ × Option ℚ × Nat)
  | _, [] => none
  | i, hop :: rest =>
      match hop.found with
      | [c] =>
          if isValidLocation c.lat c.lon then some (c.lat, c.lon, i + 1)
          else findStart (i + 1) rest
      | _ => findStart (i + 1) rest

/-- The end of `calculateTotalDistances`: the loop from a start, and the leg to the receiver. -/
def totalFrom [Zero D] [Add D] (distance : Location → Location → D) (prevLat prevLon : Option ℚ)
    (startHopIndex : Nat) (hops : List (PathHop D)) (receiver : Place) : Option (List D) :=
  let s := totalLoop distance { prevLat, prevLon, totalDistance := 0 } startHopIndex
    (hops.drop startHopIndex)
  let s :=
    if s.lastUnambiguousHopIndex = (hops.length : Int) - 1 ∧
        isValidLocation receiver.lat receiver.lon then
      s.addDistance (calculateDistance distance s.prevLat s.prevLon receiver.lat receiver.lon)
    else s
  if s.hasAnyDistance then some [s.totalDistance] else none

/-- `calculateTotalDistances`. -/
def calculateTotalDistances [Zero D] [Add D] (distance : Location → Location → D) (sender : Place)
    (hops : List (PathHop D)) (receiver : Place) : Option (List D) :=
  if hops = [] then
    if !isValidLocation sender.lat sender.lon || !isValidLocation receiver.lat receiver.lon then
      none
    else
      (calculateDistance distance sender.lat sender.lon receiver.lat receiver.lon).map fun dist =>
        [dist]
  else if isValidLocation sender.lat sender.lon then
    totalFrom distance sender.lat sender.lon 0 hops receiver
  else
    match findStart 0 hops with
    | none => none
    | some (prevLat, prevLon, startHopIndex) =>
        totalFrom distance prevLat prevLon startHopIndex hops receiver

/-- `ResolvedPath`. -/
structure ResolvedPath (D : Type) where
  hops : List (PathHop D)
  totalDistances : Option (List D)

/-- `resolvePath`. -/
def resolvePath [Zero D] [Add D] [LinearOrder D] (distance : Location → Location → D)
    (path : Option Text) (sender : Place) (contacts : List Contact) (config : Option Place)
    (hopCount : Option Int) : ResolvedPath D :=
  let hopPrefixes := Frontend.parsePathHops path hopCount
  let receiver : Place := ⟨config.bind Place.lat, config.bind Place.lon⟩
  let hops := resolveHops distance contacts sender.lat sender.lon
    (!isValidLocation sender.lat sender.lon) hopPrefixes
  { hops, totalDistances := calculateTotalDistances distance sender hops receiver }

/-! ### Known points and legs -/

/-- Where a place is, if its location is valid. -/
def knownPlace (lat lon : Option ℚ) : Option Location :=
  match lat, lon with
  | some la, some lo => if isValidLocation lat lon then some (la, lo) else none
  | _, _ => none

/-- Where a hop is, if it has one match and its location is valid. -/
def knownHop (found : List Contact) : Option Location :=
  match found with
  | [c] => knownPlace c.lat c.lon
  | _ => none

/-- The distance over a leg, if both ends are known. -/
def legDistance (distance : Location → Location → D) : Option Location × Option Location → Option D
  | (some a, some b) => some (distance a b)
  | _ => none

/-- The distances of the known legs of a route. -/
def knownLegs (distance : Location → Location → D) (points : List (Option Location)) : List D :=
  (Walk.pairs points).filterMap (legDistance distance)

/-- The sum of the known legs, if there are any. -/
def knownTotal [Zero D] [Add D] (distance : Location → Location → D)
    (points : List (Option Location)) : Option (List D) :=
  if knownLegs distance points = [] then none else some [(knownLegs distance points).sum]

/-- The receiver is known, and of the sender and the hops only the last hop. -/
def OnlyLastHop (sender : Option Location) (hops : List (Option Location))
    (receiver : Option Location) : Prop :=
  sender = none ∧ receiver ≠ none ∧
    ∃ unknown location, hops = unknown ++ [some location] ∧ ∀ hop ∈ unknown, hop = none

section Points

variable {lat lon : Option ℚ} {location : Location} {found found' : List Contact}

/-- The coordinates of a point that may be unknown. -/
def AtPoint (lat lon : Option ℚ) (point : Option Location) : Prop :=
  lat = point.map Prod.fst ∧ lon = point.map Prod.snd

theorem isValidLocation_eq (lat lon : Option ℚ) :
    isValidLocation lat lon = (knownPlace lat lon).isSome := by
  unfold knownPlace
  cases lat with
  | none => rfl
  | some la =>
      cases lon with
      | none => rfl
      | some lo =>
          dsimp only
          cases hvalid : isValidLocation (some la) (some lo) <;> simp

theorem atPoint_of_known (h : knownPlace lat lon = some location) :
    AtPoint lat lon (some location) := by
  unfold knownPlace at h
  split at h
  · split at h
    · cases h
      exact ⟨rfl, rfl⟩
    · cases h
  · cases h

theorem atPoint_none : AtPoint none none none := ⟨rfl, rfl⟩

/-- Between points the code measures the legs. -/
theorem calculateDistance_points (distance : Location → Location → D) {lat' lon' : Option ℚ}
    {point point' : Option Location} (h : AtPoint lat lon point) (h' : AtPoint lat' lon' point') :
    calculateDistance distance lat lon lat' lon' = legDistance distance (point, point') := by
  obtain ⟨rfl, rfl⟩ := h
  obtain ⟨rfl, rfl⟩ := h'
  cases point <;> cases point' <;> rfl

/-- The order of the matches says nothing about where the hop is. -/
theorem knownHop_perm (h : found.Perm found') : knownHop found = knownHop found' := by
  match found, found' with
  | [], found' => rw [h.nil_eq]
  | [c], found' => rw [List.singleton_perm.mp h]
  | _ :: _ :: _, [] => exact absurd h.length_eq (by simp)
  | _ :: _ :: _, [_] => exact absurd h.length_eq (by simp)
  | _ :: _ :: _, _ :: _ :: _ => rfl

theorem sortContactsByDistance_perm [LinearOrder D] (distance : Location → Location → D)
    (contacts : List Contact) (fromLat fromLon : Option ℚ) :
    (sortContactsByDistance distance contacts fromLat fromLon).Perm contacts := by
  unfold sortContactsByDistance
  split
  · exact List.Perm.refl contacts
  · exact List.mergeSort_perm contacts _

end Points

section Legs

variable (distance : Location → Location → D)

@[simp] theorem knownLegs_singleton (point : Option Location) :
    knownLegs distance [point] = [] := rfl

theorem knownLegs_cons_cons (a b : Option Location) (points : List (Option Location)) :
    knownLegs distance (a :: b :: points) =
      (legDistance distance (a, b)).toList ++ knownLegs distance (b :: points) := by
  unfold knownLegs
  rw [Walk.pairs_cons_cons, List.filterMap_cons]
  cases legDistance distance (a, b) <;> rfl

/-- No leg starts at an unknown point. -/
theorem knownLegs_none_cons (points : List (Option Location)) :
    knownLegs distance (none :: points) = knownLegs distance points := by
  cases points with
  | nil => rfl
  | cons b points =>
      rw [knownLegs_cons_cons]
      rfl

theorem knownLegs_unknown_append {unknown : List (Option Location)}
    (h : ∀ point ∈ unknown, point = none) (points : List (Option Location)) :
    knownLegs distance (unknown ++ points) = knownLegs distance points := by
  induction unknown with
  | nil => rfl
  | cons point unknown ih =>
      rw [h point List.mem_cons_self, List.cons_append, knownLegs_none_cons]
      exact ih fun other hother => h other (List.mem_cons_of_mem _ hother)

/-- One more point adds the leg from the last one. -/
theorem knownLegs_concat {points : List (Option Location)} {last : Option Location}
    (hlast : points.getLast? = some last) (next : Option Location) :
    knownLegs distance (points ++ [next]) =
      knownLegs distance points ++ (legDistance distance (last, next)).toList := by
  induction points with
  | nil => cases hlast
  | cons a points ih =>
      cases points with
      | nil =>
          obtain rfl : a = last := by simpa using hlast
          rw [List.singleton_append, knownLegs_cons_cons]
          simp
      | cons b points =>
          rw [List.getLast?_cons_cons] at hlast
          rw [List.cons_append, List.cons_append, knownLegs_cons_cons, knownLegs_cons_cons,
            List.append_assoc, ← ih hlast]
          rfl

end Legs

section Hops

variable [LinearOrder D] (distance : Location → Location → D) (contacts : List Contact)

/-- Where the hops of a path are. -/
def hopPoints (hopPrefixes : List Text) : List (Option Location) :=
  hopPrefixes.map fun hopPrefix => knownHop (findContactsByPrefix hopPrefix contacts)

/-- **The loop over the hops** finds each hop and the leg that ends in it. -/
theorem resolveHops_spec (hopPrefixes : List Text) {prevLat prevLon : Option ℚ}
    {uncertain : Bool} {point : Option Location} (hcertain : uncertain = !point.isSome)
    (hprev : ∀ location, point = some location → AtPoint prevLat prevLon point) :
    (resolveHops distance contacts prevLat prevLon uncertain hopPrefixes).map
          (fun hop => knownHop hop.found) = hopPoints contacts hopPrefixes ∧
      (resolveHops distance contacts prevLat prevLon uncertain hopPrefixes).map
          PathHop.distanceFromPrev =
        (Walk.pairs (point :: hopPoints contacts hopPrefixes)).map (legDistance distance) := by
  induction hopPrefixes generalizing prevLat prevLon uncertain point with
  | nil => exact ⟨rfl, rfl⟩
  | cons hopPrefix rest ih =>
      have hfound : knownHop (sortContactsByDistance distance
          (findContactsByPrefix hopPrefix contacts) prevLat prevLon) =
            knownHop (findContactsByPrefix hopPrefix contacts) :=
        knownHop_perm (sortContactsByDistance_perm distance _ prevLat prevLon)
      have hpoints : hopPoints contacts (hopPrefix :: rest) =
          knownHop (findContactsByPrefix hopPrefix contacts) :: hopPoints contacts rest := rfl
      rw [hpoints, Walk.pairs_cons_cons, List.map_cons, ← hfound]
      unfold resolveHops
      dsimp only
      rw [List.map_cons, List.map_cons, List.cons.injEq, List.cons.injEq]
      generalize sortContactsByDistance distance (findContactsByPrefix hopPrefix contacts) prevLat
        prevLon = sorted
      have hunknown := fun lat lon => @ih lat lon true none rfl (by simp)
      match sorted with
      | [] => exact ⟨⟨rfl, (hunknown _ _).1⟩, ⟨by cases point <;> rfl, (hunknown _ _).2⟩⟩
      | [c] =>
          have hvalid := isValidLocation_eq c.lat c.lon
          cases hplace : knownPlace c.lat c.lon with
          | none =>
              have hhop : knownHop [c] = none := hplace
              rw [hplace] at hvalid
              simp only [hvalid, hhop, Option.isSome_none, Bool.and_false, Bool.false_eq_true,
                if_false]
              exact ⟨⟨trivial, (hunknown _ _).1⟩, ⟨by cases point <;> rfl, (hunknown _ _).2⟩⟩
          | some location =>
              have hhop : knownHop [c] = some location := hplace
              have hat := atPoint_of_known hplace
              have hknown := @ih c.lat c.lon false (some location) rfl fun _ _ => hat
              rw [hplace] at hvalid
              simp only [hvalid, hhop, Option.isSome_some, Bool.and_true, if_true]
              refine ⟨⟨trivial, hknown.1⟩, ⟨?_, hknown.2⟩⟩
              cases point with
              | none =>
                  subst hcertain
                  rfl
              | some previous =>
                  subst hcertain
                  exact calculateDistance_points distance (hprev previous rfl) hat
      | c :: d :: others =>
          have hpoint : knownHop (c :: d :: others) = none := rfl
          refine ⟨⟨rfl, ?_⟩, ⟨by cases point <;> rfl, ?_⟩⟩
          · dsimp only
            split
            · exact (hunknown _ _).1
            · exact (hunknown _ _).1
          · dsimp only
            rw [hpoint]
            split
            · exact (hunknown _ _).2
            · exact (hunknown _ _).2

end Hops

section Totals

variable [AddMonoid D] (distance : Location → Location → D)

/-- The points of resolved hops. -/
def pointsOf (hops : List (PathHop D)) : List (Option Location) :=
  hops.map fun hop => knownHop hop.found

@[simp] theorem addDistance_totalDistance (s : TotalState D) (dist : Option D) :
    (s.addDistance dist).totalDistance = s.totalDistance + dist.toList.sum := by
  cases dist <;> simp [TotalState.addDistance]

@[simp] theorem addDistance_hasAnyDistance (s : TotalState D) (dist : Option D) :
    (s.addDistance dist).hasAnyDistance = (s.hasAnyDistance || !dist.toList.isEmpty) := by
  cases dist <;> simp [TotalState.addDistance]

/-- What the loop has summed up and where it stands. -/
structure Summed (before after : TotalState D) (legs : List D) (last : Option Location) : Prop where
  total : after.totalDistance = before.totalDistance + legs.sum
  hasAny : after.hasAnyDistance = (before.hasAnyDistance || !legs.isEmpty)
  atLast : AtPoint after.prevLat after.prevLon last

/-- One hop of the loop. -/
theorem totalLoop_cons {s : TotalState D} {point : Option Location}
    (hs : AtPoint s.prevLat s.prevLon point) (i : Nat) (hop : PathHop D)
    (rest : List (PathHop D)) :
    ∃ t, totalLoop distance s i (hop :: rest) = totalLoop distance t (i + 1) rest ∧
      Summed s t (legDistance distance (point, knownHop hop.found)).toList (knownHop hop.found) ∧
      t.lastUnambiguousHopIndex =
        if (knownHop hop.found).isSome then (i : Int) else s.lastUnambiguousHopIndex := by
  have hunknown : ∀ found, knownHop found = none →
      Summed s { s with prevLat := none, prevLon := none }
        (legDistance distance (point, knownHop found)).toList (knownHop found) := by
    intro found hnone
    have hleg : legDistance distance (point, none) = none := by cases point <;> rfl
    rw [hnone, hleg]
    exact ⟨by simp, by simp, atPoint_none⟩
  simp only [totalLoop]
  match hop.found with
  | [] => exact ⟨_, rfl, hunknown [] rfl, rfl⟩
  | [c] =>
      have hvalid := isValidLocation_eq c.lat c.lon
      cases hplace : knownPlace c.lat c.lon with
      | none =>
          have hhop : knownHop [c] = none := hplace
          rw [hplace] at hvalid
          refine ⟨_, ?_, hunknown [c] hhop, ?_⟩
          · simp [hvalid]
          · simp [hhop]
      | some location =>
          have hhop : knownHop [c] = some location := hplace
          have hat := atPoint_of_known hplace
          rw [hplace] at hvalid
          refine ⟨{ s.addDistance (calculateDistance distance s.prevLat s.prevLon c.lat c.lon) with
            prevLat := c.lat, prevLon := c.lon, lastUnambiguousHopIndex := i },
            ?_, ⟨?_, ?_, hhop.symm ▸ hat⟩, ?_⟩
          · simp only [hvalid, Option.isSome_some, if_true]
          · rw [hhop, calculateDistance_points distance hs hat]
            exact addDistance_totalDistance _ _
          · rw [hhop, calculateDistance_points distance hs hat]
            exact addDistance_hasAnyDistance _ _
          · simp [hhop]
  | c :: d :: others => exact ⟨_, rfl, hunknown (c :: d :: others) rfl, rfl⟩

/-- **The loop of the total** sums up the known legs from the point before it. -/
theorem totalLoop_spec (hops : List (PathHop D)) {s : TotalState D} {point : Option Location}
    (hs : AtPoint s.prevLat s.prevLon point) (i : Nat) :
    Summed s (totalLoop distance s i hops) (knownLegs distance (point :: pointsOf hops))
        ((point :: pointsOf hops).getLast (List.cons_ne_nil _ _)) := by
  induction hops generalizing s point i with
  | nil => exact ⟨by simp [totalLoop, pointsOf], by simp [totalLoop, pointsOf], hs⟩
  | cons hop rest ih =>
      obtain ⟨t, hloop, ht, -⟩ := totalLoop_cons distance hs i hop rest
      have hrest := ih ht.atLast (i + 1)
      have hpoints : pointsOf (hop :: rest) = knownHop hop.found :: pointsOf rest := rfl
      simp only [hpoints, hloop, knownLegs_cons_cons]
      refine ⟨?_, ?_, ?_⟩
      · rw [hrest.total, ht.total, List.sum_append, add_assoc]
      · rw [hrest.hasAny, ht.hasAny, Bool.or_assoc]
        cases legDistance distance (point, knownHop hop.found) <;> simp
      · rw [List.getLast_cons (List.cons_ne_nil _ _)]
        exact hrest.atLast

/-- The loop remembers the last hop exactly when it is known. -/
theorem totalLoop_last (hops : List (PathHop D)) {s : TotalState D} {point : Option Location}
    (hs : AtPoint s.prevLat s.prevLon point) {i : Nat} (hbefore : s.lastUnambiguousHopIndex < i)
    (hne : hops ≠ []) :
    (totalLoop distance s i hops).lastUnambiguousHopIndex = (i : Int) + hops.length - 1 ↔
      ∃ location, (pointsOf hops).getLast? = some (some location) := by
  induction hops generalizing s point i with
  | nil => exact absurd rfl hne
  | cons hop rest ih =>
      obtain ⟨t, hloop, ht, hindex⟩ := totalLoop_cons distance hs i hop rest
      have hpoints : pointsOf (hop :: rest) = knownHop hop.found :: pointsOf rest := rfl
      rw [hloop, hpoints]
      cases rest with
      | nil =>
          simp only [totalLoop, hindex, pointsOf, List.map_nil, List.getLast?_singleton,
            Option.some.injEq, List.length_singleton]
          cases knownHop hop.found with
          | none =>
              refine iff_of_false ?_ (by simp)
              simp only [Option.isSome_none, Bool.false_eq_true, if_false]
              omega
          | some location =>
              refine iff_of_true ?_ ⟨location, rfl⟩
              simp
      | cons next rest =>
          have hlt : t.lastUnambiguousHopIndex < ((i + 1 : Nat) : Int) := by
            rw [hindex]
            split <;> omega
          have hsum : (i : Int) + (hop :: next :: rest).length - 1 =
              ((i + 1 : Nat) : Int) + (next :: rest).length - 1 := by
            simp only [List.length_cons]
            omega
          rw [hsum, ih ht.atLast hlt (List.cons_ne_nil _ _)]
          rfl

/-- The total from a start that hops follow: the known legs up to the receiver. -/
theorem totalFrom_eq {prevLat prevLon : Option ℚ} {point : Option Location}
    (hprev : AtPoint prevLat prevLon point) {start : Nat} {hops rest : List (PathHop D)}
    (hdrop : hops.drop start = rest) (hne : rest ≠ []) (receiver : Place) :
    totalFrom distance prevLat prevLon start hops receiver =
      knownTotal distance
        (point :: pointsOf rest ++ [knownPlace receiver.lat receiver.lon]) := by
  have hlength : (hops.length : Int) - 1 = (start : Int) + rest.length - 1 := by
    have hpos := List.length_pos_of_ne_nil hne
    rw [← hdrop, List.length_drop] at hpos ⊢
    omega
  have hpoints : pointsOf rest ≠ [] := by simpa [pointsOf] using hne
  obtain ⟨last, hlast⟩ : ∃ last, (pointsOf rest).getLast? = some last :=
    ⟨_, List.getLast?_eq_getLast_of_ne_nil hpoints⟩
  have hend : (point :: pointsOf rest).getLast? = some last := by
    cases hrest : pointsOf rest with
    | nil => exact absurd hrest hpoints
    | cons a points =>
        rw [List.getLast?_cons_cons, ← hrest]
        exact hlast
  have hgetLast : (point :: pointsOf rest).getLast (List.cons_ne_nil _ _) = last :=
    Option.some.inj ((List.getLast?_eq_getLast_of_ne_nil _).symm.trans hend)
  have hloop := totalLoop_spec distance rest (s := { prevLat, prevLon, totalDistance := 0 })
    hprev start
  have hindex := totalLoop_last distance rest (s := { prevLat, prevLon, totalDistance := 0 })
    hprev (i := start) (by simp only; omega) hne
  rw [hgetLast] at hloop
  unfold totalFrom knownTotal
  rw [hdrop, knownLegs_concat distance hend, hlength]
  dsimp only
  generalize totalLoop distance { prevLat, prevLon, totalDistance := 0 } start rest = s at *
  -- with the leg to the receiver the state has summed up all known legs
  have hfinal : (if s.lastUnambiguousHopIndex = (start : Int) + rest.length - 1 ∧
        isValidLocation receiver.lat receiver.lon then
      s.addDistance (calculateDistance distance s.prevLat s.prevLon receiver.lat receiver.lon)
    else s) =
      s.addDistance (legDistance distance (last, knownPlace receiver.lat receiver.lon)) := by
    rw [isValidLocation_eq]
    cases hreceiver : knownPlace receiver.lat receiver.lon with
    | none =>
        rw [if_neg (by simp)]
        cases last <;> rfl
    | some location =>
        rw [calculateDistance_points distance hloop.atLast (atPoint_of_known hreceiver)]
        cases last with
        | none =>
            rw [if_neg]
            · rfl
            · rintro ⟨hat, -⟩
              obtain ⟨known, hknown⟩ := hindex.mp hat
              rw [hlast] at hknown
              cases hknown
        | some known => rw [if_pos ⟨hindex.mpr ⟨known, hlast⟩, rfl⟩]
  rw [hfinal, addDistance_hasAnyDistance, addDistance_totalDistance, hloop.total, hloop.hasAny,
    List.sum_append]
  simp only [zero_add, Bool.false_or]
  cases knownLegs distance (point :: pointsOf rest) <;>
    cases legDistance distance (last, knownPlace receiver.lat receiver.lon) <;> simp

/-- The total from the last hop leaves out the leg to the receiver. -/
theorem totalFrom_end {prevLat prevLon : Option ℚ} {hops : List (PathHop D)} {start : Nat}
    (hstart : hops.length = start + 1) (receiver : Place) :
    totalFrom distance prevLat prevLon (start + 1) hops receiver = none := by
  have hdrop : hops.drop (start + 1) = [] := List.drop_eq_nil_of_le (by omega)
  unfold totalFrom
  rw [hdrop]
  dsimp only [totalLoop]
  have hlast : ¬ ((-1 : Int) = (hops.length : Int) - 1 ∧
      isValidLocation receiver.lat receiver.lon = true) := by
    rintro ⟨hat, -⟩
    omega
  rw [if_neg hlast, if_neg (by simp)]

/-- What the search for a start finds from place `i` on: nothing if no hop is known, else the place
behind the first known hop. -/
def FirstKnown (hops : List (PathHop D)) (i : Nat) : Option (Option ℚ × Option ℚ × Nat) → Prop
  | none => ∀ point ∈ pointsOf hops, point = none
  | some (lat, lon, start) => ∃ before hop after location, hops = before ++ hop :: after ∧
      (∀ point ∈ pointsOf before, point = none) ∧ knownHop hop.found = some location ∧
      AtPoint lat lon (some location) ∧ start = i + before.length + 1

omit [AddMonoid D] in
/-- Behind an unknown hop the search goes on. -/
theorem FirstKnown.cons {hop : PathHop D} {rest : List (PathHop D)} {i : Nat}
    {found : Option (Option ℚ × Option ℚ × Nat)} (hnone : knownHop hop.found = none)
    (h : FirstKnown rest (i + 1) found) : FirstKnown (hop :: rest) i found := by
  have hpoints : pointsOf (hop :: rest) = knownHop hop.found :: pointsOf rest := rfl
  cases found with
  | none =>
      change ∀ point ∈ pointsOf (hop :: rest), point = none
      rw [hpoints, hnone]
      exact List.forall_mem_cons.mpr ⟨rfl, h⟩
  | some found =>
      obtain ⟨lat, lon, start⟩ := found
      obtain ⟨before, hop', after, location, rfl, hbefore, hknown, hat, rfl⟩ := h
      refine ⟨hop :: before, hop', after, location, rfl, ?_, hknown, hat, ?_⟩
      · exact List.forall_mem_cons.mpr ⟨hnone, hbefore⟩
      · rw [List.length_cons]
        omega

omit [AddMonoid D] in
/-- The start is the first known hop. -/
theorem findStart_spec (hops : List (PathHop D)) (i : Nat) :
    FirstKnown hops i (findStart i hops) := by
  induction hops generalizing i with
  | nil => simp [FirstKnown, findStart, pointsOf]
  | cons hop rest ih =>
      have hskip : knownHop hop.found = none → findStart i (hop :: rest) = findStart (i + 1) rest →
          FirstKnown (hop :: rest) i (findStart i (hop :: rest)) := fun hnone hnext =>
        hnext ▸ (ih (i + 1)).cons hnone
      match hfound : hop.found with
      | [] =>
          exact hskip (by rw [hfound]; rfl) (by simp [findStart, hfound])
      | [c] =>
          have hvalid := isValidLocation_eq c.lat c.lon
          cases hplace : knownPlace c.lat c.lon with
          | none =>
              rw [hplace] at hvalid
              exact hskip (by rw [hfound]; exact hplace) (by simp [findStart, hfound, hvalid])
          | some location =>
              rw [hplace] at hvalid
              have hstart : findStart i (hop :: rest) = some (c.lat, c.lon, i + 1) := by
                simp [findStart, hfound, hvalid]
              rw [hstart]
              exact ⟨[], hop, rest, location, rfl, by simp [pointsOf], by rw [hfound]; exact hplace,
                atPoint_of_known hplace, rfl⟩
      | c :: d :: others =>
          exact hskip (by rw [hfound]; rfl) (by simp [findStart, hfound])

end Totals

section Resolve

variable [AddMonoid D] (distance : Location → Location → D)

/-- Without hops the only leg is the one from the sender to the receiver. -/
theorem calculateTotalDistances_nil (sender receiver : Place) :
    calculateTotalDistances distance sender ([] : List (PathHop D)) receiver =
      knownTotal distance [knownPlace sender.lat sender.lon,
        knownPlace receiver.lat receiver.lon] := by
  unfold calculateTotalDistances
  rw [isValidLocation_eq, isValidLocation_eq, if_pos rfl]
  cases hsender : knownPlace sender.lat sender.lon with
  | none => simp [knownTotal, knownLegs, legDistance]
  | some a =>
      cases hreceiver : knownPlace receiver.lat receiver.lon with
      | none => simp [knownTotal, knownLegs, legDistance]
      | some b =>
          rw [calculateDistance_points distance (atPoint_of_known hsender)
            (atPoint_of_known hreceiver)]
          simp [knownTotal, knownLegs, legDistance]

/-- Unknown points in front add no leg. -/
theorem knownTotal_unknown_append {unknown : List (Option Location)}
    (hunknown : ∀ point ∈ unknown, point = none) (location : Location)
    (points : List (Option Location)) :
    knownTotal distance (none :: (unknown ++ some location :: points)) =
      knownTotal distance (some location :: points) := by
  unfold knownTotal
  rw [knownLegs_none_cons, knownLegs_unknown_append distance hunknown]

/-- Behind a known hop that is not the last the other points do not matter. -/
theorem not_onlyLastHop {sender receiver : Option Location} {before points : List (Option Location)}
    {location : Location} (hpoints : points ≠ []) :
    ¬ OnlyLastHop sender (before ++ some location :: points) receiver := by
  rintro ⟨-, -, unknown, last, hsplit, hunknown⟩
  rw [← List.dropLast_append_getLast hpoints, ← List.cons_append, ← List.append_assoc] at hsplit
  obtain ⟨rfl, -⟩ := List.append_inj' hsplit rfl
  cases hunknown (some location) (by simp)

/-- **The total** is that of the known legs, unless only the last hop is known. -/
theorem calculateTotalDistances_iff (sender receiver : Place) (hops : List (PathHop D)) :
    calculateTotalDistances distance sender hops receiver =
        knownTotal distance (knownPlace sender.lat sender.lon :: pointsOf hops ++
          [knownPlace receiver.lat receiver.lon]) ↔
      ¬ OnlyLastHop (knownPlace sender.lat sender.lon) (pointsOf hops)
        (knownPlace receiver.lat receiver.lon) := by
  by_cases hne : hops = []
  · subst hne
    refine iff_of_true (calculateTotalDistances_nil distance sender receiver) ?_
    rintro ⟨-, -, unknown, location, hpoints, -⟩
    simp [pointsOf] at hpoints
  unfold calculateTotalDistances
  rw [isValidLocation_eq, isValidLocation_eq, if_neg hne]
  cases hsender : knownPlace sender.lat sender.lon with
  | some a =>
      refine iff_of_true ?_ fun honly => absurd honly.1 (by simp)
      exact totalFrom_eq distance (atPoint_of_known hsender) List.drop_zero hne receiver
  | none =>
      have hstart := findStart_spec hops 0
      cases hfind : findStart 0 hops with
      | none =>
          rw [hfind] at hstart
          have hpoints : knownLegs distance (none :: pointsOf hops ++
              [knownPlace receiver.lat receiver.lon]) = [] := by
            rw [List.cons_append, knownLegs_none_cons, knownLegs_unknown_append distance hstart]
            rfl
          refine iff_of_true ?_ ?_
          · rw [knownTotal, if_pos hpoints]
            rfl
          · rintro ⟨-, -, unknown, location, hlast, -⟩
            have hmem : some location ∈ pointsOf hops := by simp [hlast]
            cases hstart _ hmem
      | some found =>
          obtain ⟨lat, lon, start⟩ := found
          rw [hfind] at hstart
          obtain ⟨before, hop, after, location, rfl, hbefore, hknown, hat, rfl⟩ := hstart
          have hpoints : pointsOf (before ++ hop :: after) =
              pointsOf before ++ some location :: pointsOf after := by
            simp [pointsOf, hknown]
          rw [hpoints, List.cons_append, List.append_assoc, List.cons_append,
            knownTotal_unknown_append distance hbefore]
          simp only [Option.isSome_none, Bool.false_eq_true, if_false]
          cases after with
          | nil =>
              have hend : totalFrom distance lat lon (0 + before.length + 1) (before ++ [hop])
                  receiver = none :=
                totalFrom_end distance (by simp) receiver
              rw [hend]
              cases hreceiver : knownPlace receiver.lat receiver.lon with
              | none =>
                  refine iff_of_true ?_ fun honly => honly.2.1 rfl
                  simp [knownTotal, knownLegs, pointsOf, legDistance]
              | some b =>
                  refine iff_of_false ?_ (not_not.mpr ⟨rfl, by simp, pointsOf before, location,
                    rfl, hbefore⟩)
                  simp [knownTotal, knownLegs, pointsOf, legDistance]
          | cons next after =>
              refine iff_of_true ?_ (not_onlyLastHop (by simp [pointsOf]))
              refine totalFrom_eq distance hat ?_ (List.cons_ne_nil _ _) receiver
              have hsplit : before ++ hop :: next :: after =
                  (before ++ [hop]) ++ next :: after := by simp
              rw [hsplit]
              exact List.drop_left' (by simp)

/-- **The distances of a path.** Each hop shows the distance of the leg that ends in it, and the
total is the sum of the known legs, unless the receiver is known and of the other points only the
last hop. -/
theorem path_distances_iff [LinearOrder D] (path : Option Text) (sender : Place)
    (contacts : List Contact) (config : Option Place) (hopCount : Option Int) :
    let resolved := resolvePath distance path sender contacts config hopCount
    let senderPoint := knownPlace sender.lat sender.lon
    let points := hopPoints contacts (Frontend.parsePathHops path hopCount)
    let receiverPoint := knownPlace (config.bind Place.lat) (config.bind Place.lon)
    (resolved.hops.map PathHop.distanceFromPrev =
          (Walk.pairs (senderPoint :: points)).map (legDistance distance) ∧
        resolved.totalDistances =
          knownTotal distance (senderPoint :: points ++ [receiverPoint])) ↔
      ¬ OnlyLastHop senderPoint points receiverPoint := by
  dsimp only
  have hsender : ∀ location, knownPlace sender.lat sender.lon = some location →
      AtPoint sender.lat sender.lon (knownPlace sender.lat sender.lon) := by
    intro location hlocation
    rw [hlocation]
    exact atPoint_of_known hlocation
  have huncertain : (!isValidLocation sender.lat sender.lon) =
      !(knownPlace sender.lat sender.lon).isSome := by
    rw [isValidLocation_eq]
  obtain ⟨hpoints, hdistances⟩ := resolveHops_spec distance contacts
    (Frontend.parsePathHops path hopCount) huncertain hsender
  unfold resolvePath
  dsimp only
  rw [and_iff_right hdistances, ← hpoints]
  exact calculateTotalDistances_iff distance sender
    ⟨config.bind Place.lat, config.bind Place.lon⟩ _

end Resolve

/-- A repeater at a place of its own. -/
def repeater : Contact := ⟨"AA".toList, contactTypeRepeater, some 1, some 1⟩

/-- From a sender without a location over one repeater the leg to the receiver is left out. -/
theorem last_leg_left_out :
    let distance : Location → Location → ℕ := fun _ _ => 5
    let resolved := resolvePath distance (some "AA".toList) ⟨none, none⟩ [repeater]
      (some ⟨some 2, some 2⟩) none
    resolved.totalDistances = none ∧
      knownTotal distance [none, some (1, 1), some (2, 2)] = some [5] ∧
      hopPoints [repeater] (Frontend.parsePathHops (some "AA".toList) none) = [some (1, 1)] := by
  decide +kernel

end PathDistance

end RemoteTerm
