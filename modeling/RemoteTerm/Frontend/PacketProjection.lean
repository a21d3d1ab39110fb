import RemoteTerm.Frontend.PacketNetworkRuns

/-!
# What of the packet network is drawn

The projection walks along every observation and leaves out the nodes that are
switched off. Two nodes that then follow each other are joined by a link, dashed
when a hidden repeater was left out between them. Whether a link of a path is
dashed is kept by its two nodes, so a path that joins them twice, once past a
hidden repeater and once without, tells of the hidden repeater only.
-/

namespace RemoteTerm

namespace PacketNetwork

open Library Library.Walk

/-- `PacketNetworkVisibilityOptions`, the collapsing of aliases switched off. -/
structure PacketNetworkVisibilityOptions where
  showAmbiguousNodes : Bool
  showAmbiguousPaths : Bool

/-- `isPacketNetworkNodeVisible`. -/
def isPacketNetworkNodeVisible (node : Option PacketNetworkNode)
    (visibility : PacketNetworkVisibilityOptions) : Bool :=
  match node with
  | none => false
  | some node =>
      if node.id = selfId then true
      else if node.isAmbiguous = false then true
      else if node.type = .repeater then visibility.showAmbiguousPaths
      else visibility.showAmbiguousNodes

/-- `PathStep`. -/
structure PathStep where
  nodeId : Option Text
  markHiddenLinkWhenOmitted : Bool
  hiddenLabel : Option Text

/-- The variables of `compactPathSteps`. -/
structure Compaction where
  nodes : List Text
  dashedLinkDetails : OrderedMap Text (List Text)
  pendingHiddenLink : Bool
  pendingHiddenLabels : List Text

/-- Labels are added once. -/
def addLabels (existing labels : List Text) : List Text :=
  labels.foldl (fun existing label => if label ∈ existing then existing else existing ++ [label])
    existing

/-- The details with a dashed link. -/
def addDashed (details : OrderedMap Text (List Text)) (key : Text) (labels : List Text) :
    OrderedMap Text (List Text) :=
  details.set key (addLabels ((details.get? key).getD []) labels)

/-- One round of the loop of `compactPathSteps`. -/
def compactStep (c : Compaction) (step : PathStep) : Compaction :=
  match orNull step.nodeId with
  | some nodeId =>
      match c.nodes.getLast? with
      | none => ⟨c.nodes ++ [nodeId], c.dashedLinkDetails, false, []⟩
      | some previousNodeId =>
          if previousNodeId = nodeId then ⟨c.nodes, c.dashedLinkDetails, false, []⟩
          else
            ⟨c.nodes ++ [nodeId],
              if c.pendingHiddenLink then
                addDashed c.dashedLinkDetails (buildLinkKey previousNodeId nodeId)
                  c.pendingHiddenLabels
              else c.dashedLinkDetails,
              false, []⟩
  | none =>
      if step.markHiddenLinkWhenOmitted && !c.nodes.isEmpty then
        { c with
          pendingHiddenLink := true
          pendingHiddenLabels := addLabels c.pendingHiddenLabels (orNull step.hiddenLabel).toList }
      else c

/-- `compactPathSteps`. -/
def compactPathSteps (steps : List PathStep) : Compaction :=
  steps.foldl compactStep ⟨[], .empty, false, []⟩

/-- The node is drawn. -/
def isShown (state : PacketNetworkState) (visibility : PacketNetworkVisibilityOptions)
    (nodeId : Text) : Bool :=
  isPacketNetworkNodeVisible (state.nodes.get? nodeId) visibility

/-- The node is a repeater that is not drawn. -/
def isHiddenRepeater (state : PacketNetworkState) (visibility : PacketNetworkVisibilityOptions)
    (nodeId : Text) : Bool :=
  !isShown state visibility nodeId &&
    (state.nodes.get? nodeId).any fun node => node.type = .repeater

/-- The steps of a path from an index on. -/
def projectSteps (state : PacketNetworkState) (visibility : PacketNetworkVisibilityOptions)
    (length : Nat) : Nat → List Text → List PathStep
  | _, [] => []
  | index, nodeId :: rest =>
      { nodeId := if isShown state visibility nodeId then some nodeId else none
        markHiddenLinkWhenOmitted :=
          isHiddenRepeater state visibility nodeId && decide (0 < index) &&
            decide (index + 1 < length)
        hiddenLabel := none } :: projectSteps state visibility length (index + 1) rest

/-- `ProjectedPacketNetworkPath`. -/
structure ProjectedPacketNetworkPath where
  dashedLinkDetails : OrderedMap Text (List Text)
  nodes : List Text

/-- `projectCanonicalPathWithAliases`, without aliases. -/
def projectCanonicalPath (state : PacketNetworkState) (canonicalPath : List Text)
    (visibility : PacketNetworkVisibilityOptions) : ProjectedPacketNetworkPath :=
  let projected :=
    compactPathSteps (projectSteps state visibility canonicalPath.length 0 canonicalPath)
  ⟨projected.dashedLinkDetails, dedupeConsecutive projected.nodes⟩

/-- `ProjectedPacketNetworkLink`. -/
structure ProjectedPacketNetworkLink where
  sourceId : Text
  targetId : Text
  lastActivity : Int
  hasDirectObservation : Bool
  hasHiddenIntermediate : Bool
  hiddenHopLabels : List Text

/-- A pair of nodes of a projected path, and what its path says of a dashed link. -/
structure Sighting where
  sourceId : Text
  targetId : Text
  activityAtMs : Int
  dashed : Option (List Text)

/-- The key of the link that a sighting tells of. -/
def Sighting.key (sighting : Sighting) : Text := buildLinkKey sighting.sourceId sighting.targetId

/-- The pairs of an observation. -/
def sightings (state : PacketNetworkState) (visibility : PacketNetworkVisibilityOptions)
    (observation : PacketNetworkObservation) : List Sighting :=
  let projected := projectCanonicalPath state observation.nodes visibility
  if projected.nodes.length < 2 then []
  else
    ((pairs projected.nodes).filter fun (sourceId, targetId) => sourceId ≠ targetId).map
      fun (sourceId, targetId) =>
        ⟨sourceId, targetId, observation.activityAtMs,
          projected.dashedLinkDetails.get? (buildLinkKey sourceId targetId)⟩

/-- A sighting of a link that is there. -/
def mergeSighting (sighting : Sighting) (existing : ProjectedPacketNetworkLink) :
    ProjectedPacketNetworkLink :=
  let existing :=
    { existing with lastActivity := max existing.lastActivity sighting.activityAtMs }
  match sighting.dashed with
  | some labels =>
      { existing with
        hasHiddenIntermediate := true
        hiddenHopLabels := addLabels existing.hiddenHopLabels labels }
  | none => { existing with hasDirectObservation := true }

/-- The first sighting of a link. -/
def freshSighting (sighting : Sighting) : ProjectedPacketNetworkLink where
  sourceId := sighting.sourceId
  targetId := sighting.targetId
  lastActivity := sighting.activityAtMs
  hasDirectObservation := sighting.dashed.isNone
  hasHiddenIntermediate := sighting.dashed.isSome
  hiddenHopLabels := sighting.dashed.getD []

/-- `PacketNetworkProjection`, whose `renderedNodeIds` are the keys of its nodes. -/
structure PacketNetworkProjection where
  nodes : OrderedMap Text PacketNetworkNode
  links : OrderedMap Text ProjectedPacketNetworkLink

/-- A node of the state is drawn. -/
def renderNode (state : PacketNetworkState) (nodes : OrderedMap Text PacketNetworkNode)
    (nodeId : Text) : OrderedMap Text PacketNetworkNode :=
  match state.nodes.get? nodeId with
  | some node => nodes.set nodeId node
  | none => nodes

/-- The nodes of a projected path, when it has a link. -/
def renderedNodes (state : PacketNetworkState) (visibility : PacketNetworkVisibilityOptions)
    (observation : PacketNetworkObservation) : List Text :=
  let projected := projectCanonicalPath state observation.nodes visibility
  if projected.nodes.length < 2 then [] else projected.nodes

/-- `projectPacketNetwork`; the loops over the observations and over their pairs are one. -/
def projectPacketNetwork (state : PacketNetworkState)
    (visibility : PacketNetworkVisibilityOptions) : PacketNetworkProjection where
  nodes := (state.observations.flatMap (renderedNodes state visibility)).foldl (renderNode state)
    (renderNode state .empty selfId)
  links := OrderedMap.collect Sighting.key mergeSighting freshSighting .empty
    (state.observations.flatMap (sightings state visibility))

/-! ### The loop over the steps -/

variable {state : PacketNetworkState} {visibility : PacketNetworkVisibilityOptions}

/-- The legs of a path: two nodes that are drawn, with none that is drawn between them. -/
def pathLegs (state : PacketNetworkState) (visibility : PacketNetworkVisibilityOptions)
    (path : List Text) : List (Text × Bool × Text) :=
  legs (isShown state visibility) (isHiddenRepeater state visibility) path

theorem isSome_get?_addDashed (details : OrderedMap Text (List Text)) (key key' : Text)
    (labels : List Text) :
    ((addDashed details key labels).get? key').isSome = true ↔
      key' = key ∨ (details.get? key').isSome = true := by
  unfold addDashed
  by_cases h : key' = key
  · simp [h]
  · rw [OrderedMap.get?_set_of_ne _ _ h]
    simp [h]

/-- What a round of the loop leaves: the pairs and the dashed links of the legs so far. -/
structure Compacted (start result : Compaction) (found : List (Text × Bool × Text)) : Prop where
  chain : result.nodes.IsChain (· ≠ ·)
  pair : ∀ u v, (u, v) ∈ pairs result.nodes ↔
    (u, v) ∈ pairs start.nodes ∨ u ≠ v ∧ ∃ marked, (u, marked, v) ∈ found
  dashed : ∀ key, (result.dashedLinkDetails.get? key).isSome = true ↔
    (start.dashedLinkDetails.get? key).isSome = true ∨
      ∃ u v, (u, true, v) ∈ found ∧ u ≠ v ∧ key = buildLinkKey u v

/-- The first leg of a walk is found in one round, and the others in the rounds after it. -/
theorem Compacted.cons {start next result : Compaction} {u v : Text} {marked : Bool}
    {found : List (Text × Bool × Text)} (h : Compacted next result found)
    (hpairs : ∀ x y, (x, y) ∈ pairs next.nodes ↔
      (x, y) ∈ pairs start.nodes ∨ u ≠ v ∧ x = u ∧ y = v)
    (hdashed : ∀ key, (next.dashedLinkDetails.get? key).isSome = true ↔
      (start.dashedLinkDetails.get? key).isSome = true ∨
        marked = true ∧ u ≠ v ∧ key = buildLinkKey u v) :
    Compacted start result ((u, marked, v) :: found) where
  chain := h.chain
  pair x y := by
    rw [h.pair, hpairs, or_assoc]
    refine or_congr_right ?_
    constructor
    · rintro (⟨hne, rfl, rfl⟩ | ⟨hne, m, hm⟩)
      · exact ⟨hne, marked, List.mem_cons_self⟩
      · exact ⟨hne, m, List.mem_cons_of_mem _ hm⟩
    · rintro ⟨hne, m, hm⟩
      rcases List.mem_cons.mp hm with heq | hm
      · obtain ⟨rfl, -, rfl⟩ : x = u ∧ m = marked ∧ y = v := by simpa using heq
        exact .inl ⟨hne, rfl, rfl⟩
      · exact .inr ⟨hne, m, hm⟩
  dashed key := by
    rw [h.dashed, hdashed, or_assoc]
    refine or_congr_right ?_
    constructor
    · rintro (⟨rfl, hne, rfl⟩ | ⟨x, y, hxy, hne, rfl⟩)
      · exact ⟨u, v, List.mem_cons_self, hne, rfl⟩
      · exact ⟨x, y, List.mem_cons_of_mem _ hxy, hne, rfl⟩
    · rintro ⟨x, y, hxy, hne, rfl⟩
      rcases List.mem_cons.mp hxy with heq | hxy
      · obtain ⟨rfl, rfl, rfl⟩ : x = u ∧ true = marked ∧ y = v := by simpa using heq
        exact .inl ⟨rfl, hne, rfl⟩
      · exact .inr ⟨x, y, hxy, hne, rfl⟩

/-- The same nodes and dashed links may be taken for the start. -/
theorem Compacted.of_same {start next result : Compaction} {found : List (Text × Bool × Text)}
    (h : Compacted next result found) (hnodes : next.nodes = start.nodes)
    (hdashed : next.dashedLinkDetails = start.dashedLinkDetails) :
    Compacted start result found := by
  refine ⟨h.chain, fun u v => ?_, fun key => ?_⟩
  · rw [h.pair, hnodes]
  · rw [h.dashed, hdashed]

/-- The leg from `last` to `id` has been added, and no leg is marked. -/
structure LegAdded (c next : Compaction) (last id : Text) : Prop where
  chain : next.nodes.IsChain (· ≠ ·)
  getLast : next.nodes.getLast? = some id
  pending : next.pendingHiddenLink = false
  pair : ∀ x y, (x, y) ∈ pairs next.nodes ↔
    (x, y) ∈ pairs c.nodes ∨ last ≠ id ∧ x = last ∧ y = id
  dashed : ∀ key, (next.dashedLinkDetails.get? key).isSome = true ↔
    (c.dashedLinkDetails.get? key).isSome = true ∨
      c.pendingHiddenLink = true ∧ last ≠ id ∧ key = buildLinkKey last id

/-- A node that is drawn ends the leg from the node before it. -/
theorem legAdded_compactStep {c : Compaction} (step : PathStep) {last id : Text}
    (hid : orNull step.nodeId = some id) (hlast : c.nodes.getLast? = some last)
    (hchain : c.nodes.IsChain (· ≠ ·)) : LegAdded c (compactStep c step) last id := by
  simp only [compactStep, hid, hlast]
  by_cases heq : last = id
  · subst heq
    rw [if_pos rfl]
    exact ⟨hchain, hlast, rfl, by simp, by simp⟩
  · rw [if_neg heq]
    refine ⟨?_, by simp, rfl, fun x y => ?_, fun key => ?_⟩
    · refine List.isChain_append.mpr ⟨hchain, by simp, ?_⟩
      intro x hx y hy
      rw [hlast] at hx
      obtain rfl : last = x := Option.some.inj hx
      obtain rfl : id = y := by simpa using hy
      exact heq
    · rw [mem_pairs_concat hlast]
      simp [heq]
    · dsimp only
      split
      next hpending => rw [isSome_get?_addDashed]; simp [hpending, heq, or_comm]
      next hpending => simp [hpending]

/-- The first node that is drawn. -/
theorem compactStep_first {c : Compaction} {step : PathStep} {id : Text}
    (hid : orNull step.nodeId = some id) (hnil : c.nodes = []) :
    compactStep c step = ⟨[id], c.dashedLinkDetails, false, []⟩ := by
  simp [compactStep, hid, hnil]

/-- A node that is hidden before any is drawn. -/
theorem compactStep_leading {c : Compaction} {step : PathStep}
    (hid : orNull step.nodeId = none) (hnil : c.nodes = []) : compactStep c step = c := by
  simp [compactStep, hid, hnil]

/-- A node that is hidden may mark the leg that goes on past it. -/
theorem compactStep_hidden {c : Compaction} (step : PathStep)
    (hid : orNull step.nodeId = none) (hcons : c.nodes ≠ []) :
    (compactStep c step).nodes = c.nodes ∧
      (compactStep c step).dashedLinkDetails = c.dashedLinkDetails ∧
      (compactStep c step).pendingHiddenLink =
        (c.pendingHiddenLink || step.markHiddenLinkWhenOmitted) := by
  have hempty : c.nodes.isEmpty = false := by simpa using hcons
  simp only [compactStep, hid, hempty, Bool.not_false, Bool.and_true]
  cases step.markHiddenLinkWhenOmitted <;> simp

/-- The loop over the steps from an index on. The mark of the last step is never used. -/
theorem compacted_foldl (state : PacketNetworkState)
    (visibility : PacketNetworkVisibilityOptions) {length : Nat} {rest : List Text}
    (hne : ∀ id ∈ rest, id ≠ [])
    (index : Nat) (hlength : index + rest.length = length) (c : Compaction)
    (hchain : c.nodes.IsChain (· ≠ ·)) (hindex : c.nodes ≠ [] → 0 < index) (marked : Bool)
    (hmarked : rest ≠ [] → c.nodes ≠ [] → marked = c.pendingHiddenLink) :
    Compacted c ((projectSteps state visibility length index rest).foldl compactStep c)
      (legsFrom (isShown state visibility) (isHiddenRepeater state visibility)
        (c.nodes.getLast?.map fun last => (last, marked)) rest) := by
  induction rest generalizing index c marked with
  | nil => exact ⟨hchain, by simp [projectSteps, legsFrom], by simp [projectSteps, legsFrom]⟩
  | cons id rest ih =>
      have hid : id ≠ [] := hne id List.mem_cons_self
      have hlength' : index + 1 + rest.length = length := by
        rw [← hlength, List.length_cons]
        omega
      have ih' := fun c hchain hindex marked hmarked =>
        ih (fun id h => hne id (List.mem_cons_of_mem _ h)) (index + 1) hlength' c hchain hindex
          marked hmarked
      rw [projectSteps, List.foldl_cons]
      by_cases hshown : isShown state visibility id = true
      · -- the node is drawn: it ends the leg from the node before it
        have hsome : orNull (some id) = some id := by simp [orNull, hid]
        simp only [hshown, if_true]
        cases hlast : c.nodes.getLast? with
        | none =>
            have hnil : c.nodes = [] := List.getLast?_eq_none_iff.mp hlast
            rw [compactStep_first hsome hnil]
            have h := ih' ⟨[id], c.dashedLinkDetails, false, []⟩ (by simp)
              (fun _ => Nat.succ_pos _) false (fun _ _ => rfl)
            simp only [Option.map_none, legsFrom, hshown, if_true]
            exact ⟨h.chain, fun u v => by rw [h.pair]; simp [hnil], h.dashed⟩
        | some last =>
            have hcons : c.nodes ≠ [] := by
              intro hnil
              simp [hnil] at hlast
            obtain rfl : marked = c.pendingHiddenLink := hmarked (by simp) hcons
            simp only [Option.map_some, legsFrom, hshown, if_true]
            have hadded := legAdded_compactStep ⟨some id,
              isHiddenRepeater state visibility id && decide (0 < index) &&
                decide (index + 1 < length), none⟩ hsome hlast hchain
            have h := ih' _ hadded.chain (fun _ => Nat.succ_pos _) false
              (fun _ _ => hadded.pending.symm)
            rw [hadded.getLast] at h
            exact h.cons hadded.pair hadded.dashed
      · -- the node is hidden: it may mark the leg that goes on past it
        have hhidden : isShown state visibility id = false := by simpa using hshown
        have hnone : orNull (none : Option Text) = none := rfl
        simp only [hhidden, Bool.false_eq_true, if_false]
        cases hlast : c.nodes.getLast? with
        | none =>
            have hnil : c.nodes = [] := List.getLast?_eq_none_iff.mp hlast
            rw [compactStep_leading hnone hnil]
            have h := ih' c hchain (fun h => absurd hnil h) marked (fun _ h => absurd hnil h)
            simp only [Option.map_none, legsFrom, hhidden, Bool.false_eq_true, if_false]
            simp only [hlast, Option.map_none] at h
            exact h
        | some last =>
            have hcons : c.nodes ≠ [] := by
              intro hnil
              simp [hnil] at hlast
            obtain rfl : marked = c.pendingHiddenLink := hmarked (by simp) hcons
            simp only [Option.map_some, legsFrom, hhidden, Bool.false_eq_true, if_false]
            obtain ⟨hnodes, hdashed, hpending⟩ := compactStep_hidden ⟨none,
              isHiddenRepeater state visibility id && decide (0 < index) &&
                decide (index + 1 < length), none⟩ hnone hcons
            have h := ih' _ (by rwa [hnodes]) (fun _ => Nat.succ_pos _)
              (c.pendingHiddenLink || isHiddenRepeater state visibility id)
              (fun hrest _ => by
                -- Only a step with a step after it uses its mark.
                have hlater : index + 1 < length := by
                  have := List.length_pos_of_ne_nil hrest
                  omega
                rw [hpending]
                simp [hindex hcons, hlater])
            rw [hnodes, hlast] at h
            exact h.of_same hnodes hdashed

/-- The pairs of a projected path are the legs of the path that join two nodes. -/
theorem mem_pairs_projectCanonicalPath (state : PacketNetworkState)
    (visibility : PacketNetworkVisibilityOptions) {path : List Text} (hne : ∀ id ∈ path, id ≠ [])
    {u v : Text} :
    (u, v) ∈ pairs (projectCanonicalPath state path visibility).nodes ↔
      u ≠ v ∧ ∃ marked, (u, marked, v) ∈ pathLegs state visibility path := by
  have h := compacted_foldl state visibility hne 0 (Nat.zero_add _)
    ⟨[], .empty, false, []⟩ (by simp) (by simp) false (by simp)
  unfold projectCanonicalPath compactPathSteps
  dsimp only
  rw [dedupeConsecutive_of_isChain h.chain]
  exact (h.pair u v).trans (by simp [pathLegs, legs])

/-- A link of a projected path is dashed when a leg that it stands for is marked. -/
theorem isSome_dashedLinkDetails {path : List Text} (hne : ∀ id ∈ path, id ≠ []) {key : Text} :
    ((projectCanonicalPath state path visibility).dashedLinkDetails.get? key).isSome = true ↔
      ∃ u v, (u, true, v) ∈ pathLegs state visibility path ∧ u ≠ v ∧ key = buildLinkKey u v := by
  have h := compacted_foldl state visibility hne 0 (Nat.zero_add _)
    ⟨[], .empty, false, []⟩ (by simp) (by simp) false (by simp)
  exact (h.dashed key).trans (by simp [pathLegs, legs])

/-- The sightings of an observation are its legs that join two nodes. -/
theorem mem_sightings {observation : PacketNetworkObservation}
    (hne : ∀ id ∈ observation.nodes, id ≠ []) {sighting : Sighting} :
    sighting ∈ sightings state visibility observation ↔
      sighting.sourceId ≠ sighting.targetId ∧
      (∃ marked, (sighting.sourceId, marked, sighting.targetId) ∈
        pathLegs state visibility observation.nodes) ∧
      sighting.activityAtMs = observation.activityAtMs ∧
      sighting.dashed = (projectCanonicalPath state observation.nodes
        visibility).dashedLinkDetails.get? sighting.key := by
  have hpairs := fun u v => mem_pairs_projectCanonicalPath state visibility hne (u := u) (v := v)
  unfold sightings
  dsimp only
  split
  next hshort =>
    -- a path of one node has no pair
    have hnone : pairs (projectCanonicalPath state observation.nodes visibility).nodes = [] := by
      cases h : (projectCanonicalPath state observation.nodes visibility).nodes with
      | nil => rfl
      | cons first rest =>
          cases rest with
          | nil => rfl
          | cons second rest =>
              rw [h] at hshort
              simp at hshort
    rw [hnone] at hpairs
    constructor
    · intro h
      simp at h
    · rintro ⟨hst, hleg, -, -⟩
      exact absurd ((hpairs _ _).mpr ⟨hst, hleg⟩) (by simp)
  next =>
    rw [List.mem_map]
    constructor
    · rintro ⟨⟨u, v⟩, huv, rfl⟩
      obtain ⟨hmem, -⟩ := List.mem_filter.mp huv
      obtain ⟨hst, hleg⟩ := (hpairs u v).mp hmem
      exact ⟨hst, hleg, rfl, rfl⟩
    · rintro ⟨hst, hleg, hat, hdashed⟩
      obtain ⟨sourceId, targetId, activityAtMs, dashed⟩ := sighting
      refine ⟨(sourceId, targetId), List.mem_filter.mpr ⟨(hpairs _ _).mpr ⟨hst, hleg⟩, ?_⟩, ?_⟩
      · simpa using hst
      · simp only at hat hdashed
        rw [hat, hdashed]
        rfl

/-! ### The entry of a link -/

/-- A projected link sums its sightings up. -/
structure Summary (items : List Sighting) (link : ProjectedPacketNetworkLink) : Prop where
  ends : ∃ x ∈ items, link.sourceId = x.sourceId ∧ link.targetId = x.targetId
  latest : ∀ x ∈ items, x.activityAtMs ≤ link.lastActivity
  attained : ∃ x ∈ items, link.lastActivity = x.activityAtMs
  direct : link.hasDirectObservation = true ↔ ∃ x ∈ items, x.dashed.isSome = false
  hidden : link.hasHiddenIntermediate = true ↔ ∃ x ∈ items, x.dashed.isSome = true

theorem summary_fresh (x : Sighting) : Summary [x] (freshSighting x) where
  ends := ⟨x, by simp, rfl, rfl⟩
  latest := by simp [freshSighting]
  attained := ⟨x, by simp, rfl⟩
  direct := by cases h : x.dashed <;> simp [freshSighting, h]
  hidden := by simp [freshSighting]

theorem Summary.merge {items : List Sighting} {link : ProjectedPacketNetworkLink}
    (h : Summary items link) (x : Sighting) : Summary (items ++ [x]) (mergeSighting x link) := by
  have hsame : (mergeSighting x link).sourceId = link.sourceId ∧
      (mergeSighting x link).targetId = link.targetId ∧
      (mergeSighting x link).lastActivity = max link.lastActivity x.activityAtMs := by
    unfold mergeSighting
    cases x.dashed <;> exact ⟨rfl, rfl, rfl⟩
  obtain ⟨hsource, htarget, hlast⟩ := hsame
  constructor
  · obtain ⟨y, hy, h₁, h₂⟩ := h.ends
    exact ⟨y, List.mem_append_left _ hy, hsource.trans h₁, htarget.trans h₂⟩
  · intro y hy
    rw [hlast]
    rcases List.mem_append.mp hy with hy | hy
    · exact (h.latest y hy).trans (le_max_left _ _)
    · obtain rfl := List.mem_singleton.mp hy
      exact le_max_right _ _
  · rw [hlast]
    rcases max_choice link.lastActivity x.activityAtMs with hmax | hmax
    · obtain ⟨y, hy, heq⟩ := h.attained
      exact ⟨y, List.mem_append_left _ hy, hmax.trans heq⟩
    · exact ⟨x, by simp, hmax⟩
  · have hdirect := h.direct
    cases hx : x.dashed <;> simp [mergeSighting, hx, hdirect]
  · have hhidden := h.hidden
    cases hx : x.dashed <;> simp [mergeSighting, hx, hhidden]

/-- The entry that sightings leave sums them up; there is none without a sighting. -/
theorem entryOf_sightings (items : List Sighting) :
    match OrderedMap.entryOf mergeSighting freshSighting none items with
    | some link => Summary items link
    | none => items = [] := by
  induction items using List.reverseRecOn with
  | nil => rfl
  | append_singleton items x ih =>
      have hstep : OrderedMap.entryOf mergeSighting freshSighting none (items ++ [x]) =
          some (((OrderedMap.entryOf mergeSighting freshSighting none items).map
            (mergeSighting x)).getD (freshSighting x)) := by
        simp [OrderedMap.entryOf]
      rw [hstep]
      cases hentry : OrderedMap.entryOf mergeSighting freshSighting none items with
      | none =>
          rw [hentry] at ih
          obtain rfl : items = [] := ih
          exact summary_fresh x
      | some link =>
          rw [hentry] at ih
          exact Summary.merge ih x

/-- A leg of an observation that joins two nodes, under a key. -/
def LegAt (state : PacketNetworkState) (visibility : PacketNetworkVisibilityOptions)
    (observation : PacketNetworkObservation) (key u : Text) (marked : Bool) (v : Text) : Prop :=
  (u, marked, v) ∈ pathLegs state visibility observation.nodes ∧ u ≠ v ∧ key = buildLinkKey u v

/-- What a projected link says, in terms of the legs under its key. -/
structure ProjectedLinkSpec (state : PacketNetworkState)
    (visibility : PacketNetworkVisibilityOptions) (key : Text)
    (link : ProjectedPacketNetworkLink) : Prop where
  ends : ∃ observation ∈ state.observations, ∃ marked,
    LegAt state visibility observation key link.sourceId marked link.targetId
  latest : ∀ observation ∈ state.observations, ∀ u marked v,
    LegAt state visibility observation key u marked v →
      observation.activityAtMs ≤ link.lastActivity
  attained : ∃ observation ∈ state.observations, ∃ u marked v,
    LegAt state visibility observation key u marked v ∧
      link.lastActivity = observation.activityAtMs
  direct : link.hasDirectObservation = true ↔
    ∃ observation ∈ state.observations, (∃ u marked v,
      LegAt state visibility observation key u marked v) ∧
      ¬ ∃ u v, LegAt state visibility observation key u true v
  hidden : link.hasHiddenIntermediate = true ↔
    ∃ observation ∈ state.observations, ∃ u v,
      LegAt state visibility observation key u true v

/-- The links of the projection are the keys of legs, and each says what its legs are. -/
theorem get?_projectedLinks (visibility : PacketNetworkVisibilityOptions) (sound : Sound state)
    (key : Text) :
    match (projectPacketNetwork state visibility).links.get? key with
    | some link => ProjectedLinkSpec state visibility key link
    | none => ∀ observation ∈ state.observations, ∀ u marked v,
        ¬ LegAt state visibility observation key u marked v := by
  have hne : ∀ observation ∈ state.observations, ∀ id ∈ observation.nodes, id ≠ [] :=
    fun observation h id hid => ((sound.ids observation h).nodeId id hid).ne_nil
  have hitem : ∀ x, x ∈ (state.observations.flatMap (sightings state visibility)).filter
      (fun x => x.key = key) ↔ ∃ observation ∈ state.observations,
        x ∈ sightings state visibility observation ∧ x.key = key := by
    intro x
    simp only [List.mem_filter, List.mem_flatMap, decide_eq_true_eq]
    tauto
  -- a leg is seen, and what is seen is a leg
  have hlegs : ∀ observation ∈ state.observations, ∀ u marked v,
      LegAt state visibility observation key u marked v →
      ∃ x ∈ sightings state visibility observation, x.key = key ∧
        x.activityAtMs = observation.activityAtMs ∧ (x.dashed.isSome = true ↔ ∃ u v,
          LegAt state visibility observation key u true v) := by
    rintro observation hobs u marked v ⟨hleg, huv, rfl⟩
    refine ⟨⟨u, v, observation.activityAtMs, (projectCanonicalPath state observation.nodes
      visibility).dashedLinkDetails.get? (buildLinkKey u v)⟩,
      (mem_sightings (hne observation hobs)).mpr ⟨huv, ⟨marked, hleg⟩, rfl, rfl⟩, rfl, rfl, ?_⟩
    exact isSome_dashedLinkDetails (hne observation hobs)
  have hseen : ∀ observation ∈ state.observations, ∀ x ∈ sightings state visibility observation,
      x.key = key → (∃ marked, LegAt state visibility observation key x.sourceId marked
        x.targetId) ∧ x.activityAtMs = observation.activityAtMs ∧
        (x.dashed.isSome = true ↔ ∃ u v, LegAt state visibility observation key u true v) := by
    rintro observation hobs x hx rfl
    obtain ⟨huv, ⟨marked, hleg⟩, hat, hdashed⟩ := (mem_sightings (hne observation hobs)).mp hx
    refine ⟨⟨marked, hleg, huv, rfl⟩, hat, ?_⟩
    rw [hdashed]
    exact isSome_dashedLinkDetails (hne observation hobs)
  have hentry : (projectPacketNetwork state visibility).links.get? key =
      OrderedMap.entryOf mergeSighting freshSighting none
        ((state.observations.flatMap (sightings state visibility)).filter
          fun x => x.key = key) := by
    rw [projectPacketNetwork]
    dsimp only
    rw [OrderedMap.get?_collect, OrderedMap.get?_empty]
  have hsum := entryOf_sightings
    ((state.observations.flatMap (sightings state visibility)).filter fun x => x.key = key)
  rw [← hentry] at hsum
  cases hlink : (projectPacketNetwork state visibility).links.get? key with
  | none =>
      rw [hlink] at hsum
      intro observation hobs u marked v hleg
      obtain ⟨x, hx, hkey, -⟩ := hlegs observation hobs u marked v hleg
      exact List.eq_nil_iff_forall_not_mem.mp hsum x ((hitem x).mpr ⟨observation, hobs, hx, hkey⟩)
  | some link =>
      rw [hlink] at hsum
      constructor
      · obtain ⟨x, hx, hs, ht⟩ := hsum.ends
        obtain ⟨observation, hobs, hx, hkey⟩ := (hitem x).mp hx
        rw [hs, ht]
        exact ⟨observation, hobs, (hseen observation hobs x hx hkey).1⟩
      · intro observation hobs u marked v hleg
        obtain ⟨x, hx, hkey, hat, -⟩ := hlegs observation hobs u marked v hleg
        rw [← hat]
        exact hsum.latest x ((hitem x).mpr ⟨observation, hobs, hx, hkey⟩)
      · obtain ⟨x, hx, hat⟩ := hsum.attained
        obtain ⟨observation, hobs, hx, hkey⟩ := (hitem x).mp hx
        obtain ⟨⟨marked, hleg⟩, hat', -⟩ := hseen observation hobs x hx hkey
        exact ⟨observation, hobs, _, marked, _, hleg, hat.trans hat'⟩
      · rw [hsum.direct]
        constructor
        · rintro ⟨x, hx, hdashed⟩
          obtain ⟨observation, hobs, hx, hkey⟩ := (hitem x).mp hx
          obtain ⟨⟨marked, hleg⟩, -, hiff⟩ := hseen observation hobs x hx hkey
          exact ⟨observation, hobs, ⟨_, marked, _, hleg⟩, fun h => by simp [hiff.mpr h] at hdashed⟩
        · rintro ⟨observation, hobs, ⟨u, marked, v, hleg⟩, hnot⟩
          obtain ⟨x, hx, hkey, -, hiff⟩ := hlegs observation hobs u marked v hleg
          refine ⟨x, (hitem x).mpr ⟨observation, hobs, hx, hkey⟩, ?_⟩
          simpa using fun h => hnot (hiff.mp h)
      · rw [hsum.hidden]
        constructor
        · rintro ⟨x, hx, hdashed⟩
          obtain ⟨observation, hobs, hx, hkey⟩ := (hitem x).mp hx
          exact ⟨observation, hobs, (hseen observation hobs x hx hkey).2.2.mp hdashed⟩
        · rintro ⟨observation, hobs, u, v, hleg⟩
          obtain ⟨x, hx, hkey, -, hiff⟩ := hlegs observation hobs u true v hleg
          exact ⟨x, (hitem x).mpr ⟨observation, hobs, hx, hkey⟩, hiff.mpr ⟨u, v, hleg⟩⟩

/-- Legs under one key join the same two nodes. -/
theorem LegAt.ends_eq (sound : Sound state) {observation observation' : PacketNetworkObservation}
    (hobs : observation ∈ state.observations) (hobs' : observation' ∈ state.observations)
    {key u v u' v' : Text} {marked marked' : Bool}
    (h : LegAt state visibility observation key u marked v)
    (h' : LegAt state visibility observation' key u' marked' v') : s(u, v) = s(u', v') := by
  have hids : ∀ observation ∈ state.observations, ∀ {u v : Text} {marked : Bool},
      (u, marked, v) ∈ pathLegs state visibility observation.nodes → IsNodeId u ∧ IsPlain v := by
    intro observation hobs u v marked hleg
    obtain ⟨before, between, after, hpath, -⟩ := mem_legs_iff.mp hleg
    have hok := sound.ids observation hobs
    rw [hpath] at hok
    refine ⟨hok.nodeId u (by simp), hok.plain v ?_⟩
    cases before with
    | nil => simp
    | cons x before => simp
  obtain ⟨hu, hv⟩ := hids observation hobs h.1
  obtain ⟨hu', hv'⟩ := hids observation' hobs' h'.1
  exact buildLinkKey_inj hu hv hu' hv' (h.2.2.symm.trans h'.2.2)

end PacketNetwork

end RemoteTerm
