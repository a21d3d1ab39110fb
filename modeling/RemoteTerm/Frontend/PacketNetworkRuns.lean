import RemoteTerm.Frontend.PacketNetworkIds

/-!
# Runs of the packet network

A packet adds its path to the observations, and a link and two neighbours for each
pair of nodes that follow each other on it. Pruning removes the nodes without
recent activity, the links that lost an end and the observations that lost a node.
Whatever comes in which order, the links and the neighbours tell the same.

## Implementation notes

The set of neighbours of a node is a list without order.
-/

namespace RemoteTerm

namespace PacketNetwork

open Library Library.Walk

/-! ### The operations -/

/-- `addCanonicalLink`. -/
def addCanonicalLink (links : OrderedMap Text PacketNetworkLink) (sourceId targetId : Text)
    (activityAtMs : Int) : OrderedMap Text PacketNetworkLink :=
  links.upsert (buildLinkKey sourceId targetId)
    (fun existing => { existing with lastActivity := max existing.lastActivity activityAtMs })
    ⟨sourceId, targetId, activityAtMs⟩

/-- `ensureSet(id).add(neighbor)`. -/
def addNeighbor (neighborIds : OrderedMap Text (List Text)) (id neighbor : Text) :
    OrderedMap Text (List Text) :=
  neighborIds.upsert id (fun existing => existing.insert neighbor) [neighbor]

/-- `upsertNeighbor`. -/
def upsertNeighbor (neighborIds : OrderedMap Text (List Text)) (sourceId targetId : Text) :
    OrderedMap Text (List Text) :=
  addNeighbor (addNeighbor neighborIds sourceId targetId) targetId sourceId

/-- The loop over the pairs of a path. -/
def addLinks (activityAtMs : Int) (state : PacketNetworkState) (path : List Text) :
    PacketNetworkState :=
  (pairs path).foldl
    (fun state (sourceId, targetId) =>
      if sourceId = targetId then state
      else
        { state with
          links := addCanonicalLink state.links sourceId targetId activityAtMs
          neighborIds := upsertNeighbor state.neighborIds sourceId targetId })
    state

/-- `normalizePacketTimestampMs`. -/
def normalizePacketTimestampMs (now : Int) (timestamp : Option Int) : Int :=
  match timestamp with
  | none => now
  | some ts => if ts ≤ 0 then now else if ts > 1000000000000 then ts else ts * 1000

/-- The state after a path was built from a packet and entered. -/
def enterPath (activityAtMs : Int) (built : PacketNetworkState × List Text) :
    PacketNetworkState :=
  if built.2.length < 2 then built.1
  else
    addLinks activityAtMs
      { built.1 with observations := built.1.observations ++ [⟨built.2, activityAtMs⟩] } built.2

/-- `ingestPacketIntoPacketNetwork`. -/
def ingestPacketIntoPacketNetwork (decode : Text → Option DecodedPacket) (now : Int)
    (context : PacketNetworkContext) (packet : RawPacket) (state : PacketNetworkState) :
    PacketNetworkState :=
  match parsePacket decode packet.data with
  | none => state
  | some parsed =>
      let activityAtMs := normalizePacketTimestampMs now packet.timestamp
      enterPath activityAtMs
        (buildCanonicalPathForPacket now state context parsed packet activityAtMs)

/-- A node stays: it is our own, or active since the cutoff. -/
def keepsNode (cutoff : Int) (id : Text) (node : PacketNetworkNode) : Bool :=
  id = selfId || cutoff ≤ node.lastActivity

/-- The nodes that stay. -/
def prunedNodes (state : PacketNetworkState) (cutoff : Int) : OrderedMap Text PacketNetworkNode :=
  state.nodes.filter (keepsNode cutoff)

/-- `state.neighborIds`, rebuilt from the links. -/
def rebuildNeighborIds (links : List PacketNetworkLink) : OrderedMap Text (List Text) :=
  links.foldl (fun neighborIds link => upsertNeighbor neighborIds link.sourceId link.targetId)
    .empty

/-- `prunePacketNetworkState`. -/
def prunePacketNetworkState (state : PacketNetworkState) (cutoff : Int) : PacketNetworkState :=
  let nodes := prunedNodes state cutoff
  if nodes.entries.length = state.nodes.entries.length then state
  else
    let links := state.links.filter fun _ link =>
      (nodes.get? link.sourceId).isSome && (nodes.get? link.targetId).isSome
    { state with
      nodes := nodes
      links := links
      observations := state.observations.filter fun observation =>
        observation.nodes.all fun nodeId => (nodes.get? nodeId).isSome
      neighborIds := rebuildNeighborIds (links.entries.map Prod.snd) }

/-- What happens to the state. -/
inductive NetworkEvent where
  | ingest (now : Int) (context : PacketNetworkContext) (packet : RawPacket)
  | prune (cutoff : Int)
  | clear (now : Int)

/-- One event. -/
def applyEvent (decode : Text → Option DecodedPacket) (state : PacketNetworkState) :
    NetworkEvent → PacketNetworkState
  | .ingest now context packet => ingestPacketIntoPacketNetwork decode now context packet state
  | .prune cutoff => prunePacketNetworkState state cutoff
  | .clear now => clearPacketNetworkState now state

/-- What the decoder gives is hexadecimal. -/
def HexDecoder (decode : Text → Option DecodedPacket) : Prop :=
  ∀ data parsed, parsePacket decode data = some parsed → HexPacket parsed

/-- The contacts of the event have hexadecimal keys. -/
def NetworkEvent.HexKeys : NetworkEvent → Prop
  | .ingest _ context _ => HexContacts context
  | .prune _ => True
  | .clear _ => True

/-! ### Links and neighbours -/

variable {links : OrderedMap Text PacketNetworkLink} {neighborIds : OrderedMap Text (List Text)}

/-- `b` is a neighbour of `a`. -/
def IsNeighbor (neighborIds : OrderedMap Text (List Text)) (a b : Text) : Prop :=
  ∃ ids, neighborIds.get? a = some ids ∧ b ∈ ids

/-- Some link joins the two nodes. -/
def Joined (links : OrderedMap Text PacketNetworkLink) (a b : Text) : Prop :=
  ∃ key link, links.get? key = some link ∧ s(link.sourceId, link.targetId) = s(a, b)

/-- A link stands under its own key and joins two nodes, of which one at most is a name. -/
structure LinkOk (key : Text) (link : PacketNetworkLink) : Prop where
  key : key = buildLinkKey link.sourceId link.targetId
  source : IsNodeId link.sourceId
  target : IsPlain link.targetId
  ne : link.sourceId ≠ link.targetId

/-- The links are in order, and the neighbours are those that the links join. -/
structure Books (links : OrderedMap Text PacketNetworkLink)
    (neighborIds : OrderedMap Text (List Text)) : Prop where
  link : ∀ key link, links.get? key = some link → LinkOk key link
  neighbor : ∀ a b, IsNeighbor neighborIds a b ↔ Joined links a b

theorem isNeighbor_addNeighbor {id neighbor a b : Text} :
    IsNeighbor (addNeighbor neighborIds id neighbor) a b ↔
      a = id ∧ b = neighbor ∨ IsNeighbor neighborIds a b := by
  unfold IsNeighbor addNeighbor
  rw [OrderedMap.get?_upsert]
  by_cases ha : a = id
  · subst ha
    rw [if_pos rfl]
    cases h : neighborIds.get? a with
    | none => simp
    | some ids => simp
  · simp [ha]

theorem isNeighbor_upsertNeighbor {sourceId targetId a b : Text} :
    IsNeighbor (upsertNeighbor neighborIds sourceId targetId) a b ↔
      s(sourceId, targetId) = s(a, b) ∨ IsNeighbor neighborIds a b := by
  rw [upsertNeighbor, isNeighbor_addNeighbor, isNeighbor_addNeighbor, Sym2.eq_iff]
  constructor
  · rintro (⟨rfl, rfl⟩ | ⟨rfl, rfl⟩ | h)
    · exact .inl (.inr ⟨rfl, rfl⟩)
    · exact .inl (.inl ⟨rfl, rfl⟩)
    · exact .inr h
  · rintro ((⟨rfl, rfl⟩ | ⟨rfl, rfl⟩) | h)
    · exact .inr (.inl ⟨rfl, rfl⟩)
    · exact .inl ⟨rfl, rfl⟩
    · exact .inr (.inr h)

/-- The rebuilt neighbours are those that some link of the list joins. -/
theorem isNeighbor_rebuild {list : List PacketNetworkLink} {a b : Text} :
    IsNeighbor (rebuildNeighborIds list) a b ↔
      ∃ link ∈ list, s(link.sourceId, link.targetId) = s(a, b) := by
  have hfold : ∀ (start : OrderedMap Text (List Text)),
      IsNeighbor (list.foldl (fun neighborIds link =>
          upsertNeighbor neighborIds link.sourceId link.targetId) start) a b ↔
        IsNeighbor start a b ∨ ∃ link ∈ list, s(link.sourceId, link.targetId) = s(a, b) := by
    induction list with
    | nil => simp
    | cons link list ih =>
        intro start
        rw [List.foldl_cons, ih, isNeighbor_upsertNeighbor, List.exists_mem_cons_iff]
        tauto
  rw [rebuildNeighborIds, hfold]
  simp [IsNeighbor]

/-- A link that is already there is the same link. -/
theorem Books.ends (books : Books links neighborIds) {a b : Text} (ha : IsNodeId a)
    (hb : IsPlain b) {link : PacketNetworkLink}
    (h : links.get? (buildLinkKey a b) = some link) :
    s(link.sourceId, link.targetId) = s(a, b) := by
  have hok := books.link _ _ h
  exact buildLinkKey_inj hok.source hok.target ha hb hok.key.symm

/-- What is stored under a key after a link was added. -/
theorem addCanonicalLink_cases {a b key : Text} {at_ : Int} {link : PacketNetworkLink}
    (h : (addCanonicalLink links a b at_).get? key = some link) :
    (key = buildLinkKey a b ∧ ((∃ old, links.get? key = some old ∧
        link = { old with lastActivity := max old.lastActivity at_ }) ∨
      links.get? key = none ∧ link = ⟨a, b, at_⟩)) ∨
    key ≠ buildLinkKey a b ∧ links.get? key = some link := by
  unfold addCanonicalLink at h
  rw [OrderedMap.get?_upsert] at h
  by_cases hkey : key = buildLinkKey a b
  · rw [if_pos hkey] at h
    refine .inl ⟨hkey, ?_⟩
    rw [← hkey] at h
    cases hold : links.get? key with
    | none =>
        rw [hold] at h
        exact .inr ⟨rfl, (Option.some.inj h).symm⟩
    | some old =>
        rw [hold] at h
        exact .inl ⟨old, rfl, (Option.some.inj h).symm⟩
  · rw [if_neg hkey] at h
    exact .inr ⟨hkey, h⟩

/-- A link stays, with its ends, and never becomes older. -/
theorem addCanonicalLink_keeps (a b : Text) (at_ : Int) {key : Text} {link : PacketNetworkLink}
    (h : links.get? key = some link) :
    ∃ link', (addCanonicalLink links a b at_).get? key = some link' ∧
      link'.sourceId = link.sourceId ∧ link'.targetId = link.targetId ∧
      link.lastActivity ≤ link'.lastActivity := by
  unfold addCanonicalLink
  rw [OrderedMap.get?_upsert]
  by_cases hkey : key = buildLinkKey a b
  · rw [if_pos hkey, ← hkey, h]
    exact ⟨_, rfl, rfl, rfl, le_max_left _ _⟩
  · rw [if_neg hkey]
    exact ⟨link, h, rfl, rfl, le_rfl⟩

/-- The added link is there. -/
theorem addCanonicalLink_adds (links : OrderedMap Text PacketNetworkLink) (a b : Text)
    (at_ : Int) :
    ∃ link, (addCanonicalLink links a b at_).get? (buildLinkKey a b) = some link ∧
      at_ ≤ link.lastActivity := by
  unfold addCanonicalLink
  rw [OrderedMap.get?_upsert_self]
  cases links.get? (buildLinkKey a b) with
  | none => exact ⟨_, rfl, le_rfl⟩
  | some old => exact ⟨_, rfl, le_max_right _ _⟩

/-- Adding a link and its neighbours keeps the two views in agreement. -/
theorem Books.add (books : Books links neighborIds) {a b : Text} (ha : IsNodeId a)
    (hb : IsPlain b) (hne : a ≠ b) (at_ : Int) :
    Books (addCanonicalLink links a b at_) (upsertNeighbor neighborIds a b) := by
  constructor
  · intro key link h
    rcases addCanonicalLink_cases h with ⟨hkey, ⟨old, hold, rfl⟩ | ⟨-, rfl⟩⟩ | ⟨-, h⟩
    · obtain ⟨h₁, h₂, h₃, h₄⟩ := books.link _ _ hold
      exact ⟨h₁, h₂, h₃, h₄⟩
    · exact ⟨hkey, ha, hb, hne⟩
    · exact books.link _ _ h
  · intro x y
    rw [isNeighbor_upsertNeighbor, books.neighbor]
    constructor
    · rintro (h | ⟨key, link, hlink, hends⟩)
      · obtain ⟨link, hlink, -⟩ := addCanonicalLink_adds links a b at_
        refine ⟨_, link, hlink, Eq.trans ?_ h⟩
        rcases addCanonicalLink_cases hlink with ⟨-, ⟨old, hold, heq⟩ | ⟨-, rfl⟩⟩ | ⟨h, -⟩
        · have hends := books.ends ha hb hold
          rw [heq]
          exact hends
        · rfl
        · exact absurd rfl h
      · obtain ⟨link', hlink', hsource, htarget, -⟩ := addCanonicalLink_keeps a b at_ hlink
        exact ⟨key, link', hlink', by rw [hsource, htarget, hends]⟩
    · rintro ⟨key, link, hlink, hends⟩
      rcases addCanonicalLink_cases hlink with ⟨-, ⟨old, hold, rfl⟩ | ⟨-, rfl⟩⟩ | ⟨-, hlink⟩
      · exact .inr ⟨key, old, hold, hends⟩
      · exact .inl hends
      · exact .inr ⟨key, link, hlink, hends⟩

/-- What the loop over the pairs of a path leaves. -/
structure LinksAdded (activityAtMs : Int) (steps : List (Text × Text))
    (state state' : PacketNetworkState) : Prop where
  nodes : state'.nodes = state.nodes
  observations : state'.observations = state.observations
  books : Books state.links state.neighborIds → Books state'.links state'.neighborIds
  keeps : ∀ key link, state.links.get? key = some link →
    ∃ link', state'.links.get? key = some link' ∧ link.lastActivity ≤ link'.lastActivity
  adds : ∀ a b, (a, b) ∈ steps →
    ∃ link, state'.links.get? (buildLinkKey a b) = some link ∧ activityAtMs ≤ link.lastActivity
  time : ∀ key link, state'.links.get? key = some link →
    (∃ old, state.links.get? key = some old ∧ old.lastActivity = link.lastActivity) ∨
    ∃ a b, (a, b) ∈ steps ∧ key = buildLinkKey a b ∧ link.lastActivity = activityAtMs
  ends : ∀ key link, state'.links.get? key = some link →
    (∃ old, state.links.get? key = some old ∧ old.sourceId = link.sourceId ∧
      old.targetId = link.targetId) ∨
    (link.sourceId, link.targetId) ∈ steps

/-- The loop over the pairs, pair by pair. -/
theorem linksAdded_foldl (activityAtMs : Int) {steps : List (Text × Text)}
    (hsteps : ∀ a b, (a, b) ∈ steps → IsNodeId a ∧ IsPlain b ∧ a ≠ b)
    (state : PacketNetworkState) :
    LinksAdded activityAtMs steps state
      (steps.foldl
        (fun state (sourceId, targetId) =>
          if sourceId = targetId then state
          else
            { state with
              links := addCanonicalLink state.links sourceId targetId activityAtMs
              neighborIds := upsertNeighbor state.neighborIds sourceId targetId })
        state) := by
  induction steps generalizing state with
  | nil =>
      exact ⟨rfl, rfl, id, fun key link h => ⟨link, h, le_rfl⟩, by simp,
        fun key link h => .inl ⟨link, h, rfl⟩, fun key link h => .inl ⟨link, h, rfl, rfl⟩⟩
  | cons pair steps ih =>
      obtain ⟨a, b⟩ := pair
      obtain ⟨ha, hb, hne⟩ := hsteps a b List.mem_cons_self
      rw [List.foldl_cons]
      dsimp only
      rw [if_neg hne]
      obtain ⟨hnodes, hobs, hbooks, hkeeps, hadds, htime, hends⟩ :=
        ih (fun a b h => hsteps a b (List.mem_cons_of_mem _ h))
          { state with
            links := addCanonicalLink state.links a b activityAtMs
            neighborIds := upsertNeighbor state.neighborIds a b }
      refine ⟨hnodes, hobs, fun h => hbooks (h.add ha hb hne activityAtMs), ?_, ?_, ?_, ?_⟩
      · intro key link hlink
        obtain ⟨link', hlink', -, -, hle⟩ := addCanonicalLink_keeps a b activityAtMs hlink
        obtain ⟨link'', hlink'', hle'⟩ := hkeeps key link' hlink'
        exact ⟨link'', hlink'', hle.trans hle'⟩
      · intro x y hxy
        rcases List.mem_cons.mp hxy with heq | hxy
        · obtain ⟨rfl, rfl⟩ : x = a ∧ y = b := by simpa using heq
          obtain ⟨link, hlink, hle⟩ := addCanonicalLink_adds state.links x y activityAtMs
          obtain ⟨link', hlink', hle'⟩ := hkeeps _ link hlink
          exact ⟨link', hlink', hle.trans hle'⟩
        · exact hadds x y hxy
      · intro key link hlink
        rcases htime key link hlink with ⟨mid, hmid, heq⟩ | ⟨x, y, hxy, hkey, heq⟩
        · rcases addCanonicalLink_cases hmid with ⟨hkey, ⟨old, hold, rfl⟩ | ⟨-, rfl⟩⟩ | ⟨-, hold⟩
          · -- the later of the two times
            rcases max_choice old.lastActivity activityAtMs with hmax | hmax
            · exact .inl ⟨old, hold, by rw [← heq]; exact hmax.symm⟩
            · exact .inr ⟨a, b, List.mem_cons_self, hkey, by rw [← heq]; exact hmax⟩
          · exact .inr ⟨a, b, List.mem_cons_self, hkey, heq.symm⟩
          · exact .inl ⟨mid, hold, heq⟩
        · exact .inr ⟨x, y, List.mem_cons_of_mem _ hxy, hkey, heq⟩
      · intro key link hlink
        rcases hends key link hlink with ⟨mid, hmid, hsource, htarget⟩ | hxy
        · rcases addCanonicalLink_cases hmid with ⟨-, ⟨old, hold, rfl⟩ | ⟨-, rfl⟩⟩ | ⟨-, hold⟩
          · exact .inl ⟨old, hold, hsource, htarget⟩
          · exact .inr (by rw [← hsource, ← htarget]; exact List.mem_cons_self)
          · exact .inl ⟨mid, hold, hsource, htarget⟩
        · exact .inr (List.mem_cons_of_mem _ hxy)

/-! ### The invariant of every run -/

/-- What holds of every state that is reached. -/
structure Sound (state : PacketNetworkState) : Prop where
  books : Books state.links state.neighborIds
  self : Known state selfId
  linkEnds : ∀ key link, state.links.get? key = some link →
    Known state link.sourceId ∧ Known state link.targetId
  observed : ∀ observation ∈ state.observations, ∀ id ∈ observation.nodes, Known state id
  ids : ∀ observation ∈ state.observations, PathIds observation.nodes
  distinct : ∀ observation ∈ state.observations, observation.nodes.IsChain (· ≠ ·)
  covered : ∀ observation ∈ state.observations, ∀ a b, (a, b) ∈ pairs observation.nodes →
    ∃ link, state.links.get? (buildLinkKey a b) = some link ∧
      observation.activityAtMs ≤ link.lastActivity

/-- An observation shows the two ends of a link one after the other, at the time of its last
activity. -/
def Shows (observation : PacketNetworkObservation) (link : PacketNetworkLink) : Prop :=
  observation.activityAtMs = link.lastActivity ∧
    ∃ a b, (a, b) ∈ pairs observation.nodes ∧ s(a, b) = s(link.sourceId, link.targetId)

/-- Every link is shown by some observation. -/
def Supported (state : PacketNetworkState) : Prop :=
  ∀ key link, state.links.get? key = some link →
    ∃ observation ∈ state.observations, Shows observation link

theorem sound_create (now : Int) : Sound (createPacketNetworkState now) where
  books := ⟨by simp [createPacketNetworkState], by
    simp [createPacketNetworkState, IsNeighbor, Joined]⟩
  self := by simp [Known, createPacketNetworkState]
  linkEnds := by simp [createPacketNetworkState]
  observed := by simp [createPacketNetworkState]
  ids := by simp [createPacketNetworkState]
  distinct := by simp [createPacketNetworkState]
  covered := by simp [createPacketNetworkState]

theorem supported_create (now : Int) : Supported (createPacketNetworkState now) := by
  simp [Supported, createPacketNetworkState]

/-- Knowing more nodes keeps the invariant. -/
theorem Sound.extends {state state' : PacketNetworkState} (sound : Sound state)
    (h : Extends state state') : Sound state' where
  books := by
    rw [h.links, h.neighborIds]
    exact sound.books
  self := h.known _ sound.self
  linkEnds key link hlink := by
    rw [h.links] at hlink
    exact (sound.linkEnds key link hlink).imp (h.known _) (h.known _)
  observed observation hobs id hid := by
    rw [h.observations] at hobs
    exact h.known _ (sound.observed observation hobs id hid)
  ids := by
    rw [h.observations]
    exact sound.ids
  distinct := by
    rw [h.observations]
    exact sound.distinct
  covered := by
    rw [h.observations, h.links]
    exact sound.covered

/-- Entering a path: what is kept and what is added. -/
theorem linksAdded_enterPath {state : PacketNetworkState} (activityAtMs : Int)
    {built : PacketNetworkState × List Text} (hbuilt : PathBuilt state built) :
    LinksAdded activityAtMs (pairs built.2)
      { built.1 with observations := built.1.observations ++ [⟨built.2, activityAtMs⟩] }
      (addLinks activityAtMs
        { built.1 with observations := built.1.observations ++ [⟨built.2, activityAtMs⟩] }
        built.2) := by
  refine linksAdded_foldl activityAtMs (fun a b hab => ?_) _
  obtain ⟨ha, hb⟩ := mem_of_mem_pairs hab
  exact ⟨hbuilt.ids.nodeId a ha, hbuilt.ids.plain b hb, rel_of_mem_pairs hbuilt.distinct hab⟩

theorem Sound.enterPath {state : PacketNetworkState} (sound : Sound state) (activityAtMs : Int)
    {built : PacketNetworkState × List Text} (hbuilt : PathBuilt state built) :
    Sound (PacketNetwork.enterPath activityAtMs built) := by
  have hsound := sound.extends hbuilt.grows
  have hknown : ∀ id ∈ built.2, Known built.1 id := by
    intro id hid
    rcases hbuilt.known id hid with rfl | h
    · exact hsound.self
    · exact h
  unfold PacketNetwork.enterPath
  split
  · exact hsound
  · have hadded := linksAdded_enterPath activityAtMs hbuilt
    generalize addLinks activityAtMs
      { built.1 with observations := built.1.observations ++ [⟨built.2, activityAtMs⟩] } built.2 =
      state' at hadded
    obtain ⟨hnodes, hobs, hbooks, hkeeps, hadds, -, hends⟩ := hadded
    have hknown' : ∀ id, Known built.1 id → Known state' id := by
      intro id hid
      rw [Known, hnodes]
      exact hid
    have hcases : ∀ observation ∈ state'.observations,
        observation ∈ built.1.observations ∨ observation = ⟨built.2, activityAtMs⟩ := by
      intro observation h
      rw [hobs] at h
      simpa using h
    constructor
    · exact hbooks hsound.books
    · exact hknown' _ hsound.self
    · intro key link hlink
      rcases hends key link hlink with ⟨old, hold, hsource, htarget⟩ | hstep
      · rw [← hsource, ← htarget]
        exact (hsound.linkEnds key old hold).imp (hknown' _) (hknown' _)
      · obtain ⟨hs, ht⟩ := mem_of_mem_pairs hstep
        exact ⟨hknown' _ (hknown _ hs), hknown' _ (hknown _ (List.mem_of_mem_tail ht))⟩
    · intro observation h id hid
      rcases hcases observation h with h | rfl
      · exact hknown' _ (hsound.observed observation h id hid)
      · exact hknown' _ (hknown id hid)
    · intro observation h
      rcases hcases observation h with h | rfl
      · exact hsound.ids observation h
      · exact hbuilt.ids
    · intro observation h
      rcases hcases observation h with h | rfl
      · exact hsound.distinct observation h
      · exact hbuilt.distinct
    · intro observation h a b hab
      rcases hcases observation h with h | rfl
      · obtain ⟨link, hlink, hle⟩ := hsound.covered observation h a b hab
        obtain ⟨link', hlink', hle'⟩ := hkeeps _ link hlink
        exact ⟨link', hlink', hle.trans hle'⟩
      · exact hadds a b hab

/-- A link that two steps of a path share with a key is the link of that step. -/
theorem Books.ends_eq {links : OrderedMap Text PacketNetworkLink}
    {neighborIds : OrderedMap Text (List Text)} (books : Books links neighborIds) {a b key : Text}
    (ha : IsNodeId a) (hb : IsPlain b) {link : PacketNetworkLink} (h : links.get? key = some link)
    (hkey : key = buildLinkKey a b) : s(a, b) = s(link.sourceId, link.targetId) :=
  (books.ends ha hb (hkey ▸ h)).symm

theorem Supported.enterPath {state : PacketNetworkState} (sound : Sound state)
    (supported : Supported state) (activityAtMs : Int) {built : PacketNetworkState × List Text}
    (hbuilt : PathBuilt state built) : Supported (PacketNetwork.enterPath activityAtMs built) := by
  have hsound := sound.extends hbuilt.grows
  have hafter := sound.enterPath activityAtMs hbuilt
  unfold PacketNetwork.enterPath at hafter ⊢
  split at hafter
  next hshort =>
    rw [if_pos hshort]
    intro key link hlink
    rw [hbuilt.grows.links] at hlink
    rw [hbuilt.grows.observations]
    exact supported key link hlink
  next hshort =>
    rw [if_neg hshort]
    have hadded := linksAdded_enterPath activityAtMs hbuilt
    generalize addLinks activityAtMs
      { built.1 with observations := built.1.observations ++ [⟨built.2, activityAtMs⟩] } built.2 =
      state' at hadded hafter
    intro key link hlink
    rw [hadded.observations]
    rcases hadded.time key link hlink with ⟨old, hold, htime⟩ | ⟨a, b, hab, hkey, htime⟩
    · have hold' : state.links.get? key = some old := by
        rw [← hbuilt.grows.links]
        exact hold
      obtain ⟨observation, hobs, hat, a, b, hab, hends⟩ := supported key old hold'
      have hnew : s(old.sourceId, old.targetId) = s(link.sourceId, link.targetId) := by
        have hok := hsound.books.link key old hold
        exact hafter.books.ends_eq hok.source hok.target hlink hok.key
      refine ⟨observation, List.mem_append_left _ ?_, hat.trans htime, a, b, hab,
        hends.trans hnew⟩
      rw [hbuilt.grows.observations]
      exact hobs
    · obtain ⟨ha, hb⟩ := mem_of_mem_pairs hab
      exact ⟨⟨built.2, activityAtMs⟩, List.mem_append_right _ List.mem_cons_self, htime.symm, a, b,
        hab, hafter.books.ends_eq (hbuilt.ids.nodeId a ha) (hbuilt.ids.plain b hb) hlink hkey⟩

/-! ### Pruning -/

/-- The node stays. -/
def Stays (state : PacketNetworkState) (cutoff : Int) (id : Text) : Prop :=
  ((prunedNodes state cutoff).get? id).isSome = true

theorem stays_self {state : PacketNetworkState} (sound : Sound state) (cutoff : Int) :
    Stays state cutoff selfId := by
  obtain ⟨node, hnode⟩ := Option.isSome_iff_exists.mp sound.self
  rw [Stays, prunedNodes, OrderedMap.get?_filter, hnode]
  simp [keepsNode, Option.filter]

/-- Pruning does nothing, or keeps what lost no node. -/
theorem prune_cases (state : PacketNetworkState) (cutoff : Int) :
    prunePacketNetworkState state cutoff = state ∨
    ((∀ id, Known (prunePacketNetworkState state cutoff) id ↔ Stays state cutoff id) ∧
      (∀ key link, (prunePacketNetworkState state cutoff).links.get? key = some link ↔
        state.links.get? key = some link ∧ Stays state cutoff link.sourceId ∧
          Stays state cutoff link.targetId) ∧
      (∀ observation, observation ∈ (prunePacketNetworkState state cutoff).observations ↔
        observation ∈ state.observations ∧ ∀ id ∈ observation.nodes, Stays state cutoff id) ∧
      (prunePacketNetworkState state cutoff).neighborIds =
        rebuildNeighborIds
          ((prunePacketNetworkState state cutoff).links.entries.map Prod.snd)) := by
  unfold prunePacketNetworkState
  dsimp only
  split
  · exact .inl rfl
  · refine .inr ⟨fun id => Iff.rfl, fun key link => ?_, fun observation => ?_, rfl⟩
    · dsimp only
      rw [OrderedMap.get?_filter, Option.filter_eq_some_iff, Bool.and_eq_true]
      rfl
    · simp only [List.mem_filter, List.all_eq_true]
      rfl

theorem Sound.prune {state : PacketNetworkState} (sound : Sound state) (cutoff : Int) :
    Sound (prunePacketNetworkState state cutoff) := by
  rcases prune_cases state cutoff with h | ⟨hknown, hlinks, hobs, hneighbors⟩
  · rw [h]
    exact sound
  generalize prunePacketNetworkState state cutoff = pruned at hknown hlinks hobs hneighbors
  constructor
  · constructor
    · intro key link h
      exact sound.books.link key link ((hlinks key link).mp h).1
    · intro a b
      rw [hneighbors, isNeighbor_rebuild]
      constructor
      · rintro ⟨link, hlink, hends⟩
        obtain ⟨⟨key, link'⟩, hentry, rfl⟩ := List.mem_map.mp hlink
        exact ⟨key, link', (OrderedMap.get?_eq_some_iff _).mpr hentry, hends⟩
      · rintro ⟨key, link, hlink, hends⟩
        exact ⟨link, List.mem_map.mpr ⟨(key, link), (OrderedMap.get?_eq_some_iff _).mp hlink, rfl⟩,
          hends⟩
  · exact (hknown _).mpr (stays_self sound cutoff)
  · intro key link h
    obtain ⟨-, hsource, htarget⟩ := (hlinks key link).mp h
    exact ⟨(hknown _).mpr hsource, (hknown _).mpr htarget⟩
  · intro observation h id hid
    exact (hknown id).mpr (((hobs observation).mp h).2 id hid)
  · intro observation h
    exact sound.ids observation ((hobs observation).mp h).1
  · intro observation h
    exact sound.distinct observation ((hobs observation).mp h).1
  · intro observation h a b hab
    obtain ⟨hmem, hstay⟩ := (hobs observation).mp h
    obtain ⟨link, hlink, hle⟩ := sound.covered observation hmem a b hab
    obtain ⟨ha, hb⟩ := mem_of_mem_pairs hab
    have hids := sound.ids observation hmem
    -- the link under the key joins the two nodes, and both of them stay
    have hends := sound.books.ends (hids.nodeId a ha) (hids.plain b hb) hlink
    have hboth : Stays state cutoff link.sourceId ∧ Stays state cutoff link.targetId := by
      have hsa := hstay a ha
      have hsb := hstay b (List.mem_of_mem_tail hb)
      rcases Sym2.eq_iff.mp hends with ⟨h₁, h₂⟩ | ⟨h₁, h₂⟩ <;> rw [h₁, h₂]
      · exact ⟨hsa, hsb⟩
      · exact ⟨hsb, hsa⟩
    exact ⟨link, (hlinks _ _).mpr ⟨hlink, hboth⟩, hle⟩

/-- Every event keeps the invariant. -/
theorem Sound.applyEvent {decode : Text → Option DecodedPacket} (hdecode : HexDecoder decode)
    {state : PacketNetworkState} (sound : Sound state) {event : NetworkEvent}
    (hevent : event.HexKeys) : Sound (PacketNetwork.applyEvent decode state event) := by
  cases event with
  | ingest now context packet =>
      show Sound (ingestPacketIntoPacketNetwork decode now context packet state)
      unfold ingestPacketIntoPacketNetwork
      split
      · exact sound
      next parsed hparsed =>
        exact sound.enterPath _ (pathBuilt packet hevent (hdecode _ _ hparsed))
  | prune cutoff => exact sound.prune cutoff
  | clear now => exact sound_create now

end PacketNetwork

end RemoteTerm
