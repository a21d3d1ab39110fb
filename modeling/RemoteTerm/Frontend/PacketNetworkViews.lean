import RemoteTerm.Frontend.PacketLinkMeaning

/-!
# The views of the packet network agree

The links and the neighbours always tell the same, and every node that they and
the observations name is known. The projection is drawn from the observations. A
link outlives a prune when its ends do, an observation only when all its nodes do,
so the drawn links are the stored ones as long as a prune leaves each link that it
keeps an observation that shows it.
-/

namespace RemoteTerm

namespace PacketNetwork

open Library Library.Walk

variable {state : PacketNetworkState}

/-- Everything is drawn. -/
def everythingVisible : PacketNetworkVisibilityOptions := ⟨true, true⟩

/-- The ends of a link, in no order, and the time of its last activity. -/
def storedLink (link : PacketNetworkLink) : Sym2 Text × Int :=
  (s(link.sourceId, link.targetId), link.lastActivity)

/-- The ends of a projected link, in no order, and the time of its last activity. -/
def drawnLink (link : ProjectedPacketNetworkLink) : Sym2 Text × Int :=
  (s(link.sourceId, link.targetId), link.lastActivity)

/-- The views of the state agree. -/
structure Consistent (state : PacketNetworkState) : Prop where
  linkEnds : ∀ key link, state.links.get? key = some link →
    Known state link.sourceId ∧ Known state link.targetId
  observed : ∀ observation ∈ state.observations, ∀ id ∈ observation.nodes, Known state id
  noLoop : ∀ key link, state.links.get? key = some link → link.sourceId ≠ link.targetId
  neighbors : ∀ a b, IsNeighbor state.neighborIds a b ↔ Joined state.links a b
  shown : ∀ key, ((projectPacketNetwork state everythingVisible).links.get? key).map drawnLink =
    (state.links.get? key).map storedLink

/-- Before a prune: each link that stays is shown by an observation that stays. -/
def KeepsSupport (state : PacketNetworkState) : NetworkEvent → Prop
  | .prune cutoff => ∀ key link, state.links.get? key = some link →
      Stays state cutoff link.sourceId → Stays state cutoff link.targetId →
      ∃ observation ∈ state.observations, Shows observation link ∧
        ∀ id ∈ observation.nodes, Stays state cutoff id
  | .ingest .. => True
  | .clear _ => True

theorem isShown_everythingVisible {id : Text} (h : Known state id) :
    isShown state everythingVisible id = true := by
  obtain ⟨node, hnode⟩ := Option.isSome_iff_exists.mp h
  simp [isShown, hnode, isPacketNetworkNodeVisible, everythingVisible]

/-- With everything drawn, the legs of an observation are its pairs. -/
theorem mem_pathLegs_everything (sound : Sound state) {observation : PacketNetworkObservation}
    (hobs : observation ∈ state.observations) {u v : Text} {marked : Bool} :
    (u, marked, v) ∈ pathLegs state everythingVisible observation.nodes ↔
      marked = false ∧ (u, v) ∈ pairs observation.nodes :=
  mem_legs_of_all_seen fun id hid =>
    isShown_everythingVisible (sound.observed observation hobs id hid)

/-- A stored link is drawn, as late as it is stored. -/
theorem drawn_of_stored (sound : Sound state) (supported : Supported state) {key : Text}
    {link : PacketNetworkLink} (hlink : state.links.get? key = some link) :
    ∃ drawn, (projectPacketNetwork state everythingVisible).links.get? key = some drawn ∧
      link.lastActivity ≤ drawn.lastActivity := by
  obtain ⟨observation, hobs, hat, a, b, hab, hends⟩ := supported key link hlink
  have hkey : key = buildLinkKey a b := by
    rw [(sound.books.link key link hlink).key]
    rcases Sym2.eq_iff.mp hends with ⟨h₁, h₂⟩ | ⟨h₁, h₂⟩ <;> rw [h₁, h₂]
    exact buildLinkKey_comm _ _
  have hleg : LegAt state everythingVisible observation key a false b :=
    ⟨(mem_pathLegs_everything sound hobs).mpr ⟨rfl, hab⟩,
      rel_of_mem_pairs (sound.distinct observation hobs) hab, hkey⟩
  have hget := get?_projectedLinks everythingVisible sound key
  cases hdrawn : (projectPacketNetwork state everythingVisible).links.get? key with
  | none =>
      rw [hdrawn] at hget
      exact absurd hleg (hget observation hobs a false b)
  | some drawn =>
      rw [hdrawn] at hget
      refine ⟨drawn, rfl, ?_⟩
      rw [← hat]
      exact hget.latest observation hobs a false b hleg

/-- A drawn link is stored with the same ends, as late as it is drawn. -/
theorem stored_of_drawn (sound : Sound state) {key : Text} {drawn : ProjectedPacketNetworkLink}
    (hdrawn : (projectPacketNetwork state everythingVisible).links.get? key = some drawn) :
    ∃ link, state.links.get? key = some link ∧ drawn.lastActivity ≤ link.lastActivity ∧
      s(drawn.sourceId, drawn.targetId) = s(link.sourceId, link.targetId) := by
  have hspec := projectedLinkSpec sound hdrawn
  have hstored : ∀ observation ∈ state.observations, ∀ u marked v,
      LegAt state everythingVisible observation key u marked v →
      ∃ link, state.links.get? key = some link ∧
        observation.activityAtMs ≤ link.lastActivity ∧
        s(link.sourceId, link.targetId) = s(u, v) := by
    rintro observation hobs u marked v ⟨hleg, -, rfl⟩
    obtain ⟨-, huv⟩ := (mem_pathLegs_everything sound hobs).mp hleg
    obtain ⟨link, hlink, hle⟩ := sound.covered observation hobs u v huv
    obtain ⟨hu, hv⟩ := mem_of_mem_pairs huv
    have hids := sound.ids observation hobs
    exact ⟨link, hlink, hle, sound.books.ends (hids.nodeId u hu) (hids.plain v hv) hlink⟩
  obtain ⟨observation, hobs, u, marked, v, hleg, hat⟩ := hspec.attained
  obtain ⟨link, hlink, hle, -⟩ := hstored observation hobs u marked v hleg
  obtain ⟨observation', hobs', marked', hleg'⟩ := hspec.ends
  obtain ⟨link', hlink', -, hends⟩ := hstored observation' hobs' _ marked' _ hleg'
  obtain rfl : link = link' := Option.some.inj (hlink.symm.trans hlink')
  exact ⟨link, hlink, hat ▸ hle, hends.symm⟩

/-- In a state whose links are all shown, the views agree. -/
theorem Sound.consistent (sound : Sound state) (supported : Supported state) :
    Consistent state where
  linkEnds := sound.linkEnds
  observed := sound.observed
  noLoop key link hlink := (sound.books.link key link hlink).ne
  neighbors := sound.books.neighbor
  shown key := by
    cases hlink : state.links.get? key with
    | some link =>
        obtain ⟨drawn, hdrawn, hle⟩ := drawn_of_stored sound supported hlink
        obtain ⟨link', hlink', hle', hends⟩ := stored_of_drawn sound hdrawn
        obtain rfl : link = link' := Option.some.inj (hlink.symm.trans hlink')
        rw [hdrawn, Option.map_some, Option.map_some, drawnLink, storedLink, hends,
          le_antisymm hle' hle]
    | none =>
        cases hdrawn : (projectPacketNetwork state everythingVisible).links.get? key with
        | none => rfl
        | some drawn =>
            obtain ⟨link, hlink', -⟩ := stored_of_drawn sound hdrawn
            simp [hlink] at hlink'

theorem Supported.prune (supported : Supported state) {cutoff : Int}
    (hkeeps : KeepsSupport state (.prune cutoff)) :
    Supported (prunePacketNetworkState state cutoff) := by
  rcases prune_cases state cutoff with h | ⟨-, hlinks, hobs, -⟩
  · rw [h]
    exact supported
  · intro key link hlink
    obtain ⟨hstored, hsource, htarget⟩ := (hlinks key link).mp hlink
    obtain ⟨observation, hmem, hshows, hstays⟩ := hkeeps key link hstored hsource htarget
    exact ⟨observation, (hobs observation).mpr ⟨hmem, hstays⟩, hshows⟩

/-- Every event that keeps its links shown keeps all links shown. -/
theorem Supported.applyEvent {decode : Text → Option DecodedPacket} (hdecode : HexDecoder decode)
    (sound : Sound state) (supported : Supported state) {event : NetworkEvent}
    (hevent : event.HexKeys) (hkeeps : KeepsSupport state event) :
    Supported (PacketNetwork.applyEvent decode state event) := by
  cases event with
  | ingest now context packet =>
      show Supported (ingestPacketIntoPacketNetwork decode now context packet state)
      unfold ingestPacketIntoPacketNetwork
      split
      · exact supported
      next parsed hparsed =>
        exact supported.enterPath sound _ (pathBuilt packet hevent (hdecode _ _ hparsed))
  | prune cutoff => exact supported.prune hkeeps
  | clear now => exact supported_create now

/-- In every run in which each prune leaves every link that it keeps an observation that shows
it, the views agree in every state. -/
theorem network_views_agree {decode : Text → Option DecodedPacket} (hdecode : HexDecoder decode)
    {now : Int}
    (run : Machine (applyEvent decode) (fun state event => event.HexKeys ∧ KeepsSupport state event)
      (createPacketNetworkState now) state) : Consistent state := by
  have hboth : Sound state ∧ Supported state :=
    run.invariant (P := fun state => Sound state ∧ Supported state)
      (fun _ _ hok h => ⟨h.1.applyEvent hdecode hok.1,
        h.2.applyEvent hdecode h.1 hok.1 hok.2⟩)
      ⟨sound_create now, supported_create now⟩
  exact hboth.1.consistent hboth.2

/-- A prune of the first state keeps its links shown: there are none. -/
theorem keepsSupport_create (now cutoff : Int) :
    KeepsSupport (createPacketNetworkState now) (.prune cutoff) := by
  intro key link hlink
  simp [createPacketNetworkState] at hlink

/-- A prune of the first state and then a packet. -/
theorem network_views_agree_loop :
    Consistent (applyEvent loopDecode
      (applyEvent loopDecode (createPacketNetworkState 0) (.prune 5)) loopEvent) := by
  have hstart : Machine (applyEvent loopDecode)
      (fun state event => event.HexKeys ∧ KeepsSupport state event)
      (createPacketNetworkState 0) (createPacketNetworkState 0) := Machine.refl _
  have hpruned := hstart.tail (.prune 5) ⟨trivial, keepsSupport_create 0 5⟩
  exact network_views_agree hexDecoder_loop (hpruned.tail loopEvent ⟨hexKeys_loopEvent, trivial⟩)

/-! ### A link that lost its observation -/

/-- An advertisement over two hops, then one each of the two nodes that stay. -/
def staleDecode : Text → Option DecodedPacket :=
  decodeTable ([('a', [['b', 'b'], ['e', 'e']]), ('a', []), ('b', [])].map fun (c, path) =>
    (advertHex (publicKeyOf c) path, advert (publicKeyOf c) path))

/-- An advertisement comes in where the two repeaters are contacts. -/
def staleEvent (c : Char) (path : List Text) (timestamp : Int) : NetworkEvent :=
  .ingest 0 ⟨[repeater 'b', repeater 'e'], none, false⟩
    ⟨advertHex (publicKeyOf c) path, some timestamp, none⟩

/-- The second hop falls silent and is pruned. -/
def staleState : PacketNetworkState :=
  [staleEvent 'a' [['b', 'b'], ['e', 'e']] 100, staleEvent 'a' [] 200, staleEvent 'b' [] 200,
    .prune 150000].foldl (applyEvent staleDecode) (createPacketNetworkState 0)

theorem hexKeys_staleEvent (c : Char) (path : List Text) (timestamp : Int) :
    (staleEvent c path timestamp).HexKeys :=
  hexContacts_repeaters (by decide +kernel) (by decide +kernel)

/-- The link between the first two nodes is stored and not drawn. -/
theorem stale_link_not_drawn : HexDecoder staleDecode ∧
    Machine (applyEvent staleDecode) (fun _ event => event.HexKeys) (createPacketNetworkState 0)
      staleState ∧ ¬ Consistent staleState := by
  refine ⟨hexDecoder_table (by decide +kernel), ?_, fun h => ?_⟩
  · have hstart : Machine (applyEvent staleDecode) (fun _ event => event.HexKeys)
        (createPacketNetworkState 0) (createPacketNetworkState 0) := Machine.refl _
    have h₁ := hstart.tail (staleEvent 'a' [['b', 'b'], ['e', 'e']] 100) (hexKeys_staleEvent _ _ _)
    have h₂ := h₁.tail (staleEvent 'a' [] 200) (hexKeys_staleEvent _ _ _)
    have h₃ := h₂.tail (staleEvent 'b' [] 200) (hexKeys_staleEvent _ _ _)
    have h₄ := h₃.tail (.prune 150000) trivial
    rw [staleState]
    simp only [List.foldl_cons, List.foldl_nil]
    exact h₄
  · have hstored : (staleState.links.get? (buildLinkKey (keyOf 'a') (keyOf 'b'))).isSome = true := by
      decide +kernel
    have hdrawn : ((projectPacketNetwork staleState everythingVisible).links.get?
        (buildLinkKey (keyOf 'a') (keyOf 'b'))).isSome = false := by
      decide +kernel
    have hsame := congrArg Option.isSome (h.shown (buildLinkKey (keyOf 'a') (keyOf 'b')))
    rw [Option.isSome_map, Option.isSome_map, hstored, hdrawn] at hsame
    exact Bool.false_ne_true hsame

end PacketNetwork

end RemoteTerm
