import RemoteTerm.Frontend.PacketProjection

/-!
# What a projected link means

A projected link joins two nodes that follow each other among the nodes that are
drawn. That a hidden repeater stood between them is told whenever it did. That they
also met without one is told only when some path showed them so and never past a
hidden repeater.
-/

namespace RemoteTerm

namespace PacketNetwork

open Library Library.Walk

variable {state : PacketNetworkState} {visibility : PacketNetworkVisibilityOptions}

/-- `u` and then `v` stand on the path and are drawn, and what stands between is not drawn. -/
def OccurConsecutively (state : PacketNetworkState)
    (visibility : PacketNetworkVisibilityOptions) (path : List Text) (u : Text)
    (between : List Text) (v : Text) : Prop :=
  ∃ before after, path = before ++ u :: (between ++ v :: after) ∧
    isShown state visibility u = true ∧ isShown state visibility v = true ∧
    ∀ m ∈ between, isShown state visibility m = false

/-- The two nodes follow each other, in one order or the other. -/
def Adjacent (state : PacketNetworkState) (visibility : PacketNetworkVisibilityOptions)
    (path : List Text) (u v : Text) (between : List Text) : Prop :=
  OccurConsecutively state visibility path u between v ∨
    OccurConsecutively state visibility path v between u

/-- The two nodes follow each other with no hidden repeater between them. -/
def Direct (state : PacketNetworkState) (visibility : PacketNetworkVisibilityOptions)
    (path : List Text) (u v : Text) : Prop :=
  ∃ between, Adjacent state visibility path u v between ∧
    ∀ m ∈ between, isHiddenRepeater state visibility m = false

/-- The two nodes follow each other with a hidden repeater between them. -/
def OverHidden (state : PacketNetworkState) (visibility : PacketNetworkVisibilityOptions)
    (path : List Text) (u v : Text) : Prop :=
  ∃ between, Adjacent state visibility path u v between ∧
    ∃ m ∈ between, isHiddenRepeater state visibility m = true

/-- The projected links mean what they say. -/
structure LinksMeanWhatTheySay (state : PacketNetworkState)
    (visibility : PacketNetworkVisibilityOptions) : Prop where
  joins : ∀ u v, (∃ key link, (projectPacketNetwork state visibility).links.get? key = some link ∧
      s(link.sourceId, link.targetId) = s(u, v)) ↔
    u ≠ v ∧ ∃ observation ∈ state.observations, ∃ between,
      Adjacent state visibility observation.nodes u v between
  direct : ∀ key link, (projectPacketNetwork state visibility).links.get? key = some link →
    (link.hasDirectObservation = true ↔ ∃ observation ∈ state.observations,
      Direct state visibility observation.nodes link.sourceId link.targetId)
  hidden : ∀ key link, (projectPacketNetwork state visibility).links.get? key = some link →
    (link.hasHiddenIntermediate = true ↔ ∃ observation ∈ state.observations,
      OverHidden state visibility observation.nodes link.sourceId link.targetId)

/-- Two nodes that ever meet without a hidden repeater do so on a path on which they do not also
meet past one. -/
def ShownDirectSomewhere (state : PacketNetworkState)
    (visibility : PacketNetworkVisibilityOptions) : Prop :=
  ∀ observation ∈ state.observations, ∀ u v, u ≠ v →
    Direct state visibility observation.nodes u v →
    ∃ observation' ∈ state.observations, Direct state visibility observation'.nodes u v ∧
      ¬ OverHidden state visibility observation'.nodes u v

/-! ### Legs and what they stand for -/

theorem mem_pathLegs_iff {path : List Text} {u v : Text} {marked : Bool} :
    (u, marked, v) ∈ pathLegs state visibility path ↔
      ∃ between, OccurConsecutively state visibility path u between v ∧
        marked = between.any (isHiddenRepeater state visibility) := by
  rw [pathLegs, mem_legs_iff]
  constructor
  · rintro ⟨before, between, after, hpath, hu, hv, hbetween, hmarked⟩
    exact ⟨between, ⟨before, after, hpath, hu, hv, hbetween⟩, hmarked⟩
  · rintro ⟨between, ⟨before, after, hpath, hu, hv, hbetween⟩, hmarked⟩
    exact ⟨before, between, after, hpath, hu, hv, hbetween, hmarked⟩

/-- Two nodes meet on a path when a leg joins them in one order or the other. -/
theorem adjacent_iff {path : List Text} {u v : Text} {marked : Bool} :
    (∃ between, Adjacent state visibility path u v between ∧
      marked = between.any (isHiddenRepeater state visibility)) ↔
      (u, marked, v) ∈ pathLegs state visibility path ∨
        (v, marked, u) ∈ pathLegs state visibility path := by
  rw [mem_pathLegs_iff, mem_pathLegs_iff, ← exists_or]
  refine exists_congr fun between => ?_
  rw [Adjacent, or_and_right]

theorem direct_iff {path : List Text} {u v : Text} :
    Direct state visibility path u v ↔
      (u, false, v) ∈ pathLegs state visibility path ∨
        (v, false, u) ∈ pathLegs state visibility path := by
  rw [← adjacent_iff]
  refine exists_congr fun between => and_congr_right fun _ => ?_
  rw [eq_comm, List.any_eq_false]
  simp

theorem overHidden_iff {path : List Text} {u v : Text} :
    OverHidden state visibility path u v ↔
      (u, true, v) ∈ pathLegs state visibility path ∨
        (v, true, u) ∈ pathLegs state visibility path := by
  rw [← adjacent_iff]
  refine exists_congr fun between => and_congr_right fun _ => ?_
  rw [eq_comm, List.any_eq_true]

/-- Two nodes that meet do so directly or past a hidden repeater. -/
theorem direct_or_overHidden {path : List Text} {u v : Text} :
    (∃ between, Adjacent state visibility path u v between) ↔
      Direct state visibility path u v ∨ OverHidden state visibility path u v := by
  constructor
  · rintro ⟨between, h⟩
    by_cases hany : ∃ m ∈ between, isHiddenRepeater state visibility m = true
    · exact .inr ⟨between, h, hany⟩
    · push Not at hany
      exact .inl ⟨between, h, fun m hm => by simpa using hany m hm⟩
  · rintro (⟨between, h, -⟩ | ⟨between, h, -⟩) <;> exact ⟨between, h⟩

/-- The legs under the key of a link are those that join its two nodes. -/
theorem legAt_iff (sound : Sound state) {key : Text} {link : ProjectedPacketNetworkLink}
    (hspec : ProjectedLinkSpec state visibility key link) {observation : PacketNetworkObservation}
    (hobs : observation ∈ state.observations) (marked : Bool) :
    (∃ u v, LegAt state visibility observation key u marked v) ↔
      (link.sourceId, marked, link.targetId) ∈ pathLegs state visibility observation.nodes ∨
        (link.targetId, marked, link.sourceId) ∈ pathLegs state visibility observation.nodes := by
  obtain ⟨observation', hobs', marked', hown⟩ := hspec.ends
  constructor
  · rintro ⟨u, v, hleg⟩
    rcases Sym2.eq_iff.mp (hleg.ends_eq sound hobs hobs' hown) with ⟨rfl, rfl⟩ | ⟨rfl, rfl⟩
    · exact .inl hleg.1
    · exact .inr hleg.1
  · rintro (hleg | hleg)
    · exact ⟨_, _, hleg, hown.2.1, hown.2.2⟩
    · exact ⟨_, _, hleg, hown.2.1.symm, hown.2.2.trans (buildLinkKey_comm _ _)⟩

theorem hidden_spec (sound : Sound state) {key : Text} {link : ProjectedPacketNetworkLink}
    (hspec : ProjectedLinkSpec state visibility key link) :
    link.hasHiddenIntermediate = true ↔ ∃ observation ∈ state.observations,
      OverHidden state visibility observation.nodes link.sourceId link.targetId := by
  rw [hspec.hidden]
  refine exists_congr fun observation => and_congr_right fun hobs => ?_
  rw [legAt_iff sound hspec hobs, overHidden_iff]

/-- The direct flag tells of a path that shows the two nodes directly and only so. -/
theorem direct_spec (sound : Sound state) {key : Text} {link : ProjectedPacketNetworkLink}
    (hspec : ProjectedLinkSpec state visibility key link) :
    link.hasDirectObservation = true ↔ ∃ observation ∈ state.observations,
      Direct state visibility observation.nodes link.sourceId link.targetId ∧
        ¬ OverHidden state visibility observation.nodes link.sourceId link.targetId := by
  rw [hspec.direct]
  refine exists_congr fun observation => and_congr_right fun hobs => ?_
  have hany : (∃ u marked v, LegAt state visibility observation key u marked v) ↔
      Direct state visibility observation.nodes link.sourceId link.targetId ∨
        OverHidden state visibility observation.nodes link.sourceId link.targetId := by
    rw [direct_iff, overHidden_iff, ← legAt_iff sound hspec hobs, ← legAt_iff sound hspec hobs]
    constructor
    · rintro ⟨u, marked, v, h⟩
      cases marked with
      | false => exact .inl ⟨u, v, h⟩
      | true => exact .inr ⟨u, v, h⟩
    · rintro (⟨u, v, h⟩ | ⟨u, v, h⟩)
      · exact ⟨u, false, v, h⟩
      · exact ⟨u, true, v, h⟩
  rw [hany, legAt_iff sound hspec hobs, ← overHidden_iff]
  tauto

theorem projectedLinkSpec (sound : Sound state) {key : Text} {link : ProjectedPacketNetworkLink}
    (h : (projectPacketNetwork state visibility).links.get? key = some link) :
    ProjectedLinkSpec state visibility key link := by
  have hget := get?_projectedLinks visibility sound key
  rw [h] at hget
  exact hget

/-- Two different nodes that meet on a path are joined by a link. -/
theorem exists_link (sound : Sound state) {observation : PacketNetworkObservation}
    (hobs : observation ∈ state.observations) {u v : Text} {marked : Bool} (hne : u ≠ v)
    (hleg : (u, marked, v) ∈ pathLegs state visibility observation.nodes) :
    ∃ link, (projectPacketNetwork state visibility).links.get? (buildLinkKey u v) = some link ∧
      s(link.sourceId, link.targetId) = s(u, v) := by
  have hget := get?_projectedLinks visibility sound (buildLinkKey u v)
  cases hlink : (projectPacketNetwork state visibility).links.get? (buildLinkKey u v) with
  | none =>
      rw [hlink] at hget
      exact absurd ⟨hleg, hne, rfl⟩ (hget observation hobs u marked v)
  | some link =>
      obtain ⟨observation', hobs', marked', hown⟩ := (projectedLinkSpec sound hlink).ends
      exact ⟨link, rfl, hown.ends_eq sound hobs' hobs ⟨hleg, hne, rfl⟩⟩

/-- The links join the pairs that meet on some path. -/
theorem joins_spec (visibility : PacketNetworkVisibilityOptions) (sound : Sound state)
    (u v : Text) :
    (∃ key link, (projectPacketNetwork state visibility).links.get? key = some link ∧
      s(link.sourceId, link.targetId) = s(u, v)) ↔
    u ≠ v ∧ ∃ observation ∈ state.observations, ∃ between,
      Adjacent state visibility observation.nodes u v between := by
  constructor
  · rintro ⟨key, link, hlink, hends⟩
    obtain ⟨observation, hobs, marked, hleg, hne, -⟩ := (projectedLinkSpec sound hlink).ends
    rcases Sym2.eq_iff.mp hends with ⟨rfl, rfl⟩ | ⟨rfl, rfl⟩
    · obtain ⟨between, h, -⟩ := adjacent_iff.mpr (.inl hleg)
      exact ⟨hne, observation, hobs, between, h⟩
    · obtain ⟨between, h, -⟩ := adjacent_iff.mpr (.inr hleg)
      exact ⟨hne.symm, observation, hobs, between, h⟩
  · rintro ⟨hne, observation, hobs, between, h⟩
    rcases adjacent_iff.mp ⟨between, h, rfl⟩ with hleg | hleg
    · obtain ⟨link, hlink, hends⟩ := exists_link sound hobs hne hleg
      exact ⟨_, link, hlink, hends⟩
    · obtain ⟨link, hlink, hends⟩ := exists_link sound hobs hne.symm hleg
      exact ⟨_, link, hlink, hends.trans Sym2.eq_swap⟩

/-- A state that is reached from the start by packets, prunes and clears. -/
def Reachable (decode : Text → Option DecodedPacket) (state : PacketNetworkState) : Prop :=
  ∃ now, Machine (applyEvent decode) (fun _ event => event.HexKeys)
    (createPacketNetworkState now) state

theorem Reachable.sound {decode : Text → Option DecodedPacket} (hdecode : HexDecoder decode)
    (h : Reachable decode state) : Sound state := by
  obtain ⟨now, run⟩ := h
  exact run.invariant (fun _ _ hevent hsound => hsound.applyEvent hdecode hevent)
    (sound_create now)

/-- In every state that is reached, the projected links mean what they say if and only if two
nodes that ever meet directly do so on a path on which they do not also meet past a hidden
repeater. -/
theorem projected_links_meaning {decode : Text → Option DecodedPacket}
    (hdecode : HexDecoder decode) (hreach : Reachable decode state) :
    LinksMeanWhatTheySay state visibility ↔ ShownDirectSomewhere state visibility := by
  have sound := hreach.sound hdecode
  constructor
  · intro h observation hobs u v hne hdirect
    obtain ⟨key, link, hlink, hends⟩ := (joins_spec visibility sound u v).mpr
      ⟨hne, observation, hobs, direct_or_overHidden.mpr (.inl hdirect)⟩
    have hspec := projectedLinkSpec sound hlink
    have hflag : link.hasDirectObservation = true := by
      refine (h.direct key link hlink).mpr ⟨observation, hobs, ?_⟩
      rw [direct_iff] at hdirect ⊢
      rcases Sym2.eq_iff.mp hends with ⟨h₁, h₂⟩ | ⟨h₁, h₂⟩ <;> rw [h₁, h₂]
      · exact hdirect
      · exact hdirect.symm
    obtain ⟨observation', hobs', hdirect', hnot⟩ := (direct_spec sound hspec).mp hflag
    refine ⟨observation', hobs', ?_⟩
    rw [direct_iff, overHidden_iff] at *
    rcases Sym2.eq_iff.mp hends with ⟨h₁, h₂⟩ | ⟨h₁, h₂⟩ <;> rw [h₁, h₂] at hdirect' hnot
    · exact ⟨hdirect', hnot⟩
    · exact ⟨hdirect'.symm, fun h => hnot h.symm⟩
  · intro h
    refine ⟨joins_spec visibility sound, fun key link hlink => ?_, fun key link hlink =>
      hidden_spec sound (projectedLinkSpec sound hlink)⟩
    have hspec := projectedLinkSpec sound hlink
    rw [direct_spec sound hspec]
    constructor
    · rintro ⟨observation, hobs, hdirect, -⟩
      exact ⟨observation, hobs, hdirect⟩
    · rintro ⟨observation, hobs, hdirect⟩
      obtain ⟨-, -, -, -, hne, -⟩ := hspec.ends
      exact h observation hobs _ _ hne hdirect

/-! ### A path that passes one repeater twice -/

/-- A decoder that knows a few packets. -/
def decodeTable (table : List (Text × DecodedPacket)) (data : Text) : Option DecodedPacket :=
  table.lookup data

/-- The hashes and keys of a decoded packet are hexadecimal. -/
def DecodedPacket.isHex (decoded : DecodedPacket) : Bool :=
  (decoded.path.getD []).all Library.isHex && decoded.decoded.all fun payload =>
    (payload.pathHashes.getD []).all Library.isHex && payload.sourceHash.all Library.isHex &&
      payload.publicKey.all Library.isHex && payload.senderPublicKey.all Library.isHex

theorem hexPacket_of_isHex {decode : Text → Option DecodedPacket} {data : Text}
    {decoded : DecodedPacket} {parsed : ParsedPacket} (hdecode : decode data = some decoded)
    (hhex : decoded.isHex = true) (hparse : parsePacket decode data = some parsed) :
    HexPacket parsed := by
  simp only [DecodedPacket.isHex, Bool.and_eq_true, List.all_eq_true, Option.all_eq_true] at hhex
  obtain ⟨hpath, hpayload⟩ := hhex
  rw [parsePacket, hdecode] at hparse
  dsimp only at hparse
  split at hparse
  · simp at hparse
  · obtain rfl := Option.some.inj hparse
    have hof : ∀ type payload, (if decoded.payloadType = type then decoded.decoded else none) =
        some payload → decoded.decoded = some payload := by
      intro type payload h
      split at h
      · exact h
      · simp at h
    have hfield : ∀ (type : PayloadType) (field : DecodedPayload → Option Text) (text : Text),
        ((if decoded.payloadType = type then decoded.decoded else none).bind
          fun payload => orNull (field payload)) = some text →
        ∃ payload, decoded.decoded = some payload ∧ field payload = some text := by
      intro type field text h
      obtain ⟨payload, hsome, hfound⟩ := Option.bind_eq_some_iff.mp h
      exact ⟨payload, hof type payload hsome, (orNull_eq_some_iff.mp hfound).1⟩
    constructor
    · intro hop hhop
      dsimp only at hhop
      cases hh : (if decoded.payloadType = .trace then decoded.decoded else none).bind
          (·.pathHashes) with
      | none =>
          rw [hh] at hhop
          exact hpath hop hhop
      | some hashes =>
          rw [hh] at hhop
          obtain ⟨payload, hsome, hhashes⟩ := Option.bind_eq_some_iff.mp hh
          exact (hpayload payload (hof _ _ hsome)).1.1.1 hop (by rw [hhashes]; exact hhop)
    · intro hash hhash
      obtain ⟨payload, hsome, hfound⟩ := hfield _ _ _ hhash
      exact (hpayload payload hsome).1.1.2 hash hfound
    · intro key hkey
      obtain ⟨payload, hsome, hfound⟩ := hfield _ _ _ hkey
      exact (hpayload payload hsome).1.2 key hfound
    · intro key hkey
      obtain ⟨payload, hsome, hfound⟩ := hfield _ _ _ hkey
      exact (hpayload payload hsome).2 key hfound

theorem hexDecoder_table {table : List (Text × DecodedPacket)}
    (h : table.all (fun entry => entry.2.isHex) = true) : HexDecoder (decodeTable table) := by
  intro data parsed hparse
  cases hdecode : decodeTable table data with
  | none =>
      rw [parsePacket, hdecode] at hparse
      simp at hparse
  | some decoded =>
      refine hexPacket_of_isHex hdecode ?_ hparse
      obtain ⟨before, after, htable, -⟩ := List.lookup_eq_some_iff.mp hdecode
      exact List.all_eq_true.mp h (data, decoded) (by rw [htable]; simp)

/-- A public key that repeats one digit. -/
def publicKeyOf (c : Char) : Text := List.replicate 64 c

/-- The id of its node. -/
def keyOf (c : Char) : Text := List.replicate 12 c

/-- A flooded advertisement over hops of one byte, in hexadecimal: the header, the length of the
path, the path, the public key, and zeros for the timestamp, the signature and the flags. -/
def advertHex (publicKey : Text) (path : List Text) : Text :=
  ['1', '1', '0', Nat.digitChar path.length] ++ path.flatten ++ publicKey ++ List.replicate 138 '0'

/-- What the decoder makes of it. -/
def advert (publicKey : Text) (path : List Text) : DecodedPacket :=
  ⟨true, .advert, some (path.map upper),
    some ⟨none, none, none, some (upper publicKey), none, none⟩⟩

/-- A repeater among the contacts. -/
def repeater (c : Char) : Contact := ⟨publicKeyOf c, none, contactTypeRepeater⟩

/-- A path that comes back to one repeater over an unknown one. -/
def loopPath : List Text := [['b', 'b'], ['c', 'c'], ['3', '2'], ['b', 'b']]

/-- An advertisement over that path. -/
def loopDecode : Text → Option DecodedPacket :=
  decodeTable [(advertHex (publicKeyOf 'a') loopPath, advert (publicKeyOf 'a') loopPath)]

/-- The packet comes in where the two repeaters are contacts. -/
def loopEvent : NetworkEvent :=
  .ingest 0 ⟨[repeater 'b', repeater 'c'], none, false⟩
    ⟨advertHex (publicKeyOf 'a') loopPath, some 100, none⟩

def loopState : PacketNetworkState := applyEvent loopDecode (createPacketNetworkState 0) loopEvent

/-- Neither kind of ambiguous node is drawn. -/
def hideAmbiguous : PacketNetworkVisibilityOptions := ⟨false, false⟩

theorem hexDecoder_loop : HexDecoder loopDecode := hexDecoder_table (by decide +kernel)

/-- Contacts made of two hexadecimal digits have hexadecimal keys. -/
theorem hexContacts_repeaters {b c : Char} (hb : isHex (publicKeyOf b) = true)
    (hc : isHex (publicKeyOf c) = true) : HexContacts ⟨[repeater b, repeater c], none, false⟩ := by
  intro contact hcontact
  simp only [List.mem_cons, List.not_mem_nil, or_false] at hcontact
  rcases hcontact with rfl | rfl
  · exact hb
  · exact hc

theorem hexKeys_loopEvent : loopEvent.HexKeys :=
  hexContacts_repeaters (by decide +kernel) (by decide +kernel)

theorem reachable_loopState : Reachable loopDecode loopState :=
  ⟨0, Machine.single loopEvent hexKeys_loopEvent⟩

theorem loop_links_meaning :
    LinksMeanWhatTheySay loopState hideAmbiguous ↔ ShownDirectSomewhere loopState hideAmbiguous :=
  projected_links_meaning hexDecoder_loop reachable_loopState

/-- The second and the third node follow each other directly, and the link does not say so. -/
theorem direct_link_missed : HexDecoder loopDecode ∧ Reachable loopDecode loopState ∧
    ¬ LinksMeanWhatTheySay loopState hideAmbiguous := by
  refine ⟨hexDecoder_loop, reachable_loopState, fun h => ?_⟩
  have hobs : loopState.observations = [⟨[keyOf 'a', keyOf 'b', keyOf 'c', ['?', '3', '2'],
      keyOf 'b', selfId], 100000⟩] := by decide +kernel
  have hget : ((projectPacketNetwork loopState hideAmbiguous).links.get?
      (buildLinkKey (keyOf 'b') (keyOf 'c'))).map
        (fun link => (link.sourceId, link.targetId, link.hasDirectObservation)) =
      some (keyOf 'b', keyOf 'c', false) := by decide +kernel
  obtain ⟨link, hlink, hfields⟩ := Option.map_eq_some_iff.mp hget
  simp only [Prod.mk.injEq] at hfields
  obtain ⟨hsource, htarget, hflag⟩ := hfields
  have hdirect : Direct loopState hideAmbiguous
      [keyOf 'a', keyOf 'b', keyOf 'c', ['?', '3', '2'], keyOf 'b', selfId]
      (keyOf 'b') (keyOf 'c') :=
    ⟨[], .inl ⟨[keyOf 'a'], [['?', '3', '2'], keyOf 'b', selfId], rfl, by decide +kernel,
      by decide +kernel, by simp⟩, by simp⟩
  have htrue := (h.direct _ link hlink).mpr
    ⟨_, by rw [hobs]; exact List.mem_cons_self, by rw [hsource, htarget]; exact hdirect⟩
  rw [hflag] at htrue
  exact Bool.false_ne_true htrue

end PacketNetwork

end RemoteTerm
