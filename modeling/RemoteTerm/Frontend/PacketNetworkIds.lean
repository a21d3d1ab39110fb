import RemoteTerm.Frontend.PacketNetwork

/-!
# Node ids of the packet network

Every node on a path is known. Apart from the sender of a group message, who goes
by a name of any kind, the ids are hexadecimal or made of hexadecimal, so two
links with one key join the same nodes.
-/

namespace RemoteTerm

namespace PacketNetwork

open Library

variable {now activityAtMs : Int} {state : PacketNetworkState} {context : PacketNetworkContext}

/-! ### Link keys -/

/-- `buildLinkKey`. -/
def buildLinkKey (sourceId targetId : Text) : Text :=
  let (first, second) := sortPair sourceId targetId
  first ++ '-' :: '>' :: second

theorem buildLinkKey_comm (a b : Text) : buildLinkKey a b = buildLinkKey b a := by
  rw [buildLinkKey, buildLinkKey, sortPair_comm]

/-- An id that is not a name: it has no hyphen and does not begin as names do. -/
def IsPlain (id : Text) : Prop := id ≠ [] ∧ '-' ∉ id ∧ id.head? ≠ some 'n'

/-- The start of the ids that are names. -/
def nameTag : Text := ['n', 'a', 'm', 'e', ':']

/-- An id that a path can hold. -/
def IsNodeId (id : Text) : Prop := IsPlain id ∨ nameTag <+: id

theorem IsPlain.isNodeId {id : Text} (h : IsPlain id) : IsNodeId id := .inl h

theorem IsNodeId.ne_nil {id : Text} (h : IsNodeId id) : id ≠ [] := by
  rcases h with h | ⟨rest, rfl⟩
  · exact h.1
  · simp [nameTag]

theorem isPlain_selfId : IsPlain selfId := by
  refine ⟨by decide, by decide, by decide⟩

/-- The text before the first separator is determined. -/
theorem append_cons_inj {c : Char} {p q r t : Text} (hp : c ∉ p) (hq : c ∉ q)
    (h : p ++ c :: r = q ++ c :: t) : p = q ∧ r = t := by
  induction p generalizing q with
  | nil =>
      cases q with
      | nil => simpa using h
      | cons d q =>
          obtain ⟨rfl, -⟩ : c = d ∧ r = q ++ c :: t := by simpa using h
          simp at hq
  | cons d p ih =>
      cases q with
      | nil =>
          obtain ⟨rfl, -⟩ : d = c ∧ p ++ c :: r = t := by simpa using h
          simp at hp
      | cons e q =>
          obtain ⟨rfl, hrest⟩ : d = e ∧ p ++ c :: r = q ++ c :: t := by simpa using h
          simp only [List.mem_cons, not_or] at hp hq
          obtain ⟨rfl, rfl⟩ := ih hp.2 hq.2 hrest
          exact ⟨rfl, rfl⟩

/-- The arrow before a plain id is the last one. -/
theorem arrow_inj_last {a b a' b' : Text} (hb : '-' ∉ b) (hb' : '-' ∉ b')
    (h : a ++ '-' :: '>' :: b = a' ++ '-' :: '>' :: b') : a = a' ∧ b = b' := by
  have hrev := congrArg List.reverse h
  simp only [List.reverse_append, List.reverse_cons, List.append_assoc, List.cons_append,
    List.nil_append] at hrev
  have hsplit := append_cons_inj (c := '-') (p := b.reverse ++ ['>']) (q := b'.reverse ++ ['>'])
    (r := a.reverse) (t := a'.reverse) (by simpa using hb) (by simpa using hb') (by simpa using hrev)
  exact ⟨List.reverse_injective hsplit.2, List.reverse_injective
    (List.append_cancel_right hsplit.1)⟩

/-- No key has a plain id at its end for one link and at its start for another, unless the
links join the same nodes. -/
theorem arrow_inj_cross {a b a' b' : Text} (ha : IsNodeId a) (hb' : IsPlain b')
    (h : a ++ '-' :: '>' :: b = b' ++ '-' :: '>' :: a') : a = b' ∧ b = a' := by
  rcases ha with ha | ⟨rest, rfl⟩
  · obtain ⟨rfl, hrest⟩ := append_cons_inj ha.2.1 hb'.2.1 h
    exact ⟨rfl, by simpa using hrest⟩
  · obtain ⟨hne, -, hhead⟩ := hb'
    cases b' with
    | nil => exact absurd rfl hne
    | cons c b' =>
        obtain ⟨rfl, -⟩ : 'n' = c ∧ _ := by simpa [nameTag] using h
        exact absurd rfl hhead

/-- Links with one key join the same nodes. -/
theorem buildLinkKey_inj {a b a' b' : Text} (ha : IsNodeId a) (hb : IsPlain b)
    (ha' : IsNodeId a') (hb' : IsPlain b') (h : buildLinkKey a b = buildLinkKey a' b') :
    s(a, b) = s(a', b') := by
  unfold buildLinkKey at h
  rw [Sym2.eq_iff]
  rcases sortPair_eq_or a b with h₁ | h₁ <;> rcases sortPair_eq_or a' b' with h₂ | h₂ <;>
    simp only [h₁, h₂] at h
  · exact .inl (arrow_inj_last hb.2.1 hb'.2.1 h)
  · exact .inr (arrow_inj_cross ha hb' h)
  · obtain ⟨rfl, rfl⟩ := arrow_inj_cross ha' hb h.symm
    exact .inr ⟨rfl, rfl⟩
  · obtain ⟨rfl, hrest⟩ := append_cons_inj hb.2.1 hb'.2.1 h
    exact .inl ⟨by simpa using hrest, rfl⟩

/-! ### Hexadecimal ids -/

/-- What the decoder gives is hexadecimal. -/
structure HexPacket (parsed : ParsedPacket) : Prop where
  hops : ∀ hop ∈ parsed.pathBytes, isHex hop = true
  srcHash : ∀ hash ∈ parsed.srcHash, isHex hash = true
  advertPubkey : ∀ key ∈ parsed.advertPubkey, isHex key = true
  anonRequestPubkey : ∀ key ∈ parsed.anonRequestPubkey, isHex key = true

/-- The keys of the contacts are hexadecimal. -/
def HexContacts (context : PacketNetworkContext) : Prop :=
  ∀ contact ∈ context.contacts, isHex contact.public_key = true

/-- The code points of the hexadecimal digits. -/
theorem toNat_of_hexValue {c : Char} (h : (hexValue c).isSome = true) :
    48 ≤ c.toNat ∧ c.toNat ≤ 57 ∨ 97 ≤ c.toNat ∧ c.toNat ≤ 102 ∨
      65 ≤ c.toNat ∧ c.toNat ≤ 70 := by
  unfold hexValue at h
  split at h
  · exact .inl ‹_›
  · split at h
    · exact .inr (.inl ‹_›)
    · split at h
      · exact .inr (.inr ‹_›)
      · simp at h

theorem lowerChar_hex {c : Char} (h : (hexValue c).isSome = true) :
    lowerChar c ≠ '-' ∧ lowerChar c ≠ 'n' := by
  have hlower := lowerChar_toNat c
  have hrange := toNat_of_hexValue h
  constructor <;> intro heq <;> rw [heq] at hlower <;>
    simp only [show ('-' : Char).toNat = 45 from rfl, show ('n' : Char).toNat = 110 from rfl]
      at hlower <;>
    split at hlower <;> omega

/-- A hexadecimal text in lower case has no hyphen and no `n`. -/
theorem lower_hex {s : Text} (h : isHex s = true) : '-' ∉ lower s ∧ 'n' ∉ lower s := by
  have hdigit : ∀ c ∈ s, (hexValue c).isSome = true := by simpa [isHex] using h
  constructor
  · intro hm
    obtain ⟨c, hc, heq⟩ := List.mem_map.mp hm
    exact (lowerChar_hex (hdigit c hc)).1 heq
  · intro hm
    obtain ⟨c, hc, heq⟩ := List.mem_map.mp hm
    exact (lowerChar_hex (hdigit c hc)).2 heq

theorem isHex_take {s : Text} (h : isHex s = true) (n : Nat) : isHex (s.take n) = true := by
  simp only [isHex, List.all_eq_true] at h ⊢
  exact fun c hc => h c (List.mem_of_mem_take hc)

/-- The start of a hexadecimal key is a plain id. -/
theorem isPlain_prefix12 {key : Text} (h : isHex key = true) (hne : prefix12 key ≠ []) :
    IsPlain (prefix12 key) := by
  obtain ⟨hdash, hn⟩ := lower_hex (isHex_take h 12)
  refine ⟨hne, hdash, fun hhead => hn ?_⟩
  exact List.mem_of_head? hhead

theorem trim_subset {s : Text} {c : Char} (h : c ∈ trim s) : c ∈ s := by
  have hsub : (trim s).Sublist s := by
    have hrev := (List.dropWhile_sublist isBlank (l := (s.dropWhile isBlank).reverse)).reverse
    rw [List.reverse_reverse] at hrev
    exact hrev.trans (List.dropWhile_sublist isBlank)
  exact hsub.subset h

/-- A token without a hyphen is normalized to one without a hyphen. -/
theorem normalizeHopToken_no_dash {hop : Option Text} (h : ∀ s ∈ hop, '-' ∉ s) :
    ∀ token ∈ normalizeHopToken hop, '-' ∉ token := by
  intro token htoken hm
  obtain ⟨rfl, -⟩ : lower (trim (hop.getD [])) = token ∧ _ := by
    simpa [normalizeHopToken, orNull] using htoken
  obtain ⟨c, hc, heq⟩ := List.mem_map.mp hm
  have hc' : c ∈ hop.getD [] := trim_subset hc
  have hdash : c = '-' := by
    by_contra hne
    have hlower := lowerChar_toNat c
    rw [heq] at hlower
    have hne' : c.toNat ≠ 45 := fun h => hne (Char.toNat_inj.mp h)
    simp only [show ('-' : Char).toNat = 45 from rfl] at hlower
    split at hlower <;> omega
  cases hop with
  | none => simp at hc'
  | some s => exact h s rfl (hdash ▸ hc')

/-- An ambiguous id is plain. -/
theorem isPlain_ambiguous {hop : Text} {nextHop : Option Text} (hhop : '-' ∉ hop)
    (hnext : ∀ s ∈ nextHop, '-' ∉ s) : IsPlain (buildAmbiguousRepeaterNodeId hop nextHop) := by
  unfold buildAmbiguousRepeaterNodeId
  split
  · exact ⟨by simp, by decide, by decide⟩
  next hopKey hkey =>
    have hdash := @normalizeHopToken_no_dash (some hop) (by simpa using hhop) hopKey hkey
    split
    · exact ⟨by simp, by simpa using hdash, by simp⟩
    next nextHopKey hnextKey =>
      have hdash' := normalizeHopToken_no_dash hnext nextHopKey hnextKey
      exact ⟨by simp, by simpa using ⟨hdash, hdash'⟩, by simp⟩

/-! ### What resolving a node does -/

/-- The id stands in the table of nodes. -/
def Known (state : PacketNetworkState) (id : Text) : Prop := (state.nodes.get? id).isSome = true

instance (state : PacketNetworkState) (id : Text) : Decidable (Known state id) :=
  inferInstanceAs (Decidable (_ = true))

/-- The state knows at least as many nodes, and has the same links and observations. -/
structure Extends (state state' : PacketNetworkState) : Prop where
  links : state'.links = state.links
  neighborIds : state'.neighborIds = state.neighborIds
  observations : state'.observations = state.observations
  known : ∀ id, Known state id → Known state' id

theorem Extends.refl (state : PacketNetworkState) : Extends state state :=
  ⟨rfl, rfl, rfl, fun _ => id⟩

theorem Extends.trans {s t u : PacketNetworkState} (h : Extends s t) (h' : Extends t u) :
    Extends s u :=
  ⟨h'.links.trans h.links, h'.neighborIds.trans h.neighborIds,
    h'.observations.trans h.observations, fun id hid => h'.known id (h.known id hid)⟩

theorem known_addOrUpdateNode (state : PacketNetworkState) (node : PacketNetworkNode) (id : Text) :
    Known (addOrUpdateNode state node) id ↔ id = node.id ∨ Known state id :=
  OrderedMap.isSome_get?_upsert _ _ _ _ _

/-- Where the id of a node can come from. -/
inductive IdFrom (context : PacketNetworkContext) (source : NodeSource)
    (trafficContext : Option TrafficContext) : Text → Prop
  | key (publicKey : Text)
      (h : source = .pubkey publicKey ∨ ∃ c ∈ context.contacts, c.public_key = publicKey) :
      IdFrom context source trafficContext (prefix12 publicKey)
  | name (value : Text) (h : source = .name value) :
      IdFrom context source trafficContext (nameTag ++ value)
  | ambiguous (value : Text) (next : Option Text) (h : source = .hashPrefix value)
      (hnext : next = none ∨
        ∃ traffic, trafficContext = some traffic ∧ next = traffic.nextPrefix.map lower) :
      IdFrom context source trafficContext (buildAmbiguousRepeaterNodeId (lower value) next)

/-- Resolving finds nothing, finds our own node, or enters a node, and perhaps some traffic. -/
inductive Resolved (context : PacketNetworkContext) (source : NodeSource)
    (trafficContext : Option TrafficContext) (state : PacketNetworkState) :
    PacketNetworkState × Option Text → Prop
  | nothing : Resolved context source trafficContext state (state, none)
  | ourselves : Resolved context source trafficContext state (state, some selfId)
  | node (entered : PacketNetworkNode)
      (trafficPatterns : OrderedMap Text (List TrafficObservation))
      (hid : IdFrom context source trafficContext entered.id) :
      Resolved context source trafficContext state
        (addOrUpdateNode { state with trafficPatterns := trafficPatterns } entered,
          some entered.id)

theorem resolved_contact {source : NodeSource} {trafficContext : Option TrafficContext}
    {contact : Contact} (hcontact : contact ∈ context.contacts) :
    Resolved context source trafficContext state
      (resolveContact state context contact activityAtMs) := by
  unfold resolveContact
  dsimp only
  split
  · exact .ourselves
  · exact .node _ state.trafficPatterns (.key contact.public_key (.inr ⟨contact, hcontact, rfl⟩))

theorem mem_of_mem_byPrefix {contacts : List Contact} {value : Text} {contact : Contact}
    (h : contact ∈ byPrefix contacts value) : contact ∈ contacts := by
  unfold byPrefix at h
  obtain ⟨c, hc, hm⟩ := List.mem_flatMap.mp h
  obtain ⟨_, -, rfl⟩ := List.mem_map.mp hm
  exact hc

/-- An ambiguous id is made of the hop, or of the hop and the next one. -/
theorem ambiguousNodeId_cases (now : Int) (state : PacketNetworkState)
    (context : PacketNetworkContext) (isRepeater : Bool) (lookupValue : Text)
    (trafficContext : Option TrafficContext) :
    ∃ trafficPatterns next,
      ambiguousNodeId now state context isRepeater lookupValue trafficContext =
        ({ state with trafficPatterns := trafficPatterns },
          buildAmbiguousRepeaterNodeId lookupValue next) ∧
      (next = none ∨
        ∃ traffic, trafficContext = some traffic ∧ next = traffic.nextPrefix.map lower) := by
  unfold ambiguousNodeId
  cases trafficContext with
  | none => exact ⟨state.trafficPatterns, none, rfl, .inl rfl⟩
  | some traffic =>
      dsimp only
      split
      · refine ⟨_, ite _ (traffic.nextPrefix.map lower) none,
          Prod.ext rfl (apply_ite _ _ _ _).symm, ?_⟩
        exact (ite_eq_or_eq _ _ _).symm.imp_right fun h => ⟨traffic, rfl, h⟩
      · exact ⟨state.trafficPatterns, none, rfl, .inl rfl⟩

/-- What resolving does, in each case of its source. -/
theorem resolved_resolveNode (now activityAtMs : Int) (state : PacketNetworkState)
    (context : PacketNetworkContext) (source : NodeSource) (isRepeater showAmbiguous : Bool)
    (trafficContext : Option TrafficContext) :
    Resolved context source trafficContext state
      (resolveNode now state context source isRepeater showAmbiguous activityAtMs
        trafficContext) := by
  cases source with
  | pubkey value =>
      unfold resolveNode
      dsimp only
      split
      · exact .nothing
      · split
        · exact .ourselves
        · exact .node _ state.trafficPatterns (.key value (.inl rfl))
  | name value =>
      unfold resolveNode
      dsimp only
      split
      next contact hcontact => exact resolved_contact (List.mem_of_find?_eq_some hcontact)
      next => exact .node _ state.trafficPatterns (.name value rfl)
  | hashPrefix value =>
      unfold resolveNode
      dsimp only
      split
      next contact hmatch =>
        exact resolved_contact (mem_of_mem_byPrefix (hmatch ▸ List.mem_singleton_self contact))
      next =>
        split
        · exact .nothing
        · split
          next only honly =>
            have hmem : only ∈ byPrefix context.contacts (lower value) :=
              List.mem_of_mem_filter (honly ▸ List.mem_singleton_self only)
            exact .node _ state.trafficPatterns
              (.key only.public_key (.inr ⟨only, mem_of_mem_byPrefix hmem, rfl⟩))
          next =>
            split
            · exact .nothing
            · obtain ⟨patterns, next, heq, hnext⟩ := ambiguousNodeId_cases now state context
                isRepeater (lower value) trafficContext
              rw [heq]
              exact .node _ patterns (.ambiguous value next rfl hnext)

/-- Resolving forgets nothing. -/
theorem Resolved.extends {source : NodeSource} {trafficContext : Option TrafficContext}
    {result : PacketNetworkState × Option Text}
    (h : Resolved context source trafficContext state result) : Extends state result.1 := by
  cases h with
  | nothing => exact .refl _
  | ourselves => exact .refl _
  | node entered patterns hid =>
      exact ⟨rfl, rfl, rfl, fun id hknown => (known_addOrUpdateNode _ _ _).mpr (.inr hknown)⟩

/-- The node that is found is our own or known. -/
theorem Resolved.known {source : NodeSource} {trafficContext : Option TrafficContext}
    {result : PacketNetworkState × Option Text}
    (h : Resolved context source trafficContext state result) {id : Text}
    (hid : result.2 = some id) : id = selfId ∨ Known result.1 id := by
  cases h with
  | nothing => simp at hid
  | ourselves => exact .inl (Option.some.inj hid).symm
  | node entered patterns _ =>
      exact .inr ((known_addOrUpdateNode _ _ _).mpr (.inl (Option.some.inj hid).symm))

/-- The node that is found by a hash or a key has a plain id. -/
theorem Resolved.isPlain {source : NodeSource} {trafficContext : Option TrafficContext}
    {result : PacketNetworkState × Option Text}
    (h : Resolved context source trafficContext state result) (hcontext : HexContacts context)
    (hpubkey : ∀ value, source = .pubkey value → isHex value = true)
    (hhash : ∀ value, source = .hashPrefix value → isHex value = true)
    (hname : ∀ value, source ≠ .name value)
    (hnext : ∀ traffic ∈ trafficContext, ∀ next ∈ traffic.nextPrefix, isHex next = true)
    {id : Text} (hid : result.2 = some id) (hne : id ≠ []) : IsPlain id := by
  cases h with
  | nothing => simp at hid
  | ourselves =>
      obtain rfl : selfId = id := Option.some.inj hid
      exact isPlain_selfId
  | node entered patterns hfrom =>
      obtain heq : entered.id = id := Option.some.inj hid
      rw [heq] at hfrom
      cases hfrom with
      | key publicKey h =>
          rcases h with h | ⟨c, hc, rfl⟩
          · exact isPlain_prefix12 (hpubkey _ h) hne
          · exact isPlain_prefix12 (hcontext c hc) hne
      | name value h => exact absurd h (hname value)
      | ambiguous value next h hfrom =>
          refine isPlain_ambiguous (lower_hex (hhash _ h)).1 ?_
          intro s hs
          rcases hfrom with rfl | ⟨traffic, rfl, rfl⟩
          · simp at hs
          · obtain ⟨t, ht, rfl⟩ := Option.map_eq_some_iff.mp hs
            exact (lower_hex (hnext traffic rfl t ht)).1

/-! ### Paths -/

/-- `dedupeConsecutive` keeps an item when it differs from the last one kept. -/
theorem dedupeConsecutive_eq_destutter (items : List Text) :
    dedupeConsecutive items = items.destutter (· ≠ ·) := by
  cases items with
  | nil => rfl
  | cons item rest =>
      show item :: dedupeAfter item rest = rest.destutter' (· ≠ ·) item
      induction rest generalizing item with
      | nil => rfl
      | cons next rest ih =>
          by_cases h : next = item
          · subst h
            rw [dedupeAfter, if_pos rfl, ih, List.destutter', if_neg (by simp)]
          · rw [dedupeAfter, if_neg h, ih, List.destutter', if_pos (Ne.symm h)]

theorem isChain_dedupeConsecutive (items : List Text) :
    (dedupeConsecutive items).IsChain (· ≠ ·) := by
  rw [dedupeConsecutive_eq_destutter]
  exact List.isChain_destutter _ _

/-- A path without repetition is left alone. -/
theorem dedupeConsecutive_of_isChain {items : List Text} (h : items.IsChain (· ≠ ·)) :
    dedupeConsecutive items = items := by
  rw [dedupeConsecutive_eq_destutter]
  exact List.destutter_of_isChain _ _ h

theorem dedupeAfter_subset {previous : Text} {items : List Text} {id : Text}
    (h : id ∈ dedupeAfter previous items) : id ∈ items := by
  induction items generalizing previous with
  | nil => simp [dedupeAfter] at h
  | cons item rest ih =>
      rw [dedupeAfter] at h
      split at h
      · exact List.mem_cons_of_mem _ (ih h)
      · rcases List.mem_cons.mp h with rfl | h
        · exact List.mem_cons_self
        · exact List.mem_cons_of_mem _ (ih h)

/-- The ids of a path: only the first can be a name. -/
structure PathIds (path : List Text) : Prop where
  nodeId : ∀ id ∈ path, IsNodeId id
  plain : ∀ id ∈ path.tail, IsPlain id

theorem PathIds.of_plain {path : List Text} (h : ∀ id ∈ path, IsPlain id) : PathIds path :=
  ⟨fun id hid => (h id hid).isNodeId, fun id hid => h id (List.mem_of_mem_tail hid)⟩

theorem PathIds.cons {id : Text} {path : List Text} (hid : IsNodeId id)
    (h : ∀ id ∈ path, IsPlain id) : PathIds (id :: path) := by
  refine ⟨fun id' hid' => ?_, h⟩
  rcases List.mem_cons.mp hid' with rfl | hid'
  · exact hid
  · exact (h id' hid').isNodeId

theorem PathIds.dedupe {path : List Text} (h : PathIds path) : PathIds (dedupeConsecutive path) := by
  cases path with
  | nil => exact h
  | cons id rest =>
      exact .cons (h.nodeId id List.mem_cons_self) fun id' hid' =>
        h.plain id' (dedupeAfter_subset hid')

theorem orNull_eq_some_iff {value : Option Text} {s : Text} :
    orNull value = some s ↔ value = some s ∧ s ≠ [] := by
  simp [orNull, Option.filter_eq_some_iff]

/-- The hops of a path are plain and known. -/
theorem resolveHops_spec (now activityAtMs : Int) (state : PacketNetworkState)
    (packetSource : Option Text) {hops : List Text}
    (hcontext : HexContacts context) (hhops : ∀ hop ∈ hops, isHex hop = true) :
    Extends state (resolveHops now context packetSource activityAtMs state hops).1 ∧
    ∀ id ∈ (resolveHops now context packetSource activityAtMs state hops).2, IsPlain id ∧
      (id = selfId ∨ Known (resolveHops now context packetSource activityAtMs state hops).1 id) := by
  induction hops generalizing state with
  | nil => exact ⟨.refl state, by simp [resolveHops]⟩
  | cons hop rest ih =>
      have hresolved := resolved_resolveNode now activityAtMs state context (.hashPrefix hop) true
        true (some ⟨packetSource, orNull rest.head?⟩)
      generalize hfound : resolveNode now state context (.hashPrefix hop) true true activityAtMs
        (some ⟨packetSource, orNull rest.head?⟩) = found at hresolved
      obtain ⟨hext, hids⟩ := ih found.1 fun hop hhop => hhops hop (by simp [hhop])
      have heq : resolveHops now context packetSource activityAtMs state (hop :: rest) =
          ((resolveHops now context packetSource activityAtMs found.1 rest).1,
            (orNull found.2).toList ++
              (resolveHops now context packetSource activityAtMs found.1 rest).2) := by
        rw [resolveHops, hfound]
      rw [heq]
      refine ⟨hresolved.extends.trans hext, fun id hid => ?_⟩
      rcases List.mem_append.mp hid with hid | hid
      · obtain ⟨hsome, hne⟩ := orNull_eq_some_iff.mp (Option.mem_toList.mp hid)
        constructor
        · refine hresolved.isPlain hcontext (by simp) ?_ (by simp) ?_ hsome hne
          · intro value hvalue
            obtain rfl : hop = value := by simpa using hvalue
            exact hhops hop (by simp)
          · intro traffic htraffic next hnext
            obtain rfl : _ = traffic := Option.some.inj htraffic
            obtain ⟨hhead, -⟩ := orNull_eq_some_iff.mp hnext
            exact hhops next (List.mem_cons_of_mem _ (List.mem_of_head? hhead))
        · exact (hresolved.known hsome).imp_right (hext.known id)
      · exact hids id hid

/-- The source of a path can be a name, and is known. -/
theorem resolveSource_spec (now activityAtMs : Int) (state : PacketNetworkState)
    (packet : RawPacket) {parsed : ParsedPacket}
    (hcontext : HexContacts context) (hparsed : HexPacket parsed) :
    Extends state (resolveSource now state context parsed packet activityAtMs).1 ∧
    ∀ id, (resolveSource now state context parsed packet activityAtMs).2 = some id → id ≠ [] →
      IsNodeId id ∧
        (id = selfId ∨ Known (resolveSource now state context parsed packet activityAtMs).1 id) := by
  have hplain : ∀ (source : NodeSource) (showAmbiguous : Bool),
      (∀ value, source = .pubkey value → isHex value = true) →
      (∀ value, source = .hashPrefix value → isHex value = true) →
      Extends state (resolveNode now state context source false showAmbiguous activityAtMs none).1 ∧
      ∀ id, (resolveNode now state context source false showAmbiguous activityAtMs none).2 =
          some id → id ≠ [] → IsNodeId id ∧ (id = selfId ∨
        Known (resolveNode now state context source false showAmbiguous activityAtMs none).1 id) := by
    intro source showAmbiguous hpubkey hhash
    have hresolved := resolved_resolveNode now activityAtMs state context source false
      showAmbiguous none
    refine ⟨hresolved.extends, fun id hid hne => ⟨?_, hresolved.known hid⟩⟩
    by_cases hname : ∀ value, source ≠ .name value
    · exact (hresolved.isPlain hcontext hpubkey hhash hname (by simp) hid hne).isNodeId
    · -- a name, or the key of the contact that goes by it
      push Not at hname
      obtain ⟨value, rfl⟩ := hname
      generalize resolveNode now state context (.name value) false showAmbiguous activityAtMs none =
        found at hresolved hid
      cases hresolved with
      | nothing => simp at hid
      | ourselves =>
          obtain rfl : selfId = id := Option.some.inj hid
          exact isPlain_selfId.isNodeId
      | node entered patterns hfrom =>
          obtain heq : entered.id = id := Option.some.inj hid
          rw [heq] at hfrom
          cases hfrom with
          | key publicKey h =>
              obtain ⟨c, hc, rfl⟩ := h.resolve_left (by simp)
              exact (isPlain_prefix12 (hcontext c hc) hne).isNodeId
          | name value h => exact .inr (List.prefix_append _ _)
          | ambiguous value next h => exact absurd h (by simp)
  have hnothing : Extends state (state, (none : Option Text)).1 ∧
      ∀ id, (state, (none : Option Text)).2 = some id → id ≠ [] →
        IsNodeId id ∧ (id = selfId ∨ Known (state, (none : Option Text)).1 id) :=
    ⟨.refl state, fun id hid => by simp at hid⟩
  unfold resolveSource
  dsimp only
  split
  next key htype hkey =>
    exact hplain _ _ (fun v hv => by cases hv; exact hparsed.advertPubkey _ hkey) (by simp)
  next key htype _ hkey =>
    exact hplain _ _ (fun v hv => by cases hv; exact hparsed.anonRequestPubkey _ hkey) (by simp)
  next hash htype _ _ hhash =>
    split
    · refine ⟨.refl state, fun id hid _ => ?_⟩
      obtain rfl : selfId = id := Option.some.inj hid
      exact ⟨isPlain_selfId.isNodeId, .inl rfl⟩
    · exact hplain _ _ (by simp) fun v hv => by cases hv; exact hparsed.srcHash _ hhash
  next =>
    split
    next name hname => exact hplain _ _ (by simp) (by simp)
    next => exact hnothing
  next => exact hnothing

/-- What building a path adds to the state, and what the path is made of. -/
structure PathBuilt (state : PacketNetworkState) (result : PacketNetworkState × List Text) : Prop
    where
  grows : Extends state result.1
  ids : PathIds result.2
  known : ∀ id ∈ result.2, id = selfId ∨ Known result.1 id
  distinct : result.2.IsChain (· ≠ ·)

theorem recipient_subset {parsed : ParsedPacket} {path : List Text} {id : Text}
    (h : id ∈ recipient context parsed path) : id = selfId := by
  unfold recipient at h
  dsimp only at h
  split at h
  · split at h
    · simpa using h
    · split at h
      · simpa using h
      · simp at h
  · split at h
    · simpa using h
    · simp at h

theorem pathBuilt (packet : RawPacket) {parsed : ParsedPacket} (hcontext : HexContacts context)
    (hparsed : HexPacket parsed) :
    PathBuilt state
      (buildCanonicalPathForPacket now state context parsed packet activityAtMs) := by
  obtain ⟨hext, hsource⟩ := resolveSource_spec now activityAtMs state packet hcontext hparsed
  generalize hfound : resolveSource now state context parsed packet activityAtMs = found
    at hext hsource
  obtain ⟨hext', hhops⟩ := resolveHops_spec now activityAtMs found.1 (orNull found.2) hcontext
    hparsed.hops
  generalize hhopsEq : resolveHops now context (orNull found.2) activityAtMs found.1
    parsed.pathBytes = hops at hext' hhops
  have heq : buildCanonicalPathForPacket now state context parsed packet activityAtMs =
      (hops.1, dedupeConsecutive ((orNull found.2).toList ++ hops.2 ++
        recipient context parsed ((orNull found.2).toList ++ hops.2))) := by
    rw [buildCanonicalPathForPacket, hfound]
    dsimp only
    rw [hhopsEq]
  rw [heq]
  have hlater : ∀ id ∈ hops.2 ++ recipient context parsed ((orNull found.2).toList ++ hops.2),
      IsPlain id := by
    intro id hid
    rcases List.mem_append.mp hid with hid | hid
    · exact (hhops id hid).1
    · exact recipient_subset hid ▸ isPlain_selfId
  refine ⟨hext.trans hext', ?_, ?_, isChain_dedupeConsecutive _⟩
  · refine PathIds.dedupe ?_
    rw [List.append_assoc]
    cases hid : orNull found.2 with
    | none =>
        rw [hid] at hlater
        exact .of_plain hlater
    | some id =>
        rw [hid] at hlater
        obtain ⟨hsome, hne⟩ := orNull_eq_some_iff.mp hid
        exact .cons (hsource id hsome hne).1 hlater
  · intro id hid
    have hmem : id ∈ (orNull found.2).toList ++ hops.2 ++
        recipient context parsed ((orNull found.2).toList ++ hops.2) := by
      rw [dedupeConsecutive_eq_destutter] at hid
      exact (List.destutter_sublist _ _).subset hid
    rcases List.mem_append.mp hmem with hmem | hmem
    · rcases List.mem_append.mp hmem with hmem | hmem
      · obtain ⟨hsome, hne⟩ := orNull_eq_some_iff.mp (Option.mem_toList.mp hmem)
        exact (hsource id hsome hne).2.imp_right (hext'.known id)
      · exact (hhops id hmem).2
    · exact .inl (recipient_subset hmem)

end PacketNetwork

end RemoteTerm
