import RemoteTerm.Frontend.PacketNetworkIds

/-!
# The path of a direct message

A direct message names its sender and its recipient by the first byte of their
keys. Our own prefix has six bytes, so neither is ever recognized as ours: the path
ends with our own node whoever sent the message, and begins with it only when the
contacts resolve the hash of the sender to our own node.
-/

namespace RemoteTerm

namespace PacketNetwork

open Library

variable {now activityAtMs : Int} {state : PacketNetworkState} {context : PacketNetworkContext}

/-- A direct message as the wire has it: hashes of one byte and hops of at least one. -/
structure DirectMessage (parsed : ParsedPacket) (src dst : Text) : Prop where
  payloadType : parsed.payloadType = .textMessage
  srcHash : parsed.srcHash = some src
  dstHash : parsed.dstHash = some dst
  srcHex : isHex src = true
  dstHex : isHex dst = true
  srcByte : src.length = 2
  dstByte : dst.length = 2
  hops : ∀ hop ∈ parsed.pathBytes, isHex hop = true ∧ hop ≠ []

/-- The key of the radio and those of the contacts are hexadecimal, and the key of the radio is
longer than its prefix. -/
structure RadioKeys (publicKey : Option Text) (contacts : List Contact) : Prop where
  radioHex : ∀ key ∈ publicKey, isHex key = true
  radioLength : ∀ key ∈ publicKey, 12 ≤ key.length
  contacts : ∀ contact ∈ contacts, isHex contact.public_key = true

/-- The hash is the start of our own key. -/
def OurHash (context : PacketNetworkContext) (hash : Text) : Prop :=
  ∃ myPrefix, context.myPrefix = some myPrefix ∧ lower hash <+: myPrefix

/-- The path begins and ends where it should, and does not list us as a foreign node. -/
structure DmPathRight (context : PacketNetworkContext) (src dst : Text) (path : List Text) : Prop
    where
  distinct : path.IsChain (· ≠ ·)
  outgoing : OurHash context src → ¬ OurHash context dst → path.head? = some selfId
  heard : ¬ (OurHash context src ∧ ¬ OurHash context dst) → path ≠ [] →
    path.getLast? = some selfId
  unlisted : OurHash context dst → ∀ myPrefix, context.myPrefix = some myPrefix → myPrefix ∉ path

/-- The only contact under the hash is our own entry. -/
def OnlyOurs (context : PacketNetworkContext) (hash : Text) : Prop :=
  ∃ contact, byPrefix context.contacts (lower hash) = [contact] ∧
    context.myPrefix = some (prefix12 contact.public_key)

/-- Of several contacts under the hash our own entry is the only one of the kind. -/
def OursOfKind (context : PacketNetworkContext) (isRepeater : Bool) (hash : Text) : Prop :=
  (∀ contact, byPrefix context.contacts (lower hash) ≠ [contact]) ∧
    ∃ only, ofKind isRepeater (byPrefix context.contacts (lower hash)) = [only] ∧
      context.myPrefix = some (prefix12 only.public_key)

/-- No contact under the hash can be a sender. -/
def NoSender (context : PacketNetworkContext) (hash : Text) : Prop :=
  (∀ contact, byPrefix context.contacts (lower hash) ≠ [contact]) ∧
    ofKind false (byPrefix context.contacts (lower hash)) = []

/-- Our own message is led back to our own node by its contacts or its first hop, and a message to
us meets no hash under which we are the one contact of the kind. -/
structure ResolvedToUs (context : PacketNetworkContext) (src dst : Text) (hops : List Text) : Prop
    where
  outgoing : OurHash context src → ¬ OurHash context dst → OnlyOurs context src ∨
    NoSender context src ∧ ∃ hop ∈ hops.head?, OnlyOurs context hop
  unlisted : OurHash context dst → ¬ OursOfKind context false src ∧
    ∀ hop ∈ hops, ¬ OursOfKind context true hop

/-! ### What a hash resolves to -/

/-- What a hash resolves to, by the contacts under it. -/
inductive HashResolved (context : PacketNetworkContext) (isRepeater : Bool) (hash : Text) :
    Option Text → Prop
  | ourselves (h : OnlyOurs context hash) : HashResolved context isRepeater hash (some selfId)
  | contact (contact : Contact) (h : byPrefix context.contacts (lower hash) = [contact])
      (hne : context.myPrefix ≠ some (prefix12 contact.public_key)) :
      HashResolved context isRepeater hash (some (prefix12 contact.public_key))
  | only (only : Contact) (h : ∀ contact, byPrefix context.contacts (lower hash) ≠ [contact])
      (honly : ofKind isRepeater (byPrefix context.contacts (lower hash)) = [only]) :
      HashResolved context isRepeater hash (some (prefix12 only.public_key))
  | nobody (hkind : isRepeater = false) (h : NoSender context hash) :
      HashResolved context isRepeater hash none
  | ambiguous (h : ∀ contact, byPrefix context.contacts (lower hash) ≠ [contact])
      (hkind : ∀ only, ofKind isRepeater (byPrefix context.contacts (lower hash)) ≠ [only])
      (hsome : isRepeater = true ∨
        ofKind isRepeater (byPrefix context.contacts (lower hash)) ≠ [])
      (next : Option Text) :
      HashResolved context isRepeater hash
        (some (buildAmbiguousRepeaterNodeId (lower hash) next))

theorem hashResolved (now activityAtMs : Int) (state : PacketNetworkState)
    (context : PacketNetworkContext) (isRepeater : Bool) (hash : Text)
    (trafficContext : Option TrafficContext) :
    HashResolved context isRepeater hash
      (resolveNode now state context (.hashPrefix hash) isRepeater true activityAtMs
        trafficContext).2 := by
  unfold resolveNode
  dsimp only
  split
  next contact hcontact =>
    unfold resolveContact
    dsimp only
    split
    next hours => exact .ourselves ⟨contact, hcontact, hours⟩
    next hours => exact .contact contact hcontact hours
  next hnot =>
    simp only [Bool.true_eq_false, if_false]
    split
    next only honly => exact .only only hnot honly
    next hkind =>
      split
      next hempty =>
        simp only [Bool.and_eq_true, List.isEmpty_iff, Bool.not_eq_true'] at hempty
        obtain ⟨hnil, rfl⟩ := hempty
        exact .nobody rfl ⟨hnot, hnil⟩
      next hempty =>
        obtain ⟨patterns, next, heq, -⟩ := ambiguousNodeId_cases now state context isRepeater
          (lower hash) trafficContext
        rw [heq]
        refine .ambiguous hnot hkind ?_ next
        cases isRepeater with
        | true => exact .inl rfl
        | false => exact .inr (by simpa using hempty)

theorem ambiguous_head (hop : Text) (next : Option Text) :
    (buildAmbiguousRepeaterNodeId hop next).head? = some '?' := by
  unfold buildAmbiguousRepeaterNodeId
  split
  · rfl
  · split <;> rfl

/-- A hexadecimal prefix is neither our own id nor the start of an ambiguous one. -/
theorem prefix12_head {key : Text} (h : isHex key = true) :
    (prefix12 key).head? ≠ some 's' ∧ (prefix12 key).head? ≠ some '?' := by
  have hchars : ∀ c ∈ prefix12 key, c ≠ 's' ∧ c ≠ '?' := by
    intro c hc
    obtain ⟨d, hd, rfl⟩ := List.mem_map.mp hc
    have hdigit : (hexValue d).isSome = true := by
      have := isHex_take h 12
      simp only [isHex, List.all_eq_true] at this
      exact this d hd
    have hlower := lowerChar_toNat d
    have hrange := toNat_of_hexValue hdigit
    constructor <;> intro heq <;> rw [heq] at hlower <;>
      simp only [show ('s' : Char).toNat = 115 from rfl, show ('?' : Char).toNat = 63 from rfl]
        at hlower <;>
      split at hlower <;> omega
  constructor
  · exact fun h => (hchars 's' (List.mem_of_head? h)).1 rfl
  · exact fun h => (hchars '?' (List.mem_of_head? h)).2 rfl

theorem prefix12_ne_selfId {key : Text} (h : isHex key = true) : prefix12 key ≠ selfId := by
  intro heq
  exact (prefix12_head h).1 (by rw [heq]; rfl)

theorem isHex_of_mem_byPrefix (hcontext : HexContacts context) {value : Text} {contact : Contact}
    (h : contact ∈ byPrefix context.contacts value) : isHex contact.public_key = true :=
  hcontext contact (mem_of_mem_byPrefix h)

/-- A hash finds our own node when our own entry is the only contact under it. -/
theorem HashResolved.self_iff {isRepeater : Bool} {hash : Text} {result : Option Text}
    (h : HashResolved context isRepeater hash result) (hcontext : HexContacts context) :
    result = some selfId ↔ OnlyOurs context hash := by
  cases h with
  | ourselves h => simp [h]
  | contact contact hone hne =>
      have hhex := isHex_of_mem_byPrefix hcontext (hone ▸ List.mem_singleton_self contact)
      constructor
      · intro heq
        exact absurd (Option.some.inj heq) (prefix12_ne_selfId hhex)
      · rintro ⟨c, hc, hours⟩
        obtain rfl : contact = c := by simpa [hone] using hc
        exact absurd hours hne
  | only only hnot honly =>
      have hmem : only ∈ byPrefix context.contacts (lower hash) :=
        List.mem_of_mem_filter (honly ▸ List.mem_singleton_self only)
      constructor
      · intro heq
        exact absurd (Option.some.inj heq)
          (prefix12_ne_selfId (isHex_of_mem_byPrefix hcontext hmem))
      · rintro ⟨c, hc, -⟩
        exact absurd hc (hnot c)
  | nobody _ hnobody =>
      constructor
      · intro heq
        simp at heq
      · rintro ⟨c, hc, -⟩
        exact absurd hc (hnobody.1 c)
  | ambiguous hnot _ _ next =>
      constructor
      · intro heq
        have hhead := ambiguous_head (lower hash) next
        rw [Option.some.inj heq] at hhead
        exact absurd hhead (by decide)
      · rintro ⟨c, hc, -⟩
        exact absurd hc (hnot c)

/-- A hash finds us as a foreign node when our own entry is the only contact of the kind. -/
theorem HashResolved.mine_iff {isRepeater : Bool} {hash : Text} {result : Option Text}
    (h : HashResolved context isRepeater hash result) {key : Text} (hkey : isHex key = true)
    (hmine : context.myPrefix = some (prefix12 key)) :
    result = some (prefix12 key) ↔ OursOfKind context isRepeater hash := by
  cases h with
  | ourselves honly =>
      obtain ⟨c, hc, -⟩ := honly
      constructor
      · intro heq
        exact absurd (Option.some.inj heq).symm (prefix12_ne_selfId hkey)
      · rintro ⟨hnot, -⟩
        exact absurd hc (hnot c)
  | contact contact hone hne =>
      constructor
      · intro heq
        rw [hmine] at hne
        exact absurd heq.symm hne
      · rintro ⟨hnot, -⟩
        exact absurd hone (hnot contact)
  | only only hnot honly =>
      constructor
      · intro heq
        exact ⟨hnot, only, honly, hmine.trans heq.symm⟩
      · rintro ⟨-, other, hother, hours⟩
        obtain rfl : only = other := by simpa [honly] using hother
        exact hours.symm.trans hmine
  | nobody hkind hnobody =>
      subst hkind
      constructor
      · intro heq
        simp at heq
      · rintro ⟨-, other, hother, -⟩
        rw [hnobody.2] at hother
        simp at hother
  | ambiguous hnot hkind _ next =>
      constructor
      · intro heq
        have hhead := ambiguous_head (lower hash) next
        rw [Option.some.inj heq] at hhead
        exact absurd hhead (prefix12_head hkey).2
      · rintro ⟨-, other, hother, -⟩
        exact absurd hother (hkind other)

theorem HashResolved.none_iff {isRepeater : Bool} {hash : Text} {result : Option Text}
    (h : HashResolved context isRepeater hash result) :
    result = none ↔ isRepeater = false ∧ NoSender context hash := by
  cases h with
  | ourselves honly =>
      obtain ⟨c, hc, -⟩ := honly
      exact ⟨by simp, fun h => absurd hc (h.2.1 c)⟩
  | contact contact hone _ => exact ⟨by simp, fun h => absurd hone (h.2.1 contact)⟩
  | only only _ honly =>
      refine ⟨by simp, ?_⟩
      rintro ⟨rfl, -, hnil⟩
      rw [hnil] at honly
      simp at honly
  | nobody hkind hnobody => exact ⟨fun _ => ⟨hkind, hnobody⟩, fun _ => rfl⟩
  | ambiguous _ _ hsome _ =>
      refine ⟨by simp, ?_⟩
      rintro ⟨rfl, -, hnil⟩
      exact absurd hnil (hsome.resolve_left (by simp))

/-- What a hash that is not empty resolves to is not empty. -/
theorem HashResolved.orNull_eq {isRepeater : Bool} {hash : Text} {result : Option Text}
    (h : HashResolved context isRepeater hash result) (hhash : hash ≠ []) :
    orNull result = result := by
  have hkey : ∀ contact ∈ byPrefix context.contacts (lower hash),
      prefix12 contact.public_key ≠ [] := by
    intro contact hmem hnil
    unfold byPrefix at hmem
    obtain ⟨c, -, hm⟩ := List.mem_flatMap.mp hmem
    obtain ⟨len, hlen, rfl⟩ := List.mem_map.mp hm
    obtain ⟨-, htake⟩ := List.mem_filter.mp hlen
    rw [hnil] at htake
    simp only [List.take_nil, decide_eq_true_eq] at htake
    have : lower hash ≠ [] := by simpa [lower] using hhash
    exact this htake.symm
  cases h with
  | ourselves _ => rfl
  | contact contact hone _ =>
      exact orNull_eq_some_iff.mpr ⟨rfl, hkey contact (hone ▸ List.mem_singleton_self contact)⟩
  | only only _ honly =>
      exact orNull_eq_some_iff.mpr ⟨rfl, hkey only
        (List.mem_of_mem_filter (honly ▸ List.mem_singleton_self only))⟩
  | nobody _ _ => rfl
  | ambiguous _ _ _ next =>
      refine orNull_eq_some_iff.mpr ⟨rfl, fun hnil => ?_⟩
      have hhead := ambiguous_head (lower hash) next
      rw [hnil] at hhead
      simp at hhead

/-! ### The two ends of a path -/

theorem mem_dedupeConsecutive {items : List Text} {id : Text} :
    id ∈ dedupeConsecutive items ↔ id ∈ items := by
  cases items with
  | nil => simp [dedupeConsecutive]
  | cons item rest =>
      show id ∈ item :: dedupeAfter item rest ↔ id ∈ item :: rest
      induction rest generalizing item with
      | nil => rfl
      | cons next rest ih =>
          rw [dedupeAfter]
          split
          next heq =>
            rw [heq, ih]
            simp
          next =>
            rw [List.mem_cons, ih, List.mem_cons (a := id) (b := item)]

theorem head?_dedupeConsecutive (items : List Text) :
    (dedupeConsecutive items).head? = items.head? := by
  cases items <;> rfl

theorem getLast?_dedupeConsecutive (items : List Text) :
    (dedupeConsecutive items).getLast? = items.getLast? := by
  cases items with
  | nil => rfl
  | cons item rest =>
      show (item :: dedupeAfter item rest).getLast? = (item :: rest).getLast?
      induction rest generalizing item with
      | nil => rfl
      | cons next rest ih =>
          rw [dedupeAfter]
          split
          next heq =>
            rw [heq, ih, List.getLast?_cons_cons]
          next =>
            rw [List.getLast?_cons_cons, ih, List.getLast?_cons_cons]

/-- We stand among the hops as a foreign node when a hop finds us so. -/
theorem mem_resolveHops_iff {hops : List Text} (hhops : ∀ hop ∈ hops, hop ≠ [])
    (packetSource : Option Text) {key : Text} (hkey : isHex key = true)
    (hmine : context.myPrefix = some (prefix12 key)) :
    prefix12 key ∈ (resolveHops now context packetSource activityAtMs state hops).2 ↔
      ∃ hop ∈ hops, OursOfKind context true hop := by
  induction hops generalizing state with
  | nil => simp [resolveHops]
  | cons hop rest ih =>
      have hresolved := hashResolved now activityAtMs state context true hop
        (some ⟨packetSource, orNull rest.head?⟩)
      rw [resolveHops, List.mem_append, Option.mem_toList,
        ih fun hop h => hhops hop (List.mem_cons_of_mem _ h), List.exists_mem_cons_iff,
        hresolved.orNull_eq (hhops hop List.mem_cons_self)]
      exact or_congr_left (hresolved.mine_iff hkey hmine)

/-- The hops begin with what the first one resolves to. -/
theorem head?_resolveHops {hop : Text} {rest : List Text} (hhop : hop ≠ [])
    (packetSource : Option Text) :
    (resolveHops now context packetSource activityAtMs state (hop :: rest)).2.head? =
      (resolveNode now state context (.hashPrefix hop) true true activityAtMs
        (some ⟨packetSource, orNull rest.head?⟩)).2 := by
  have hresolved := hashResolved now activityAtMs state context true hop
    (some ⟨packetSource, orNull rest.head?⟩)
  rw [resolveHops]
  dsimp only
  rw [hresolved.orNull_eq hhop]
  cases hid : (resolveNode now state context (.hashPrefix hop) true true activityAtMs
      (some ⟨packetSource, orNull rest.head?⟩)).2 with
  | some id => rfl
  | none => exact absurd (hresolved.none_iff.mp hid).1 (by simp)

/-! ### Our own prefix -/

variable {publicKey : Option Text} {contacts : List Contact} {split : Bool} {parsed : ParsedPacket}
  {src dst : Text} {packet : RawPacket}

/-- Our own prefix is the start of the key of the radio. -/
theorem myPrefix_eq (keys : RadioKeys publicKey contacts) {myPrefix : Text}
    (h : (buildPacketNetworkContext publicKey contacts split).myPrefix = some myPrefix) :
    ∃ key, isHex key = true ∧ 12 ≤ key.length ∧ myPrefix = prefix12 key := by
  obtain ⟨hsome, -⟩ := orNull_eq_some_iff.mp h
  obtain ⟨key, hkey, rfl⟩ := Option.map_eq_some_iff.mp hsome
  exact ⟨key, keys.radioHex key hkey, keys.radioLength key hkey, rfl⟩

/-- A hash of one byte is never our prefix of six. -/
theorem isMyPrefix_byte (keys : RadioKeys publicKey contacts) {hash : Text}
    (hbyte : hash.length = 2) :
    isMyPrefix (buildPacketNetworkContext publicKey contacts split) (some hash) = false := by
  unfold isMyPrefix
  cases h : (buildPacketNetworkContext publicKey contacts split).myPrefix with
  | none => rfl
  | some myPrefix =>
      obtain ⟨key, -, hlength, rfl⟩ := myPrefix_eq keys h
      have hne : lower hash ≠ prefix12 key := by
        intro heq
        have hlen := congrArg List.length heq
        simp only [lower, prefix12, List.length_map, List.length_take, hbyte] at hlen
        omega
      simpa using hne

/-- The nodes of a direct message before its recipient. -/
def dmNodes (now : Int) (state : PacketNetworkState) (context : PacketNetworkContext) (src : Text)
    (hops : List Text) (activityAtMs : Int) : List Text :=
  let source := resolveNode now state context (.hashPrefix src) false true activityAtMs none
  source.2.toList ++ (resolveHops now context source.2 activityAtMs source.1 hops).2

/-- The path of a direct message: its nodes, and our own after them. -/
theorem dm_path_eq (now activityAtMs : Int) (state : PacketNetworkState) (split : Bool)
    (packet : RawPacket) (keys : RadioKeys publicKey contacts) (dm : DirectMessage parsed src dst) :
    (buildCanonicalPathForPacket now state (buildPacketNetworkContext publicKey contacts split)
      parsed packet activityAtMs).2 =
      let nodes := dmNodes now state (buildPacketNetworkContext publicKey contacts split) src
        parsed.pathBytes activityAtMs
      dedupeConsecutive (nodes ++ if nodes.isEmpty then [] else [selfId]) := by
  have hsrc : isMyPrefix (buildPacketNetworkContext publicKey contacts split) (some src) = false :=
    isMyPrefix_byte keys dm.srcByte
  have hdst : isMyPrefix (buildPacketNetworkContext publicKey contacts split) (some dst) = false :=
    isMyPrefix_byte keys dm.dstByte
  have hne : src ≠ [] := by
    intro hnil
    have := dm.srcByte
    simp [hnil] at this
  have hsource : resolveSource now state (buildPacketNetworkContext publicKey contacts split)
      parsed packet activityAtMs =
      resolveNode now state (buildPacketNetworkContext publicKey contacts split)
        (.hashPrefix src) false true activityAtMs none := by
    unfold resolveSource
    rw [dm.payloadType, dm.srcHash]
    dsimp only
    rw [hsrc]
    rfl
  have hrecipient : ∀ nodes : List Text,
      recipient (buildPacketNetworkContext publicKey contacts split) parsed nodes =
        if nodes.isEmpty then [] else [selfId] := by
    intro nodes
    unfold recipient
    rw [dm.payloadType, dm.srcHash, dm.dstHash]
    simp only [decide_true, Option.isSome_some, Bool.and_self, if_true, hsrc, hdst,
      Bool.and_false, Bool.not_false, Bool.true_and, Bool.false_eq_true, if_false]
    cases nodes <;> rfl
  have hresolved := hashResolved now activityAtMs state
    (buildPacketNetworkContext publicKey contacts split) false src none
  rw [buildCanonicalPathForPacket, hsource]
  dsimp only
  rw [hrecipient, hresolved.orNull_eq hne, dmNodes]

/-- The nodes begin with our own when the hash of the sender leads to us, or leads nowhere and the
first hop leads to us. -/
theorem head?_dmNodes (now activityAtMs : Int) (state : PacketNetworkState) (split : Bool)
    (keys : RadioKeys publicKey contacts) (dm : DirectMessage parsed src dst) :
    (dmNodes now state (buildPacketNetworkContext publicKey contacts split) src parsed.pathBytes
      activityAtMs).head? = some selfId ↔
    OnlyOurs (buildPacketNetworkContext publicKey contacts split) src ∨
      NoSender (buildPacketNetworkContext publicKey contacts split) src ∧
        ∃ hop ∈ parsed.pathBytes.head?,
          OnlyOurs (buildPacketNetworkContext publicKey contacts split) hop := by
  have hcontext : HexContacts (buildPacketNetworkContext publicKey contacts split) := keys.contacts
  have hresolved := hashResolved now activityAtMs state
    (buildPacketNetworkContext publicKey contacts split) false src none
  unfold dmNodes
  dsimp only
  generalize hfound : resolveNode now state (buildPacketNetworkContext publicKey contacts split)
    (.hashPrefix src) false true activityAtMs none = found at hresolved
  have hself := hresolved.self_iff hcontext
  have hnone := hresolved.none_iff
  cases hid : found.2 with
  | some id =>
      rw [hid] at hself hnone
      have hsender : ¬ NoSender (buildPacketNetworkContext publicKey contacts split) src :=
        fun h => by simp [h] at hnone
      rw [← hself]
      simp [hsender]
  | none =>
      rw [hid] at hself hnone
      have hsender := (hnone.mp rfl).2
      have hnot : ¬ OnlyOurs (buildPacketNetworkContext publicKey contacts split) src := by
        rw [← hself]
        simp
      simp only [Option.toList_none, List.nil_append, hnot, hsender, false_or, true_and]
      cases hhops : parsed.pathBytes with
      | nil => simp [resolveHops]
      | cons hop rest =>
          have hhop : hop ≠ [] := (dm.hops hop (by rw [hhops]; exact List.mem_cons_self)).2
          rw [head?_resolveHops hhop, (hashResolved _ _ _ _ true hop _).self_iff hcontext]
          simp

/-- We stand on the path as a foreign node when the hash of the sender or a hop finds us so. -/
theorem mem_dmNodes (now activityAtMs : Int) (state : PacketNetworkState)
    (context : PacketNetworkContext) (dm : DirectMessage parsed src dst) (key : Text)
    (hkey : isHex key = true)
    (hmine : context.myPrefix = some (prefix12 key)) :
    prefix12 key ∈ dmNodes now state context src parsed.pathBytes activityAtMs ↔
      OursOfKind context false src ∨ ∃ hop ∈ parsed.pathBytes, OursOfKind context true hop := by
  have hresolved := hashResolved now activityAtMs state context false src none
  unfold dmNodes
  dsimp only
  rw [List.mem_append, Option.mem_toList,
    mem_resolveHops_iff (fun hop h => (dm.hops hop h).2) _ hkey hmine]
  exact or_congr_left (hresolved.mine_iff hkey hmine)

/-- The path of a direct message is right if and only if the contacts lead our own messages back to
us and do not list us as one of several under a hash of a message to us. -/
theorem dm_path_right_iff (keys : RadioKeys publicKey contacts)
    (dm : DirectMessage parsed src dst) :
    DmPathRight (buildPacketNetworkContext publicKey contacts split) src dst
      (buildCanonicalPathForPacket now state (buildPacketNetworkContext publicKey contacts split)
        parsed packet activityAtMs).2 ↔
    ResolvedToUs (buildPacketNetworkContext publicKey contacts split) src dst
      parsed.pathBytes := by
  have hpath := dm_path_eq now activityAtMs state split packet keys dm
  dsimp only at hpath
  have hhead := head?_dmNodes now activityAtMs state split keys dm
  have hmem := mem_dmNodes now activityAtMs state
    (buildPacketNetworkContext publicKey contacts split) dm
  rw [hpath]
  generalize dmNodes now state (buildPacketNetworkContext publicKey contacts split) src
    parsed.pathBytes activityAtMs = nodes at hhead hmem
  have hfirst : (dedupeConsecutive (nodes ++ if nodes.isEmpty then [] else [selfId])).head? =
      nodes.head? := by
    rw [head?_dedupeConsecutive]
    cases nodes <;> rfl
  have hmine : ∀ key, isHex key = true →
      (prefix12 key ∈ dedupeConsecutive (nodes ++ if nodes.isEmpty then [] else [selfId]) ↔
        prefix12 key ∈ nodes) := by
    intro key hkey
    rw [mem_dedupeConsecutive, List.mem_append]
    refine or_iff_left fun h => prefix12_ne_selfId hkey ?_
    split at h
    · simp at h
    · simpa using h
  constructor
  · intro right
    constructor
    · intro hsrc hdst
      rw [← hhead, ← hfirst]
      exact right.outgoing hsrc hdst
    · intro hdst
      obtain ⟨myPrefix, hours, hstart⟩ := hdst
      have hnot := right.unlisted ⟨myPrefix, hours, hstart⟩ _ hours
      obtain ⟨key, hkey, -, rfl⟩ := myPrefix_eq keys hours
      rw [hmine key hkey, hmem _ hkey hours, not_or] at hnot
      exact ⟨hnot.1, fun hop hhop h => hnot.2 ⟨hop, hhop, h⟩⟩
  · intro resolved
    constructor
    · exact isChain_dedupeConsecutive _
    · intro hsrc hdst
      rw [hfirst, hhead]
      exact resolved.outgoing hsrc hdst
    · intro _ hne
      rw [getLast?_dedupeConsecutive]
      cases nodes with
      | nil => exact absurd rfl hne
      | cons id nodes =>
          show (id :: nodes ++ [selfId]).getLast? = some selfId
          exact List.getLast?_concat
    · intro hdst myPrefix hours
      obtain ⟨key, hkey, -, rfl⟩ := myPrefix_eq keys hours
      rw [hmine key hkey, hmem _ hkey hours, not_or]
      obtain ⟨hsource, hhops⟩ := resolved.unlisted hdst
      exact ⟨hsource, fun ⟨hop, hhop, h⟩ => hhops hop hhop h⟩

/-! ### Our own message heard back -/

/-- The key of the radio. -/
def radioKey : Text := List.replicate 64 'f'

/-- A direct message from the first hash to the second over one unknown repeater. -/
def dmPacket (src dst : Text) : ParsedPacket :=
  ⟨.textMessage, [['3', '2']], some src, some dst, none, none, none⟩

theorem directMessage_dmPacket {src dst : Text} (hsrc : isHex src = true ∧ src.length = 2)
    (hdst : isHex dst = true ∧ dst.length = 2) : DirectMessage (dmPacket src dst) src dst where
  payloadType := rfl
  srcHash := rfl
  dstHash := rfl
  srcHex := hsrc.1
  dstHex := hdst.1
  srcByte := hsrc.2
  dstByte := hdst.2
  hops := by
    intro hop hhop
    obtain rfl : hop = ['3', '2'] := by simpa [dmPacket] using hhop
    exact ⟨by decide +kernel, by simp⟩

theorem radioKeys_radioKey : RadioKeys (some radioKey) [] where
  radioHex := by
    intro key hkey
    obtain rfl : radioKey = key := Option.some.inj hkey
    decide +kernel
  radioLength := by
    intro key hkey
    obtain rfl : radioKey = key := Option.some.inj hkey
    decide
  contacts := by simp

/-- A message to us, heard over an unknown repeater. -/
theorem dm_path_right_iff_inbound :
    DmPathRight (buildPacketNetworkContext (some radioKey) [] false) ['b', 'b'] ['f', 'f']
      (buildCanonicalPathForPacket 0 (createPacketNetworkState 0)
        (buildPacketNetworkContext (some radioKey) [] false)
        (dmPacket ['b', 'b'] ['f', 'f']) ⟨[], none, none⟩ 0).2 ↔
    ResolvedToUs (buildPacketNetworkContext (some radioKey) [] false) ['b', 'b'] ['f', 'f']
      [['3', '2']] :=
  dm_path_right_iff radioKeys_radioKey
    (directMessage_dmPacket (by decide +kernel) (by decide +kernel))

/-- Our own message that a repeater sent on is drawn as coming from the repeater. -/
theorem own_dm_drawn_foreign : RadioKeys (some radioKey) [] ∧
    DirectMessage (dmPacket ['f', 'f'] ['b', 'b']) ['f', 'f'] ['b', 'b'] ∧
    ¬ DmPathRight (buildPacketNetworkContext (some radioKey) [] false) ['f', 'f'] ['b', 'b']
      (buildCanonicalPathForPacket 0 (createPacketNetworkState 0)
        (buildPacketNetworkContext (some radioKey) [] false)
        (dmPacket ['f', 'f'] ['b', 'b']) ⟨[], none, none⟩ 0).2 := by
  refine ⟨radioKeys_radioKey,
    directMessage_dmPacket (by decide +kernel) (by decide +kernel), fun h => ?_⟩
  have hradio : (buildPacketNetworkContext (some radioKey) [] false).myPrefix =
      some (List.replicate 12 'f') := by decide +kernel
  have hours : OurHash (buildPacketNetworkContext (some radioKey) [] false) ['f', 'f'] :=
    ⟨_, hradio, by decide +kernel⟩
  have hforeign : ¬ OurHash (buildPacketNetworkContext (some radioKey) [] false) ['b', 'b'] := by
    rintro ⟨myPrefix, hmine, hstart⟩
    obtain rfl := Option.some.inj (hradio.symm.trans hmine)
    revert hstart
    decide +kernel
  have hdrawn : (buildCanonicalPathForPacket 0 (createPacketNetworkState 0)
      (buildPacketNetworkContext (some radioKey) [] false)
      (dmPacket ['f', 'f'] ['b', 'b']) ⟨[], none, none⟩ 0).2 = [['?', '3', '2'], selfId] := by
    decide +kernel
  have hfirst := h.outgoing hours hforeign
  rw [hdrawn] at hfirst
  exact absurd hfirst (by decide)

end PacketNetwork

end RemoteTerm
