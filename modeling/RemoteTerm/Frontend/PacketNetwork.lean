import Mathlib
import RemoteTerm.Library.CodeUnits
import RemoteTerm.Library.Machine
import RemoteTerm.Library.Upsert
import RemoteTerm.Library.Walk

/-!
# The packet network

The visualizer turns each packet into a path of nodes, from where it came to where
it was heard, and keeps four views of what it saw: the nodes, the links, the
neighbours of each node and the paths themselves. Prefixes are resolved against
the contacts; what they leave open becomes an ambiguous node.

## Implementation notes

Times are integer milliseconds; a cutoff between two integers removes what the
next integer removes. Names shown, the reason of the last activity, the time a
contact was last seen and the probable identity of an ambiguous node are left out:
nothing here reads them. The probable identity serves the collapsing of aliases,
which is switched off throughout. What the decoder makes of a packet is a
parameter; hashes and keys are hexadecimal, so lower case is that of ASCII.
-/

namespace RemoteTerm

namespace PacketNetwork

open Library

/-- The payload types that are told apart. -/
inductive PayloadType where
  | advert
  | anonRequest
  | textMessage
  | groupText
  | trace
  | other
  deriving DecidableEq

/-- The fields of a decoded payload. -/
structure DecodedPayload where
  pathHashes : Option (List Text)
  sourceHash : Option Text
  destinationHash : Option Text
  publicKey : Option Text
  sender : Option Text
  senderPublicKey : Option Text

/-- What the decoder makes of a packet. -/
structure DecodedPacket where
  isValid : Bool
  payloadType : PayloadType
  path : Option (List Text)
  decoded : Option DecodedPayload

/-- `ParsedPacket`. -/
structure ParsedPacket where
  payloadType : PayloadType
  pathBytes : List Text
  srcHash : Option Text
  dstHash : Option Text
  advertPubkey : Option Text
  groupTextSender : Option Text
  anonRequestPubkey : Option Text

/-- `value || null`. -/
def orNull (value : Option Text) : Option Text := value.filter (· ≠ [])

/-- `parsePacket`; `none` of the decoder is an exception. -/
def parsePacket (decode : Text → Option DecodedPacket) (hexData : Text) : Option ParsedPacket :=
  match decode hexData with
  | none => none
  | some decoded =>
      if decoded.isValid = false then none
      else
        let payloadOf (type : PayloadType) : Option DecodedPayload :=
          if decoded.payloadType = type then decoded.decoded else none
        some
          { payloadType := decoded.payloadType
            pathBytes := ((payloadOf .trace).bind (·.pathHashes)).getD (decoded.path.getD [])
            srcHash := (payloadOf .textMessage).bind fun p => orNull p.sourceHash
            dstHash := (payloadOf .textMessage).bind fun p => orNull p.destinationHash
            advertPubkey := (payloadOf .advert).bind fun p => orNull p.publicKey
            groupTextSender := (payloadOf .groupText).bind fun p => orNull p.sender
            anonRequestPubkey := (payloadOf .anonRequest).bind fun p => orNull p.senderPublicKey }

/-- The fields of a contact that are read. -/
structure Contact where
  public_key : Text
  name : Option Text
  type : Nat

/-- `CONTACT_TYPE_REPEATER`. -/
def contactTypeRepeater : Nat := 2

/-- `public_key.slice(0, 12).toLowerCase()`. -/
def prefix12 (publicKey : Text) : Text := lower (publicKey.take 12)

/-- `byPrefix12`: the last contact with a key wins. -/
def byPrefix12 (contacts : List Contact) (id : Text) : Option Contact :=
  contacts.reverse.find? fun contact => prefix12 contact.public_key = id

/-- `byName`: the first contact with a name wins. -/
def byName (contacts : List Contact) (name : Text) : Option Contact :=
  contacts.find? fun contact => orNull contact.name = some name

/-- `byPrefix`: a contact stands under each of the first twelve starts of its key. -/
def byPrefix (contacts : List Contact) (value : Text) : List Contact :=
  contacts.flatMap fun contact =>
    ((List.range' 1 12).filter fun len => (prefix12 contact.public_key).take len = value).map
      fun _ => contact

/-- `PacketNetworkContext`. -/
structure PacketNetworkContext where
  contacts : List Contact
  myPrefix : Option Text
  splitAmbiguousByTraffic : Bool

/-- `buildPacketNetworkContext`, from the public key of the radio. -/
def buildPacketNetworkContext (publicKey : Option Text) (contacts : List Contact)
    (splitAmbiguousByTraffic : Bool) : PacketNetworkContext where
  contacts := contacts
  myPrefix := orNull (publicKey.map prefix12)
  splitAmbiguousByTraffic := splitAmbiguousByTraffic

/-- `NodeType`. -/
inductive NodeType where
  | self
  | repeater
  | client
  deriving DecidableEq

/-- `PacketNetworkNode`. -/
structure PacketNetworkNode where
  id : Text
  type : NodeType
  isAmbiguous : Bool
  lastActivity : Int
  deriving DecidableEq

/-- `PacketNetworkLink`. -/
structure PacketNetworkLink where
  sourceId : Text
  targetId : Text
  lastActivity : Int
  deriving DecidableEq

/-- `PacketNetworkObservation`. -/
structure PacketNetworkObservation where
  nodes : List Text
  activityAtMs : Int
  deriving DecidableEq

/-- `TrafficObservation`. -/
structure TrafficObservation where
  source : Text
  nextHop : Option Text
  timestamp : Int

/-- `PacketNetworkState`. -/
structure PacketNetworkState where
  links : OrderedMap Text PacketNetworkLink
  neighborIds : OrderedMap Text (List Text)
  nodes : OrderedMap Text PacketNetworkNode
  observations : List PacketNetworkObservation
  trafficPatterns : OrderedMap Text (List TrafficObservation)

/-- The id of our own node. -/
def selfId : Text := ['s', 'e', 'l', 'f']

/-- Our own node. -/
def selfNode (now : Int) : PacketNetworkNode := ⟨selfId, .self, false, now⟩

/-- `createPacketNetworkState`. -/
def createPacketNetworkState (now : Int) : PacketNetworkState where
  links := .empty
  neighborIds := .empty
  nodes := (OrderedMap.empty).set selfId (selfNode now)
  observations := []
  trafficPatterns := .empty

/-- `clearPacketNetworkState`: every map is emptied and our own node set again. -/
def clearPacketNetworkState (now : Int) (_state : PacketNetworkState) : PacketNetworkState :=
  createPacketNetworkState now

/-! ### Ambiguous nodes and traffic -/

/-- The white space of `trim`. -/
def isBlank (c : Char) : Bool :=
  let n := c.toNat
  9 ≤ n ∧ n ≤ 13 ∨ n = 32 ∨ n = 0xA0 ∨ n = 0x1680 ∨ 0x2000 ≤ n ∧ n ≤ 0x200A ∨ n = 0x2028 ∨
    n = 0x2029 ∨ n = 0x202F ∨ n = 0x205F ∨ n = 0x3000 ∨ n = 0xFEFF

/-- `text.trim()`. -/
def trim (s : Text) : Text := ((s.dropWhile isBlank).reverse.dropWhile isBlank).reverse

/-- `normalizeHopToken`. -/
def normalizeHopToken (hop : Option Text) : Option Text :=
  orNull (some (lower (trim (hop.getD []))))

/-- `buildAmbiguousRepeaterNodeId`. -/
def buildAmbiguousRepeaterNodeId (hop : Text) (nextHop : Option Text) : Text :=
  match normalizeHopToken (some hop) with
  | none => ['?']
  | some hopKey =>
      match normalizeHopToken nextHop with
      | none => '?' :: hopKey
      | some nextHopKey => '?' :: (hopKey ++ ':' :: '>' :: nextHopKey)

/-- `TRAFFIC_OBSERVATION_MAX_AGE_MS`. -/
def trafficObservationMaxAgeMs : Int := 30 * 60 * 1000

/-- `MAX_TRAFFIC_OBSERVATIONS`. -/
def maxTrafficObservations : Nat := 200

/-- `MIN_OBSERVATIONS_TO_SPLIT`. -/
def minObservationsToSplit : Nat := 20

/-- The observations that are not too old. -/
def recentObservations (now : Int) (observations : List TrafficObservation) :
    List TrafficObservation :=
  observations.filter fun obs => now - obs.timestamp < trafficObservationMaxAgeMs

/-- The sources seen before each next hop. -/
def byNextHop (observations : List TrafficObservation) : OrderedMap Text (List Text) :=
  OrderedMap.collect (fun obs : TrafficObservation => obs.nextHop.getD selfId)
    (fun obs sources => sources.insert obs.source) (fun obs => [obs.source]) .empty observations

/-- `analyzeRepeaterTraffic(..).shouldSplit`. -/
def shouldSplit (now : Int) (observations : List TrafficObservation) : Bool :=
  let groups := (byNextHop (recentObservations now observations)).entries
  if groups.length ≤ 1 then false
  -- a source before two next hops makes the repeater a hub
  else if groups.any fun (_, sources) =>
      sources.any fun source => 1 < (groups.filter fun (_, others) => source ∈ others).length then
    false
  else groups.all fun (_, sources) => minObservationsToSplit ≤ sources.length

/-- `recordTrafficObservation`. -/
def recordTrafficObservation (now : Int)
    (trafficData : OrderedMap Text (List TrafficObservation)) (hopKey source : Text)
    (nextHop : Option Text) : OrderedMap Text (List TrafficObservation) :=
  match normalizeHopToken (some hopKey) with
  | none => trafficData
  | some hopKey =>
      let seen := (trafficData.get? hopKey).getD []
      let recent := recentObservations now (seen ++ [⟨source, normalizeHopToken nextHop, now⟩])
      trafficData.set hopKey (recent.drop (recent.length - maxTrafficObservations))

/-! ### Resolving nodes -/

/-- `getNodeType`. -/
def getNodeType (contact : Option Contact) : NodeType :=
  match contact with
  | some contact => if contact.type = contactTypeRepeater then .repeater else .client
  | none => .client

/-- `addOrUpdateNode`. -/
def addOrUpdateNode (state : PacketNetworkState) (node : PacketNetworkNode) :
    PacketNetworkState :=
  { state with
    nodes := state.nodes.upsert node.id
      (fun existing =>
        { existing with lastActivity := max existing.lastActivity node.lastActivity }) node }

/-- `trafficContext`. -/
structure TrafficContext where
  packetSource : Option Text
  nextPrefix : Option Text

/-- Where the id of a node is taken from. -/
inductive NodeSource where
  | pubkey (value : Text)
  | name (value : Text)
  | hashPrefix (value : Text)

/-- A contact that is named without doubt: our own node, or the contact's. -/
def resolveContact (state : PacketNetworkState) (context : PacketNetworkContext)
    (contact : Contact) (activityAtMs : Int) : PacketNetworkState × Option Text :=
  let nodeId := prefix12 contact.public_key
  if context.myPrefix = some nodeId then (state, some selfId)
  else
    (addOrUpdateNode state ⟨nodeId, getNodeType (some contact), false, activityAtMs⟩, some nodeId)

/-- The id of an ambiguous node, split by the next hop when the traffic tells them apart. -/
def ambiguousNodeId (now : Int) (state : PacketNetworkState) (context : PacketNetworkContext)
    (isRepeater : Bool) (lookupValue : Text) (trafficContext : Option TrafficContext) :
    PacketNetworkState × Text :=
  let nodeId := buildAmbiguousRepeaterNodeId lookupValue none
  match trafficContext with
  | none => (state, nodeId)
  | some traffic =>
      if context.splitAmbiguousByTraffic && isRepeater then
        let normalizedNext := traffic.nextPrefix.map lower
        let patterns := match orNull traffic.packetSource with
          | some packetSource =>
              recordTrafficObservation now state.trafficPatterns lookupValue packetSource
                normalizedNext
          | none => state.trafficPatterns
        let split := match patterns.get? lookupValue with
          | some data => shouldSplit now data && (orNull normalizedNext).isSome
          | none => false
        ({ state with trafficPatterns := patterns },
          if split then buildAmbiguousRepeaterNodeId lookupValue normalizedNext else nodeId)
      else (state, nodeId)

/-- The contacts of the kind that is looked for. -/
def ofKind (isRepeater : Bool) (matching : List Contact) : List Contact :=
  matching.filter fun candidate => decide (candidate.type = contactTypeRepeater) = isRepeater

/-- `resolveNode`. -/
def resolveNode (now : Int) (state : PacketNetworkState) (context : PacketNetworkContext)
    (source : NodeSource) (isRepeater showAmbiguous : Bool) (activityAtMs : Int)
    (trafficContext : Option TrafficContext) : PacketNetworkState × Option Text :=
  match source with
  | .pubkey value =>
      if value.length < 12 then (state, none)
      else
        let nodeId := prefix12 value
        if context.myPrefix = some nodeId then (state, some selfId)
        else
          let contact := byPrefix12 context.contacts nodeId
          (addOrUpdateNode state ⟨nodeId, getNodeType contact, false, activityAtMs⟩, some nodeId)
  | .name value =>
      match byName context.contacts value with
      | some contact => resolveContact state context contact activityAtMs
      | none =>
          let nodeId := ['n', 'a', 'm', 'e', ':'] ++ value
          (addOrUpdateNode state ⟨nodeId, .client, false, activityAtMs⟩, some nodeId)
  | .hashPrefix value =>
      let lookupValue := lower value
      match byPrefix context.contacts lookupValue with
      | [contact] => resolveContact state context contact activityAtMs
      | matching =>
          if showAmbiguous = false then (state, none)
          else
            match ofKind isRepeater matching with
            | [only] =>
                -- our own prefix is not looked for here
                let nodeId := prefix12 only.public_key
                (addOrUpdateNode state ⟨nodeId, getNodeType (some only), false, activityAtMs⟩,
                  some nodeId)
            | filtered =>
                if filtered.isEmpty && !isRepeater then (state, none)
                else
                  let (state, nodeId) :=
                    ambiguousNodeId now state context isRepeater lookupValue trafficContext
                  (addOrUpdateNode state
                    ⟨nodeId, if isRepeater then .repeater else .client, true, activityAtMs⟩,
                    some nodeId)

/-! ### Paths -/

/-- The items that follow one, without those equal to their predecessor. -/
def dedupeAfter (previous : Text) : List Text → List Text
  | [] => []
  | item :: rest =>
      if item = previous then dedupeAfter item rest else item :: dedupeAfter item rest

/-- `dedupeConsecutive`. -/
def dedupeConsecutive : List Text → List Text
  | [] => []
  | item :: rest => item :: dedupeAfter item rest

/-- `RawPacket`. -/
structure RawPacket where
  data : Text
  timestamp : Option Int
  sender : Option Text

/-- What the loop over `pathBytes` adds to the path. -/
def resolveHops (now : Int) (context : PacketNetworkContext) (packetSource : Option Text)
    (activityAtMs : Int) : PacketNetworkState → List Text → PacketNetworkState × List Text
  | state, [] => (state, [])
  | state, hop :: rest =>
      let (state, nodeId) := resolveNode now state context (.hashPrefix hop) true true activityAtMs
        (some ⟨packetSource, orNull rest.head?⟩)
      let (state, ids) := resolveHops now context packetSource activityAtMs state rest
      (state, (orNull nodeId).toList ++ ids)

/-- The text is our own prefix. -/
def isMyPrefix (context : PacketNetworkContext) (hash : Option Text) : Bool :=
  match context.myPrefix with
  | some myPrefix => hash.map lower = some myPrefix
  | none => false

/-- The node that the packet came from. -/
def resolveSource (now : Int) (state : PacketNetworkState) (context : PacketNetworkContext)
    (parsed : ParsedPacket) (packet : RawPacket) (activityAtMs : Int) :
    PacketNetworkState × Option Text :=
  let resolve (source : NodeSource) (showAmbiguous : Bool) :=
    resolveNode now state context source false showAmbiguous activityAtMs none
  match parsed.payloadType, parsed.advertPubkey, parsed.anonRequestPubkey, parsed.srcHash with
  | .advert, some advertPubkey, _, _ => resolve (.pubkey advertPubkey) false
  | .anonRequest, _, some anonRequestPubkey, _ => resolve (.pubkey anonRequestPubkey) false
  | .textMessage, _, _, some srcHash =>
      if isMyPrefix context (some srcHash) then (state, some selfId)
      else resolve (.hashPrefix srcHash) true
  | .groupText, _, _, _ =>
      match parsed.groupTextSender.or (orNull packet.sender) with
      | some senderName => resolve (.name senderName) false
      | none => (state, none)
  | _, _, _, _ => (state, none)

/-- The end of the path: our own node, except after a direct message of ours. -/
def recipient (context : PacketNetworkContext) (parsed : ParsedPacket) (path : List Text) :
    List Text :=
  let isDm := parsed.payloadType = .textMessage
  let isOutgoingDm := isDm && isMyPrefix context parsed.srcHash
  if isDm && parsed.dstHash.isSome then
    if isMyPrefix context parsed.dstHash then [selfId]
    else if !isOutgoingDm && !path.isEmpty then [selfId] else []
  else if !path.isEmpty then [selfId] else []

/-- `buildCanonicalPathForPacket`. -/
def buildCanonicalPathForPacket (now : Int) (state : PacketNetworkState)
    (context : PacketNetworkContext) (parsed : ParsedPacket) (packet : RawPacket)
    (activityAtMs : Int) : PacketNetworkState × List Text :=
  let (state, source) := resolveSource now state context parsed packet activityAtMs
  let packetSource := orNull source
  let (state, hops) := resolveHops now context packetSource activityAtMs state parsed.pathBytes
  let path := packetSource.toList ++ hops
  (state, dedupeConsecutive (path ++ recipient context parsed path))

end PacketNetwork

end RemoteTerm
