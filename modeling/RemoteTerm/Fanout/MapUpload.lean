import RemoteTerm.Decoder.Advert
import RemoteTerm.Decoder.Region
import RemoteTerm.Library.Machine
import RemoteTerm.Library.OrderedMap

/-!
# Map uploads

`MapUploadModule`: one handler per heard packet, which checks the advert against
the last upload of its key, posts it and remembers it. A handler suspends only
while its post is answered, so it is two uninterrupted stretches of code.

## Implementation notes

Great-circle distances are computed in floating point; the function is a
parameter. The body of the request is read by nothing modelled here, so a post
keeps its address, its link and what the handler does when it is answered.
-/

namespace RemoteTerm

open Library

/-- `_DEFAULT_API_URL`. -/
def defaultApiUrl : Text := "https://map.meshcore.io/api/v1/uploader/node".toList

/-- `_REUPLOAD_SECONDS`. -/
def reuploadSeconds : Nat := 3600

/-- `_ALLOWED_DEVICE_ROLES`. -/
def allowedDeviceRoles : List Nat := [2, 3]

/-- The fields of a raw packet event that are read; an absent field is empty. -/
structure RawEvent where
  payloadType : Text
  data : Text

/-- The config of a map-upload integration. -/
structure MapUploadConfig where
  apiUrl : Text := []
  dryRun : Bool := true
  geofenceEnabled : Bool := false
  geofenceRadiusKm : Rat := 0

/-- What a handler reads of the radio: its position, zero when unknown, and its keys. -/
structure RadioView where
  position : Rat × Rat := (0, 0)
  privateKey : Option Bytes
  publicKey : Option Bytes

/-- A post that is not answered yet: `lastSeen` is what its handler compared with. -/
structure MapPost where
  url : Text
  link : Text
  pubkey : Text
  advertTimestamp : Nat
  lastSeen : Option Nat
  deriving DecidableEq

/-- What a post is answered with; an exception other than a request error is a cancellation
or an error of the program. -/
inductive PostOutcome where
  | response (status : Nat)
  | requestError
  | raised

/-- `raise_for_status` passes. -/
def PostOutcome.succeeded : PostOutcome → Bool
  | .response status => 200 ≤ status ∧ status < 300
  | _ => false

/-- A started module, its posts under way, and the history of its successful uploads. -/
structure MapUpload where
  config : MapUploadConfig
  hasClient : Bool
  seen : OrderedMap Text Nat
  posts : List MapPost := []
  uploads : List (Text × Nat) := []

/-- What happens to a module: a packet is heard, or a post is answered. -/
inductive MapEvent where
  | heard (radio : RadioView) (data : RawEvent)
  | answered (i : Nat) (outcome : PostOutcome)

namespace MapUpload

/-- `start`. -/
def start (config : MapUploadConfig) (hasClient : Bool) : MapUpload :=
  ⟨config, hasClient, .empty, [], []⟩

/-- The advert of a packet, and its location, unless the packet is of no interest. -/
def admittedAdvert (data : RawEvent) : Option (ParsedAdvertisement × Int × Int) := do
  guard (data.payloadType = "ADVERT".toList ∧ data.data ≠ [])
  let rawBytes ← bytesOfHex data.data
  let packetInfo ← parsePacket rawBytes
  let advert ← parseAdvertisement packetInfo.payload
  guard (advert.deviceRole ∈ allowedDeviceRoles)
  let location ← advert.location
  return (advert, location)

/-- The rate limit: a later advert, and not within the window of the last one. -/
def RateAllows (lastSeen : Option Nat) (timestamp : Nat) : Prop :=
  ∀ last ∈ lastSeen, ¬ last ≥ timestamp ∧ ¬ timestamp < last + reuploadSeconds

instance (lastSeen : Option Nat) (timestamp : Nat) : Decidable (RateAllows lastSeen timestamp) := by
  unfold RateAllows
  infer_instance

section Handlers

variable (haversineKm : Rat × Rat → Int × Int → Rat)

/-- The geofence is enabled, its centre is known, and the node is outside. -/
def outsideGeofence (config : MapUploadConfig) (radio : RadioView) (location : Int × Int) : Bool :=
  config.geofenceEnabled ∧ ¬ radio.position = (0, 0) ∧
    haversineKm radio.position location > config.geofenceRadiusKm

/-- `_upload` up to its post; a dry run remembers the advert at once. -/
def upload (s : MapUpload) (radio : RadioView) (pubkey : Text) (advertTimestamp : Nat)
    (lastSeen : Option Nat) (rawHex : Text) (location : Int × Int) : MapUpload :=
  if outsideGeofence haversineKm s.config radio location then s
  else if radio.privateKey.isNone ∨ radio.publicKey.isNone then s
  else if s.config.dryRun then { s with seen := s.seen.set pubkey advertTimestamp }
  else if ¬ s.hasClient then s
  else
    let apiUrl := strip (if s.config.apiUrl = [] then defaultApiUrl else s.config.apiUrl)
    { s with
      posts := s.posts ++
        [⟨apiUrl, "meshcore://".toList ++ rawHex, pubkey, advertTimestamp, lastSeen⟩] }

/-- `on_raw` up to its post. -/
def onRaw (s : MapUpload) (radio : RadioView) (data : RawEvent) : MapUpload :=
  match admittedAdvert data with
  | none => s
  | some (advert, location) =>
      let pubkey := lower advert.publicKey
      let lastSeen := s.seen.get? pubkey
      if RateAllows lastSeen advert.timestamp then
        s.upload haversineKm radio pubkey advert.timestamp lastSeen data.data location
      else s

/-- `_upload` from the answer to its post: only a success is remembered. -/
def afterPost (s : MapUpload) (i : Nat) (outcome : PostOutcome) : MapUpload :=
  match s.posts[i]? with
  | none => s
  | some post =>
      let rest := { s with posts := s.posts.eraseIdx i }
      if outcome.succeeded then
        { rest with
          seen := s.seen.set post.pubkey post.advertTimestamp
          uploads := s.uploads ++ [(post.pubkey, post.advertTimestamp)] }
      else rest

/-- The module after an event. -/
def apply (s : MapUpload) : MapEvent → MapUpload
  | .heard radio data => s.onRaw haversineKm radio data
  | .answered i outcome => s.afterPost i outcome

end Handlers

/-- A post succeeds only while its key is remembered as its handler found it. -/
def Unraced (s : MapUpload) : MapEvent → Prop
  | .heard _ _ => True
  | .answered i outcome =>
      outcome.succeeded = true → ∀ post ∈ s.posts[i]?, s.seen.get? post.pubkey = post.lastSeen

instance (s : MapUpload) (e : MapEvent) : Decidable (s.Unraced e) := by
  unfold Unraced
  cases e <;> infer_instance

section RateLimit

/-- The second upload of a key is a later advert, by at least the window. -/
def Apart (a b : Text × Nat) : Prop :=
  a.1 = b.1 → a.2 < b.2 ∧ a.2 + reuploadSeconds ≤ b.2

/-- No key is forgotten or remembered with an earlier timestamp. -/
def Remembers (s t : MapUpload) : Prop :=
  ∀ k last, s.seen.get? k = some last → ∃ last', t.seen.get? k = some last' ∧ last ≤ last'

theorem Remembers.trans {s t u : MapUpload} (hst : Remembers s t) (htu : Remembers t u) :
    Remembers s u := by
  intro k last hlast
  obtain ⟨mid, hmid, hle⟩ := hst k last hlast
  obtain ⟨last', hlast', hle'⟩ := htu k mid hmid
  exact ⟨last', hlast', hle.trans hle'⟩

/-- Posts were admitted by the rate limit, uploads are apart, and the last one is remembered. -/
structure Limited (s : MapUpload) : Prop where
  posts : ∀ post ∈ s.posts, RateAllows post.lastSeen post.advertTimestamp
  uploads : s.uploads.Pairwise Apart
  remembered : ∀ u ∈ s.uploads, ∃ last, s.seen.get? u.1 = some last ∧ u.2 ≤ last

theorem limited_start (config : MapUploadConfig) (hasClient : Bool) :
    (start config hasClient).Limited :=
  ⟨fun _ h => (nomatch h), .nil, fun _ h => (nomatch h)⟩

variable {haversineKm : Rat × Rat → Int × Int → Rat} {s : MapUpload}

/-- Remembering an advert that the rate limit allows forgets nothing. -/
theorem remembers_set {t : MapUpload} {pubkey : Text} {advertTimestamp : Nat}
    (hallows : RateAllows (s.seen.get? pubkey) advertTimestamp)
    (hseen : t.seen = s.seen.set pubkey advertTimestamp) : Remembers s t := by
  intro k last hlast
  rw [hseen]
  by_cases hk : k = pubkey
  · subst hk
    refine ⟨advertTimestamp, OrderedMap.get?_set_self _ _ _, ?_⟩
    obtain ⟨hlt, -⟩ := hallows last hlast
    omega
  · exact ⟨last, by rwa [OrderedMap.get?_set_of_ne _ _ hk], le_rfl⟩

theorem Remembers.of_seen {t : MapUpload} (hseen : t.seen = s.seen) : Remembers s t :=
  fun _ last hlast => ⟨last, hseen ▸ hlast, le_rfl⟩

/-- The uploads stay remembered. -/
theorem Limited.remembered_of (h : s.Limited) {t : MapUpload} (hremembers : Remembers s t) :
    ∀ u ∈ s.uploads, ∃ last, t.seen.get? u.1 = some last ∧ u.2 ≤ last := by
  intro u hu
  obtain ⟨last, hlast, hle⟩ := h.remembered u hu
  obtain ⟨last', hlast', hle'⟩ := hremembers u.1 last hlast
  exact ⟨last', hlast', hle.trans hle'⟩

/-- A handler that is admitted posts, or in a dry run remembers the advert. -/
theorem upload_cases (haversineKm : Rat × Rat → Int × Int → Rat) (s : MapUpload)
    (radio : RadioView) (pubkey : Text) (advertTimestamp : Nat) (lastSeen : Option Nat)
    (rawHex : Text) (location : Int × Int) :
    s.upload haversineKm radio pubkey advertTimestamp lastSeen rawHex location = s ∨
      s.upload haversineKm radio pubkey advertTimestamp lastSeen rawHex location =
        { s with seen := s.seen.set pubkey advertTimestamp } ∨
      ∃ url link, s.upload haversineKm radio pubkey advertTimestamp lastSeen rawHex location =
        { s with posts := s.posts ++ [⟨url, link, pubkey, advertTimestamp, lastSeen⟩] } := by
  unfold upload
  split
  · exact .inl rfl
  split
  · exact .inl rfl
  split
  · exact .inr (.inl rfl)
  split
  · exact .inl rfl
  · exact .inr (.inr ⟨_, _, rfl⟩)

theorem Limited.onRaw (h : s.Limited) (radio : RadioView) (data : RawEvent) :
    (s.onRaw haversineKm radio data).Limited ∧
      Remembers s (s.onRaw haversineKm radio data) := by
  unfold MapUpload.onRaw
  cases admittedAdvert data with
  | none => exact ⟨h, .of_seen rfl⟩
  | some found =>
      obtain ⟨advert, location⟩ := found
      dsimp only
      split
      next hallows =>
        rcases s.upload_cases haversineKm radio (lower advert.publicKey)
          advert.timestamp (s.seen.get? (lower advert.publicKey)) data.data location with
          hsame | hdry | ⟨url, link, hpost⟩
        · rw [hsame]
          exact ⟨h, .of_seen rfl⟩
        · rw [hdry]
          have hremembers := remembers_set hallows (t := { s with
            seen := s.seen.set (lower advert.publicKey) advert.timestamp }) rfl
          exact ⟨⟨h.posts, h.uploads, h.remembered_of hremembers⟩, hremembers⟩
        · rw [hpost]
          refine ⟨⟨?_, h.uploads, h.remembered⟩, .of_seen rfl⟩
          intro post hmem
          rcases List.mem_append.mp hmem with hold | hnew
          · exact h.posts post hold
          · obtain rfl := List.mem_singleton.mp hnew
            exact hallows
      next => exact ⟨h, .of_seen rfl⟩

theorem Limited.afterPost (h : s.Limited) {i : Nat} {outcome : PostOutcome}
    (hunraced : s.Unraced (.answered i outcome)) :
    (s.afterPost i outcome).Limited ∧ Remembers s (s.afterPost i outcome) := by
  unfold MapUpload.afterPost
  cases hpost : s.posts[i]? with
  | none => exact ⟨h, .of_seen rfl⟩
  | some post =>
      have hmem : post ∈ s.posts := List.mem_of_getElem? hpost
      have hrest : ∀ q ∈ s.posts.eraseIdx i, RateAllows q.lastSeen q.advertTimestamp :=
        fun q hq => h.posts q (List.mem_of_mem_eraseIdx hq)
      dsimp only
      split
      next hsucceeded =>
        have hallows : RateAllows (s.seen.get? post.pubkey) post.advertTimestamp := by
          rw [hunraced hsucceeded post hpost]
          exact h.posts post hmem
        have hremembers := remembers_set (t := { s with
          posts := s.posts.eraseIdx i
          seen := s.seen.set post.pubkey post.advertTimestamp
          uploads := s.uploads ++ [(post.pubkey, post.advertTimestamp)] }) hallows rfl
        refine ⟨⟨hrest, ?_, ?_⟩, hremembers⟩
        · rw [List.pairwise_append]
          refine ⟨h.uploads, List.pairwise_singleton _ _, ?_⟩
          rintro u hu _ hv hkey
          obtain rfl := List.mem_singleton.mp hv
          obtain ⟨last, hlast, hle⟩ := h.remembered u hu
          rw [hkey] at hlast
          obtain ⟨hlater, hwindow⟩ := hallows last hlast
          dsimp only
          omega
        · intro u hu
          rcases List.mem_append.mp hu with hold | hnew
          · exact h.remembered_of hremembers u hold
          · obtain rfl := List.mem_singleton.mp hnew
            exact ⟨_, OrderedMap.get?_set_self _ _ _, le_rfl⟩
      next => exact ⟨⟨hrest, h.uploads, h.remembered⟩, .of_seen rfl⟩

theorem Limited.apply (h : s.Limited) (e : MapEvent) (hunraced : s.Unraced e) :
    (s.apply haversineKm e).Limited ∧ Remembers s (s.apply haversineKm e) := by
  cases e with
  | heard radio data => exact h.onRaw radio data
  | answered i outcome => exact h.afterPost hunraced

/-- In a run in which no upload of a key is recorded while another post of the key that later
succeeds is under way, uploads of one key are later adverts, a window apart, and what is
remembered of a key never goes back. -/
theorem uploads_rate_limited {config : MapUploadConfig} {hasClient : Bool} {s t : MapUpload}
    (hs : Machine (apply haversineKm) Unraced (start config hasClient) s)
    (ht : Machine (apply haversineKm) Unraced s t) :
    t.uploads.Pairwise Apart ∧ Remembers s t := by
  have hlimited : s.Limited :=
    hs.invariant (fun _ e hok h => (h.apply e hok).1) (limited_start config hasClient)
  exact ⟨(ht.invariant (fun _ e hok h => (h.apply e hok).1) hlimited).uploads,
    ht.related (R := Remembers) (fun _ => .of_seen rfl) Remembers.trans
      (fun _ e hok h => h.apply e hok) hlimited⟩

end RateLimit

section Sample

/-- An advert of a repeater with a location, as its packet is heard. -/
def advertHeard (timestamp : UInt8) : RawEvent where
  payloadType := "ADVERT".toList
  data := hexOfBytes ([0x11, 0] ++ List.replicate 32 1 ++ [0, timestamp, 0, 0] ++
    List.replicate 64 0 ++ [0x12] ++ List.replicate 8 0)

/-- The key of the adverts. -/
def advertKey : Text := hexOfBytes (List.replicate 32 1)

/-- No distance. -/
def flat : Rat × Rat → Int × Int → Rat := fun _ _ => 0

/-- A connected radio that exported its keys. -/
def keyedRadio : RadioView := { privateKey := some [], publicKey := some [] }

/-- A module that uploads for real. -/
def live : MapUpload := start { dryRun := false } true

/-- Two adverts of one key that are heard before either is answered, the later one first. -/
def overlapping : MapUpload :=
  let s := (live.apply flat (.heard keyedRadio (advertHeard 2))).apply flat
    (.heard keyedRadio (advertHeard 1))
  s.apply flat (.answered 0 (.response 200))

/-- The earlier of two overlapping adverts is uploaded after the later one, and takes its
place. -/
theorem overlapping_uploads :
    Machine (apply flat) (fun _ _ => True) live overlapping ∧
      ¬ (overlapping.apply flat (.answered 0 (.response 200))).uploads.Pairwise Apart ∧
      ¬ Remembers overlapping (overlapping.apply flat (.answered 0 (.response 200))) := by
  have hposted : Machine (apply flat) (fun _ _ => True) live
      ((live.apply flat (.heard keyedRadio (advertHeard 2))).apply flat
        (.heard keyedRadio (advertHeard 1))) :=
    .tail (.single _ trivial) _ trivial
  refine ⟨hposted.tail (.answered 0 (.response 200)) trivial, ?_, fun hremembers => ?_⟩
  · have huploads : (overlapping.apply flat (.answered 0 (.response 200))).uploads =
        [(advertKey, 512), (advertKey, 256)] := by decide +kernel
    rw [huploads]
    intro hapart
    have hlater := (List.pairwise_cons.mp hapart).1 _ (List.mem_singleton.mpr rfl) rfl
    exact absurd hlater (by decide)
  · have hbefore : overlapping.seen.get? advertKey = some 512 := by decide +kernel
    have hafter : (overlapping.apply flat (.answered 0 (.response 200))).seen.get? advertKey =
        some 256 := by decide +kernel
    obtain ⟨last', hlast', hle⟩ := hremembers advertKey 512 hbefore
    rw [hafter] at hlast'
    obtain rfl := Option.some.inj hlast'
    exact absurd hle (by decide)

/-- Uploaded one after the other, adverts of one key are apart. -/
theorem uploads_rate_limited_inTurn :
    let first := (live.apply flat (.heard keyedRadio (advertHeard 1))).apply flat
      (.answered 0 (.response 200))
    let second := (first.apply flat (.heard keyedRadio (advertHeard 200))).apply flat
      (.answered 0 (.response 200))
    second.uploads.Pairwise Apart ∧ Remembers first second := by
  intro first second
  have hfirst : Machine (apply flat) Unraced live first :=
    .tail (.single _ trivial) _ (by decide +kernel)
  have hsecond : Machine (apply flat) Unraced first second :=
    .tail (.single _ trivial) _ (by decide +kernel)
  exact @uploads_rate_limited flat { dryRun := false } true first second hfirst hsecond

end Sample

end MapUpload

end RemoteTerm
