import RemoteTerm.Frontend.PacketNetwork
import RemoteTerm.Library.PercentEncoding

/-!
# Links to conversations

The hash of the address names a conversation by its key, with a label for the
reader. A link is read back as its channel or contact whatever the names are. A
hash that is typed by hand may hold a broken escape, and then reading it throws.

## Implementation notes

The browser keeps the characters of a written hash, all of which may stand in a
fragment. An outer `none` stands for a thrown `URIError`. Keys are hexadecimal.
-/

namespace RemoteTerm

open Library

namespace UrlHash

/-- The types of conversations and of parsed hashes. -/
inductive ConversationType where
  | channel
  | contact
  | raw
  | map
  | visualizer
  | search
  | mentions
  | trace
deriving DecidableEq

/-- The fields of a channel that are read. -/
structure Channel where
  key : Text
  name : Text

/-- The fields of a contact that are read. -/
structure Contact where
  public_key : Text
  name : Option Text
  last_advert : Option Nat

/-- `Conversation`. -/
structure Conversation where
  type : ConversationType
  id : Text
  name : Text

/-- `ParsedHashConversation`. -/
structure ParsedHashConversation where
  type : ConversationType
  name : Text
  label : Option Text := none
  mapFocusKey : Option Text := none
deriving DecidableEq

/-- The parts of a text around its first slash. -/
def splitAtSlash (s : Text) : Option (Text × Text) :=
  if '/' ∈ s then some (s.takeWhile (· ≠ '/'), (s.dropWhile (· ≠ '/')).drop 1) else none

/-- The end of `parseHashConversation`: a token, maybe with a label. -/
def parseToken (type : ConversationType) (value : Text) :
    Option (Option ParsedHashConversation) := do
  let (tokenRaw, labelRaw) := (splitAtSlash value).getD (value, [])
  let token ← decodeURIComponent tokenRaw
  if token = [] then return none
  else if labelRaw = [] then return some { type, name := token }
  else do
    let label ← decodeURIComponent labelRaw
    return some { type, name := token, label := some label }

/-- `parseHashConversation` on a hash that is no plain view. -/
def parsePath (hash : Text) : Option (Option ParsedHashConversation) :=
  if "map/focus/".toList.isPrefixOf hash then
    let focusKey := hash.drop "map/focus/".toList.length
    if focusKey ≠ [] then do
      let mapFocusKey ← decodeURIComponent focusKey
      return some { type := .map, name := "map".toList, mapFocusKey := some mapFocusKey }
    else some (some { type := .map, name := "map".toList })
  else
    match splitAtSlash hash with
    | none => some none
    | some (type, value) =>
        if value = [] then some none
        else if type = "channel".toList then parseToken .channel value
        else if type = "contact".toList then parseToken .contact value
        else some none

/-- `parseHashConversation`. -/
def parseHashConversation (locationHash : Text) : Option (Option ParsedHashConversation) :=
  let hash := locationHash.drop 1
  if hash = [] then some none
  else if hash = "raw".toList then some (some { type := .raw, name := "raw".toList })
  else if hash = "map".toList then some (some { type := .map, name := "map".toList })
  else if hash = "visualizer".toList then
    some (some { type := .visualizer, name := "visualizer".toList })
  else if hash = "search".toList then some (some { type := .search, name := "search".toList })
  else if hash = "mentions".toList then
    some (some { type := .mentions, name := "mentions".toList })
  else if hash = "trace".toList then some (some { type := .trace, name := "trace".toList })
  else parsePath hash

/-- `SETTINGS_SECTIONS`. -/
def settingsSections : List Text :=
  ["radio".toList, "local".toList, "radio-app".toList, "fanout".toList, "database".toList,
    "statistics".toList, "about".toList]

/-- `parseHashSettingsSection`. -/
def parseHashSettingsSection (locationHash : Text) : Option (Option Text) :=
  let hash := locationHash.drop 1
  if "settings/".toList.isPrefixOf hash then do
    let settingsSection ← decodeURIComponent (hash.drop "settings/".toList.length)
    return if settingsSection ∈ settingsSections then some settingsSection else none
  else some none

/-- `PUBLIC_CHANNEL_KEY`. -/
def publicChannelKey : Text := "8B3387E9C5CDEA6AC9E5EDBAA115CD72".toList

/-- `findPublicChannel`. -/
def findPublicChannel (channels : List Channel) : Option Channel :=
  channels.find? fun c => upper c.key = publicChannelKey

/-- `resolveChannelFromHashToken`. -/
def resolveChannelFromHashToken (token : Text) (channels : List Channel) : Option Channel :=
  let normalizedToken := PacketNetwork.trim token
  if normalizedToken = [] then none
  else
    match channels.find? fun c => lower c.key = lower normalizedToken with
    | some byKey => some byKey
    | none =>
        let legacy := channels.find? fun c =>
          c.name = normalizedToken ∨ c.name = '#' :: normalizedToken
        if lower normalizedToken = lower "Public".toList then
          (findPublicChannel channels).or legacy
        else legacy

/-- `getContactDisplayName`. -/
def getContactDisplayName (name : Option Text) (pubkey : Text) (lastAdvert : Option Nat) : Text :=
  match PacketNetwork.orNull name with
  | some name => name
  | none =>
      if pubkey.length = 64 ∧ lastAdvert.getD 0 = 0 then "[unknown sender]".toList
      else pubkey.take 12

/-- `resolveContactFromHashToken`. -/
def resolveContactFromHashToken (token : Text) (contacts : List Contact) : Option Contact :=
  let normalizedToken := PacketNetwork.trim token
  if normalizedToken = [] then none
  else
    let lowerToken := lower normalizedToken
    match contacts.find? fun c => lower c.public_key = lowerToken with
    | some byKey => some byKey
    | none =>
        contacts.find? fun c =>
          decide (getContactDisplayName c.name c.public_key c.last_advert = normalizedToken) ||
            lowerToken.isPrefixOf (lower c.public_key)

/-- `getConversationHash`. -/
def getConversationHash (conv : Option Conversation) : Text :=
  match conv with
  | none => []
  | some conv =>
      match conv.type with
      | .raw => "#raw".toList
      | .map => "#map".toList
      | .visualizer => "#visualizer".toList
      | .search => "#search".toList
      | .mentions => "#mentions".toList
      | .trace => "#trace".toList
      | .channel =>
          let label := if conv.name.head? = some '#' then conv.name.drop 1 else conv.name
          "#channel/".toList ++ encodeURIComponent conv.id ++ '/' :: encodeURIComponent label
      | .contact =>
          "#contact/".toList ++ encodeURIComponent conv.id ++ '/' :: encodeURIComponent conv.name

/-- A key: hexadecimal digits. -/
structure IsKey (key : Text) : Prop where
  nonempty : key ≠ []
  digits : ∀ c ∈ key, (hexValue c).isSome

/-- The parts of a hash that are decoded are characters and escaped characters side by side. -/
structure HashEscaped (hash : Text) : Prop where
  focus : ∀ focusKey, hash = "map/focus/".toList ++ focusKey → WellEscaped focusKey
  settings : ∀ name, hash = "settings/".toList ++ name → WellEscaped name
  token : ∀ type ∈ ["channel".toList, "contact".toList], ∀ value, hash = type ++ '/' :: value →
    WellEscaped (value.takeWhile (· ≠ '/'))
  label : ∀ type ∈ ["channel".toList, "contact".toList], ∀ value, hash = type ++ '/' :: value →
    value.takeWhile (· ≠ '/') ≠ [] → WellEscaped ((value.dropWhile (· ≠ '/')).drop 1)

section Slash

variable {s t : Text}

theorem splitAtSlash_append (hs : '/' ∉ s) : splitAtSlash (s ++ '/' :: t) = some (s, t) := by
  have hkeep : ∀ c ∈ s, decide (c ≠ '/') = true := by
    intro c hc
    rw [decide_eq_true_eq]
    rintro rfl
    exact hs hc
  unfold splitAtSlash
  rw [if_pos (by simp), List.takeWhile_append_of_pos hkeep, List.dropWhile_append_of_pos hkeep]
  simp

theorem splitAtSlash_eq_some_iff {type value : Text} :
    splitAtSlash s = some (type, value) ↔ '/' ∉ type ∧ s = type ++ '/' :: value := by
  constructor
  · intro h
    unfold splitAtSlash at h
    split at h
    next hslash =>
      cases h
      refine ⟨fun hmem => ?_, ?_⟩
      · simpa using List.mem_takeWhile_imp hmem
      · have hdrop : s.dropWhile (· ≠ '/') = '/' :: (s.dropWhile (· ≠ '/')).drop 1 := by
          cases hrest : s.dropWhile (· ≠ '/') with
          | nil =>
              rw [List.dropWhile_eq_nil_iff] at hrest
              simpa using hrest '/' hslash
          | cons c rest =>
              have hhead := List.head?_dropWhile_not (fun c : Char => decide (c ≠ '/')) s
              rw [hrest] at hhead
              rw [show c = '/' by simpa using hhead]
              rfl
        rw [← hdrop, List.takeWhile_append_dropWhile]
    next => cases h
  · rintro ⟨hslash, rfl⟩
    exact splitAtSlash_append hslash

theorem slash_notMem_encodeURIComponent (s : Text) : '/' ∉ encodeURIComponent s := by
  intro h
  obtain ⟨c, -, hc⟩ := List.mem_flatMap.mp h
  split at hc
  next hkeep =>
    rw [List.mem_singleton] at hc
    subst hc
    revert hkeep
    decide
  next =>
    obtain ⟨b, -, hb⟩ := List.mem_flatMap.mp hc
    have hall : ∀ n < 16, upperChar (hexDigit n) ≠ '/' := by decide
    have hlt := b.toNat_lt
    simp only [percentOctet, hexOfByte, upper, List.map_cons, List.map_nil, List.mem_cons,
      List.not_mem_nil, or_false] at hb
    rcases hb with hb | hb | hb
    · cases hb
    · exact hall _ (by omega) hb.symm
    · exact hall _ (by omega) hb.symm

end Slash

section RoundTrip

/-- A key with a label is read back as the key. -/
theorem parseToken_encoded (type : ConversationType) {key : Text} (hkey : key ≠ []) (label : Text) :
    ∃ parsed, parseToken type (encodeURIComponent key ++ '/' :: encodeURIComponent label) =
        some (some parsed) ∧ parsed.type = type ∧ parsed.name = key := by
  unfold parseToken
  rw [splitAtSlash_append (slash_notMem_encodeURIComponent key)]
  simp only [Option.getD_some, decodeURIComponent_encodeURIComponent, Option.bind_eq_bind,
    Option.bind_some, if_neg hkey]
  split
  · exact ⟨_, rfl, rfl, rfl⟩
  · exact ⟨_, rfl, rfl, rfl⟩

/-- A written link is a path with a token. -/
theorem parseHashConversation_link {type : Text} {kind : ConversationType}
    (htype : type = "channel".toList ∧ kind = .channel ∨ type = "contact".toList ∧ kind = .contact)
    {value : Text} (hvalue : value ≠ []) :
    parseHashConversation ('#' :: (type ++ '/' :: value)) = parseToken kind value := by
  have hsplit : splitAtSlash (type ++ '/' :: value) = some (type, value) := by
    refine splitAtSlash_append ?_
    rcases htype with ⟨rfl, -⟩ | ⟨rfl, -⟩ <;> decide
  have hpath : parseHashConversation ('#' :: (type ++ '/' :: value)) =
      parsePath (type ++ '/' :: value) := by
    unfold parseHashConversation
    rcases htype with ⟨rfl, -⟩ | ⟨rfl, -⟩ <;> simp
  have hfocus : "map/focus/".toList.isPrefixOf (type ++ '/' :: value) = false := by
    rcases htype with ⟨rfl, -⟩ | ⟨rfl, -⟩ <;> rfl
  rw [hpath, parsePath, hfocus, hsplit]
  simp only [Bool.false_eq_true, if_false, if_neg hvalue]
  rcases htype with ⟨rfl, rfl⟩ | ⟨rfl, rfl⟩
  · rfl
  · rfl

theorem trim_key {key : Text} (hkey : IsKey key) : PacketNetwork.trim key = key := by
  have hblank : ∀ c ∈ key, PacketNetwork.isBlank c = false := by
    intro c hc
    cases hblank : PacketNetwork.isBlank c with
    | false => rfl
    | true =>
        have hdigit := hkey.digits c hc
        simp only [PacketNetwork.isBlank, decide_eq_true_eq] at hblank
        unfold hexValue at hdigit
        rw [if_neg (by omega), if_neg (by omega), if_neg (by omega)] at hdigit
        cases hdigit
  have hdrop : ∀ s : Text, (∀ c ∈ s, PacketNetwork.isBlank c = false) →
      s.dropWhile PacketNetwork.isBlank = s := by
    intro s hs
    cases s with
    | nil => rfl
    | cons c rest => exact List.dropWhile_cons_of_neg (by simp [hs c List.mem_cons_self])
  unfold PacketNetwork.trim
  rw [hdrop key hblank, hdrop key.reverse fun c hc => hblank c (List.mem_reverse.mp hc),
    List.reverse_reverse]

/-- The first element with a key that no other one has is found. -/
theorem find?_key {α : Type} (key : α → Text) {items : List α}
    (hunique : (items.map fun x => lower (key x)).Nodup) {item : α} (hitem : item ∈ items) :
    (items.find? fun x => lower (key x) = lower (key item)) = some item := by
  cases hfind : items.find? fun x => lower (key x) = lower (key item) with
  | none =>
      rw [List.find?_eq_none] at hfind
      exact absurd (decide_eq_true rfl) (hfind item hitem)
  | some found =>
      have hkey : lower (key found) = lower (key item) := by simpa using List.find?_some hfind
      rw [List.inj_on_of_nodup_map hunique (List.mem_of_find?_eq_some hfind) hitem hkey]

variable {channels : List Channel} {contacts : List Contact}

theorem resolveChannel_key (hunique : (channels.map fun c => lower c.key).Nodup) {c : Channel}
    (hc : c ∈ channels) (hkey : IsKey c.key) :
    resolveChannelFromHashToken c.key channels = some c := by
  unfold resolveChannelFromHashToken
  rw [trim_key hkey]
  simp only [if_neg hkey.nonempty, find?_key Channel.key hunique hc]

theorem resolveContact_key (hunique : (contacts.map fun c => lower c.public_key).Nodup)
    {c : Contact} (hc : c ∈ contacts) (hkey : IsKey c.public_key) :
    resolveContactFromHashToken c.public_key contacts = some c := by
  unfold resolveContactFromHashToken
  rw [trim_key hkey]
  simp only [if_neg hkey.nonempty, find?_key Contact.public_key hunique hc]

/-- A link to a channel or a contact, whatever it is labelled, is read back as its key. -/
theorem parse_link (type : ConversationType) (htype : type = .channel ∨ type = .contact)
    {key : Text} (hkey : key ≠ []) (name : Text) :
    ∃ parsed, parseHashConversation (getConversationHash (some ⟨type, key, name⟩)) =
        some (some parsed) ∧ parsed.type = type ∧ parsed.name = key := by
  have hvalue : ∀ label, encodeURIComponent key ++ '/' :: encodeURIComponent label ≠ [] := by
    simp
  rcases htype with rfl | rfl
  · obtain ⟨parsed, hparsed, hfields⟩ := parseToken_encoded .channel hkey
      (if name.head? = some '#' then name.drop 1 else name)
    refine ⟨parsed, ?_, hfields⟩
    rw [← hparsed, ← parseHashConversation_link (.inl ⟨rfl, rfl⟩) (hvalue _)]
    simp [getConversationHash]
  · obtain ⟨parsed, hparsed, hfields⟩ := parseToken_encoded .contact hkey name
    refine ⟨parsed, ?_, hfields⟩
    rw [← hparsed, ← parseHashConversation_link (.inr ⟨rfl, rfl⟩) (hvalue _)]
    simp [getConversationHash]

end RoundTrip

section Throws

variable {hash value : Text}

/-- Reading a token throws nothing when it is well escaped, and its label too if there is a
token. -/
theorem parseToken_isSome_iff (type : ConversationType) (value : Text) :
    (parseToken type value).isSome ↔ WellEscaped (value.takeWhile (· ≠ '/')) ∧
      (value.takeWhile (· ≠ '/') ≠ [] →
        WellEscaped ((value.dropWhile (· ≠ '/')).drop 1)) := by
  have hparts : (splitAtSlash value).getD (value, []) =
      (value.takeWhile (· ≠ '/'), (value.dropWhile (· ≠ '/')).drop 1) := by
    unfold splitAtSlash
    split
    next => rfl
    next hslash =>
      have hkeep : ∀ c ∈ value, decide (c ≠ '/') = true := by
        intro c hc
        rw [decide_eq_true_eq]
        rintro rfl
        exact hslash hc
      have htake : value.takeWhile (fun c => decide (c ≠ '/')) = value :=
        List.takeWhile_eq_self_iff.mpr hkeep
      have hdrop : value.dropWhile (fun c => decide (c ≠ '/')) = [] :=
        List.dropWhile_eq_nil_iff.mpr hkeep
      rw [htake, hdrop]
      rfl
  unfold parseToken
  rw [hparts]
  dsimp only
  generalize value.takeWhile (· ≠ '/') = tokenRaw
  generalize (value.dropWhile (· ≠ '/')).drop 1 = labelRaw
  rw [← decodeURIComponent_isSome_iff, ← decodeURIComponent_isSome_iff]
  cases htoken : decodeURIComponent tokenRaw with
  | none => simp
  | some token =>
      have hempty : token = [] ↔ tokenRaw = [] := by
        rw [decodeURIComponent_eq_some_iff] at htoken
        cases htoken with
        | nil => simp
        | cons hc h => simp [hc.ne_nil]
      simp only [Option.bind_eq_bind, Option.bind_some, Option.isSome_some, true_and, ne_eq]
      rw [← hempty]
      by_cases ht : token = []
      · simp [ht]
      · by_cases hl : labelRaw = []
        · subst hl
          simp [ht, decodeURIComponent, decodeLoop]
        · cases decodeURIComponent labelRaw <;> simp [ht, hl]

/-- Of a link to the map what follows is decoded. -/
theorem parsePath_focus_isSome_iff (focusKey : Text) :
    (parsePath ("map/focus/".toList ++ focusKey)).isSome ↔ WellEscaped focusKey := by
  unfold parsePath
  rw [if_pos (List.isPrefixOf_iff_prefix.mpr (List.prefix_append _ _)), List.drop_left,
    ← decodeURIComponent_isSome_iff]
  dsimp only
  by_cases hempty : focusKey = []
  · subst hempty
    simp [decodeURIComponent, decodeLoop]
  · cases decodeURIComponent focusKey <;> simp [hempty]

/-- A hash has one type and one value. -/
theorem type_value_unique {type value : Text}
    (hsplit : splitAtSlash (type ++ '/' :: value) = some (type, value)) :
    ∀ type' ∈ ["channel".toList, "contact".toList], ∀ value',
      type ++ '/' :: value = type' ++ '/' :: value' → type = type' ∧ value = value' := by
  intro type' htype' value' heq
  have hslash' : '/' ∉ type' := by
    simp only [List.mem_cons, List.not_mem_nil, or_false] at htype'
    rcases htype' with rfl | rfl <;> decide
  rw [heq, splitAtSlash_append hslash'] at hsplit
  simp only [Option.some.injEq, Prod.mk.injEq] at hsplit
  exact ⟨hsplit.1.symm, hsplit.2.symm⟩

/-- A token is read in the same way for both types. -/
theorem parseToken_types_isSome_iff {type : Text}
    (htype : type ∈ ["channel".toList, "contact".toList]) (value : Text) :
    (if type = "channel".toList then parseToken .channel value
      else if type = "contact".toList then parseToken .contact value
      else some none).isSome ↔ WellEscaped (value.takeWhile (· ≠ '/')) ∧
        (value.takeWhile (· ≠ '/') ≠ [] →
          WellEscaped ((value.dropWhile (· ≠ '/')).drop 1)) := by
  split
  next => exact parseToken_isSome_iff _ _
  next hchannel =>
    split
    next => exact parseToken_isSome_iff _ _
    next hcontact =>
      rcases List.mem_cons.mp htype with h | h
      · exact absurd h hchannel
      · exact absurd (List.mem_singleton.mp h) hcontact

/-- No part is decoded of a hash that starts otherwise. -/
theorem parsePath_isSome_iff (hash : Text) :
    (parsePath hash).isSome ↔
      (∀ focusKey, hash = "map/focus/".toList ++ focusKey → WellEscaped focusKey) ∧
        ∀ type ∈ ["channel".toList, "contact".toList], ∀ value, hash = type ++ '/' :: value →
          WellEscaped (value.takeWhile (· ≠ '/')) ∧ (value.takeWhile (· ≠ '/') ≠ [] →
            WellEscaped ((value.dropWhile (· ≠ '/')).drop 1)) := by
  by_cases hfocus : "map/focus/".toList.isPrefixOf hash
  · obtain ⟨focusKey, rfl⟩ := List.isPrefixOf_iff_prefix.mp hfocus
    have htoken : ∀ type ∈ ["channel".toList, "contact".toList], ∀ value,
        "map/focus/".toList ++ focusKey ≠ type ++ '/' :: value := by
      intro type htype value heq
      simp only [List.mem_cons, List.not_mem_nil, or_false] at htype
      rcases htype with rfl | rfl <;> simp at heq
    have hleft : (∀ key, "map/focus/".toList ++ focusKey = "map/focus/".toList ++ key →
        WellEscaped key) ↔ WellEscaped focusKey := by
      simp
    rw [parsePath_focus_isSome_iff, hleft,
      and_iff_left fun type htype value heq => absurd heq (htoken type htype value)]
  · have hleft : ∀ key, hash = "map/focus/".toList ++ key → WellEscaped key := by
      rintro key rfl
      exact absurd (List.isPrefixOf_iff_prefix.mpr (List.prefix_append _ _)) hfocus
    unfold parsePath
    rw [if_neg hfocus, and_iff_right hleft]
    cases hsplit : splitAtSlash hash with
    | none =>
        refine iff_of_true rfl ?_
        rintro type - value rfl
        simp [splitAtSlash] at hsplit
    | some parts =>
        obtain ⟨type, value⟩ := parts
        obtain ⟨-, rfl⟩ := splitAtSlash_eq_some_iff.mp hsplit
        have hsame := type_value_unique hsplit
        dsimp only
        by_cases hvalue : value = []
        · rw [if_pos hvalue]
          refine iff_of_true rfl ?_
          intro type' htype' value' heq
          obtain ⟨-, rfl⟩ := hsame type' htype' value' heq
          subst hvalue
          have hnil : WellEscaped [] := ⟨[], .nil⟩
          exact ⟨hnil, fun _ => hnil⟩
        · rw [if_neg hvalue]
          by_cases htype : type ∈ ["channel".toList, "contact".toList]
          · rw [parseToken_types_isSome_iff htype]
            constructor
            · intro h type' htype' value' heq
              obtain ⟨-, rfl⟩ := hsame type' htype' value' heq
              exact h
            · exact fun h => h type htype value rfl
          · rw [if_neg fun h => htype (by simp [h]), if_neg fun h => htype (by simp [h])]
            refine iff_of_true rfl ?_
            intro type' htype' value' heq
            obtain ⟨rfl, -⟩ := hsame type' htype' value' heq
            exact absurd htype' htype

/-- Reading a plain view throws nothing, and no part of it is decoded. -/
theorem parseHashConversation_isSome_iff (locationHash : Text) :
    (parseHashConversation locationHash).isSome ↔ (parsePath (locationHash.drop 1)).isSome := by
  have hplain : ∀ hash : Text, '/' ∉ hash → (parsePath hash).isSome := by
    intro hash hslash
    rw [parsePath_isSome_iff]
    constructor
    · rintro key rfl
      simp at hslash
    · rintro type - value rfl
      simp at hslash
  unfold parseHashConversation
  dsimp only
  generalize locationHash.drop 1 = hash
  split_ifs with hnil hraw hmap hvisualizer hsearch hmentions htrace
  all_goals first
    | exact Iff.rfl
    | exact iff_of_true rfl (hplain hash (by simp [*]))

theorem parseHashSettingsSection_isSome_iff (locationHash : Text) :
    (parseHashSettingsSection locationHash).isSome ↔
      ∀ name, locationHash.drop 1 = "settings/".toList ++ name → WellEscaped name := by
  unfold parseHashSettingsSection
  dsimp only
  generalize locationHash.drop 1 = hash
  split
  next hprefix =>
    obtain ⟨name, rfl⟩ := List.isPrefixOf_iff_prefix.mp hprefix
    have hname : (∀ other, "settings/".toList ++ name = "settings/".toList ++ other →
        WellEscaped other) ↔ WellEscaped name := by
      simp
    rw [hname, List.drop_left, ← decodeURIComponent_isSome_iff]
    cases decodeURIComponent name <;> simp
  next hprefix =>
    refine iff_of_true rfl ?_
    rintro name rfl
    exact absurd (List.isPrefixOf_iff_prefix.mpr (List.prefix_append _ _)) hprefix

end Throws

/-- **Links to conversations.** A written link is read back as its channel or contact, whatever it
is labelled; and a hash is read without an exception exactly when its parts are well escaped. -/
theorem conversation_links (channels : List Channel) (contacts : List Contact)
    (hchannelKeys : ∀ c ∈ channels, IsKey c.key)
    (hcontactKeys : ∀ c ∈ contacts, IsKey c.public_key)
    (hchannels : (channels.map fun c => lower c.key).Nodup)
    (hcontacts : (contacts.map fun c => lower c.public_key).Nodup) (locationHash : Text) :
    ((∀ c ∈ channels, ∀ name, ∃ parsed,
          parseHashConversation (getConversationHash (some ⟨.channel, c.key, name⟩)) =
              some (some parsed) ∧ parsed.type = .channel ∧
            resolveChannelFromHashToken parsed.name channels = some c) ∧
        (∀ c ∈ contacts, ∀ name, ∃ parsed,
          parseHashConversation (getConversationHash (some ⟨.contact, c.public_key, name⟩)) =
              some (some parsed) ∧ parsed.type = .contact ∧
            resolveContactFromHashToken parsed.name contacts = some c) ∧
        (parseHashConversation locationHash).isSome ∧
        (parseHashSettingsSection locationHash).isSome) ↔
      HashEscaped (locationHash.drop 1) := by
  have hchannel : ∀ c ∈ channels, ∀ name, ∃ parsed,
      parseHashConversation (getConversationHash (some ⟨.channel, c.key, name⟩)) =
          some (some parsed) ∧ parsed.type = .channel ∧
        resolveChannelFromHashToken parsed.name channels = some c := by
    intro c hc name
    have hkey := hchannelKeys c hc
    obtain ⟨parsed, hparsed, htype, hname⟩ := parse_link .channel (.inl rfl) hkey.nonempty name
    exact ⟨parsed, hparsed, htype, hname ▸ resolveChannel_key hchannels hc hkey⟩
  have hcontact : ∀ c ∈ contacts, ∀ name, ∃ parsed,
      parseHashConversation (getConversationHash (some ⟨.contact, c.public_key, name⟩)) =
          some (some parsed) ∧ parsed.type = .contact ∧
        resolveContactFromHashToken parsed.name contacts = some c := by
    intro c hc name
    have hkey := hcontactKeys c hc
    obtain ⟨parsed, hparsed, htype, hname⟩ := parse_link .contact (.inr rfl) hkey.nonempty name
    exact ⟨parsed, hparsed, htype, hname ▸ resolveContact_key hcontacts hc hkey⟩
  rw [and_iff_right hchannel, and_iff_right hcontact, parseHashConversation_isSome_iff,
    parsePath_isSome_iff, parseHashSettingsSection_isSome_iff]
  constructor
  · rintro ⟨⟨hfocus, htoken⟩, hsettings⟩
    exact ⟨hfocus, hsettings, fun type htype value heq => (htoken type htype value heq).1,
      fun type htype value heq => (htoken type htype value heq).2⟩
  · intro h
    exact ⟨⟨h.focus, fun type htype value heq =>
      ⟨h.token type htype value heq, h.label type htype value heq⟩⟩, h.settings⟩

/-- A channel whose name is the key of another one, with a slash and a percent sign. -/
def slashedChannels : List Channel := [⟨"AB".toList, "CD/%".toList⟩, ⟨"CD".toList, "Public".toList⟩]

theorem conversation_links_slashed :
    ∃ parsed, parseHashConversation (getConversationHash
        (some ⟨.channel, "AB".toList, "CD/%".toList⟩)) = some (some parsed) ∧
      parsed.type = .channel ∧
        resolveChannelFromHashToken parsed.name slashedChannels =
          some ⟨"AB".toList, "CD/%".toList⟩ := by
  have hkeys : ∀ c ∈ slashedChannels, IsKey c.key := by
    intro c hc
    simp only [slashedChannels, List.mem_cons, List.not_mem_nil, or_false] at hc
    rcases hc with rfl | rfl <;> exact ⟨by decide, by simp [hexValue]⟩
  have hescaped : HashEscaped ([] : Text) :=
    ⟨by simp, by simp, by simp, by simp⟩
  obtain ⟨hlinks, -⟩ := (conversation_links slashedChannels [] hkeys (by simp) (by decide)
    List.nodup_nil []).mpr hescaped
  exact hlinks _ List.mem_cons_self "CD/%".toList

/-- A broken escape throws, in a link to a conversation and in one to the settings. -/
theorem broken_escape_throws :
    parseHashConversation "#channel/%".toList = none ∧
      parseHashSettingsSection "#settings/%".toList = none := by
  decide

end UrlHash

end RemoteTerm
