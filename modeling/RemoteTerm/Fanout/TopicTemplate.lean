import Mathlib
import RemoteTerm.Frontend.RoutingOverrideInput
import RemoteTerm.Library.FormatString
import RemoteTerm.Send.SplitText

/-!
# Topic templates of community brokers

The topic of a packet is a format string with two placeholders. A template is
stored with the canonical names of its placeholders, and normalized again on
every save and before it is rendered. It stays as it is unless literal braces
are written in it.

## Implementation notes

How a value is formatted, by its conversion and format spec, is a parameter:
`none` stands for an error. Only its name decides whether a placeholder is
allowed.
-/

namespace RemoteTerm

open Library Library.FormatString

namespace Community

/-- `_DEFAULT_COMMUNITY_MQTT_TOPIC_TEMPLATE`. -/
def defaultTopicTemplate : Text := "meshcore/\x7bIATA\x7d/\x7bPUBLIC_KEY\x7d/packets".toList

/-- `str.lower` where the result is ASCII: the Kelvin sign is the one letter outside of ASCII whose
lower case is inside. -/
def lowerName (name : Text) : Text := name.map fun c => if c = '\u212A' then 'k' else lowerChar c

/-- `_COMMUNITY_MQTT_TEMPLATE_FIELD_CANONICAL.get(field_name.lower())`. -/
def canonicalName (name : Text) : Option Text :=
  if lowerName name = "iata".toList then some "IATA".toList
  else if lowerName name = "public_key".toList then some "PUBLIC_KEY".toList
  else none

/-- The template that is parsed. -/
def templateOf (topicTemplate : Text) : Text :=
  if strip topicTemplate = [] then defaultTopicTemplate else strip topicTemplate

/-- The part that an item of the template becomes. -/
def normalizePart (item : Item) : Except Text Text :=
  match item.field with
  | none => .ok item.literal
  | some f =>
      match canonicalName f.name with
      | none =>
          .error ("topic_template may only use \x7bIATA\x7d and \x7bPUBLIC_KEY\x7d; got ".toList ++
            f.name)
      | some name => .ok (item.literal ++ ('{' :: ({ f with name } : Field).print ++ ['}']))

/-- `_normalize_community_topic_template`, with the detail of its error. -/
def normalizeCommunityTopicTemplate (topicTemplate : Text) : Except Text Text :=
  let parsed := parse (templateOf topicTemplate)
  match parsed.1.mapM normalizePart with
  | .error e => .error e
  | .ok parts =>
      match parsed.2 with
      | some exc => .error ("Invalid topic_template: ".toList ++ exc)
      | none => .ok parts.flatten

/-- `_normalize_topic_template`: the same with a `ValueError`. -/
def normalizeTopicTemplate (topicTemplate : Text) : Option Text :=
  match normalizeCommunityTopicTemplate topicTemplate with
  | .ok s => some s
  | .error _ => none

/-- How a placeholder is formatted, by its name, its conversion and its format spec. -/
abbrev FieldFormat := Text → Option Char → Text → Option Text

/-- An item of a template with its value. -/
def formatItem (format : FieldFormat) (item : Item) : Option Text :=
  match item.field with
  | none => some item.literal
  | some f => (format f.name f.conversion f.spec).map fun value => item.literal ++ value

/-- `str.format`. -/
def formatTemplate (format : FieldFormat) (template : Text) : Option Text :=
  match parse template with
  | (items, none) => (items.mapM (formatItem format)).map List.flatten
  | (_, some _) => none

/-- `_render_packet_topic`. -/
def renderPacketTopic (format : FieldFormat) (topicTemplate : Text) : Option Text :=
  (normalizeTopicTemplate topicTemplate).bind (formatTemplate format)

/-- What a template says: its placeholders in any letter case. -/
def saidTopic (format : FieldFormat) (topicTemplate : Text) : Option Text :=
  formatTemplate
    (fun name conversion spec => (canonicalName name).bind fun n => format n conversion spec)
    (templateOf topicTemplate)

/-- The stored template is stored again as it is, and its topic is what the template says. -/
def Survives (format : Text → Text → FieldFormat) (topicTemplate stored : Text) : Prop :=
  normalizeCommunityTopicTemplate stored = .ok stored ∧
    ∀ iata publicKey, renderPacketTopic (format iata publicKey) stored =
      saidTopic (format iata publicKey) topicTemplate

/-- No brace is written as literal text. -/
def WithoutLiteralBraces (topicTemplate : Text) : Prop :=
  ∀ item ∈ (parse (templateOf topicTemplate)).1, item.Plain

section Normalize

variable {t s name : Text} {items : List Item} {item : Item} {format : FieldFormat}

/-- The name that a placeholder gets. -/
def renamed (name : Text) : Text := (canonicalName name).getD name

/-- All placeholders are allowed. -/
def Allowed (items : List Item) : Prop :=
  ∀ item ∈ items, ∀ f ∈ item.field, (canonicalName f.name).isSome

theorem canonicalName_eq (h : (canonicalName name).isSome) :
    canonicalName name = some "IATA".toList ∧ lowerName name = "iata".toList ∨
      canonicalName name = some "PUBLIC_KEY".toList ∧ lowerName name = "public_key".toList := by
  unfold canonicalName at h ⊢
  split_ifs at h ⊢ with hiata hkey
  · exact Or.inl ⟨rfl, hiata⟩
  · exact Or.inr ⟨rfl, hkey⟩
  · cases h

theorem canonicalName_some (h : (canonicalName name).isSome) :
    canonicalName name = some (renamed name) := by
  obtain ⟨n, hn⟩ := Option.isSome_iff_exists.mp h
  rw [renamed, hn]
  rfl

theorem renamed_eq (h : (canonicalName name).isSome) :
    renamed name = "IATA".toList ∨ renamed name = "PUBLIC_KEY".toList := by
  rcases canonicalName_eq h with ⟨heq, -⟩ | ⟨heq, -⟩ <;> simp [renamed, heq]

theorem renamed_simple (h : (canonicalName name).isSome) :
    SimpleName (renamed name) ∧ renamed name ≠ [] := by
  rcases renamed_eq h with heq | heq <;> rw [heq] <;>
    exact ⟨by simp [SimpleName, IsBrace, EndsName], by simp⟩

theorem renamed_idem (h : (canonicalName name).isSome) :
    canonicalName (renamed name) = some (renamed name) := by
  rcases renamed_eq h with heq | heq <;> rw [heq] <;> decide +kernel

theorem renamed_length (h : (canonicalName name).isSome) :
    (renamed name).length = name.length := by
  have hlength : (lowerName name).length = name.length := List.length_map _
  rcases canonicalName_eq h with ⟨heq, hlower⟩ | ⟨heq, hlower⟩ <;>
    simp [renamed, heq, ← hlength, hlower]

theorem normalizePart_eq_ok_iff {part : Text} :
    normalizePart item = .ok part ↔
      (∀ f ∈ item.field, (canonicalName f.name).isSome) ∧ part = (item.rename renamed).print := by
  obtain ⟨literal, field⟩ := item
  cases field with
  | none =>
      have hprint : ((⟨literal, none⟩ : Item).rename renamed).print = literal :=
        List.append_nil literal
      rw [hprint]
      refine ⟨fun h => ⟨by simp, (Except.ok.inj h).symm⟩, fun h => congrArg Except.ok h.2.symm⟩
  | some f =>
      unfold normalizePart
      dsimp only
      cases hname : canonicalName f.name with
      | none =>
          refine iff_of_false (fun h => by cases h) fun h => ?_
          have := h.1 f rfl
          rw [hname] at this
          cases this
      | some name =>
          have hprint : ((⟨literal, some f⟩ : Item).rename renamed).print =
              literal ++ ('{' :: ({ f with name } : Field).print ++ ['}']) := by
            simp only [Item.rename, Item.print, Option.map_some, Option.elim_some, renamed, hname,
              Option.getD_some]
          rw [hprint]
          refine ⟨fun h => ⟨fun g hg => ?_, (Except.ok.inj h).symm⟩,
            fun h => congrArg Except.ok h.2.symm⟩
          cases hg
          rw [hname]
          rfl

theorem mapM_normalizePart_eq_ok_iff {parts : List Text} :
    items.mapM normalizePart = .ok parts ↔
      Allowed items ∧ parts = items.map fun item => (item.rename renamed).print := by
  induction items generalizing parts with
  | nil =>
      exact ⟨fun h => ⟨by simp [Allowed], (Except.ok.inj h).symm⟩,
        fun h => congrArg Except.ok h.2.symm⟩
  | cons item items ih =>
      rw [List.mapM_cons, Allowed, List.forall_mem_cons]
      cases hitem : normalizePart item with
      | error e =>
          refine iff_of_false (by simp [bind, Except.bind]) fun ⟨⟨hallowed, _⟩, _⟩ => ?_
          have hok := normalizePart_eq_ok_iff.mpr ⟨hallowed, rfl⟩
          rw [hitem] at hok
          cases hok
      | ok part =>
          obtain ⟨hallowed, rfl⟩ := normalizePart_eq_ok_iff.mp hitem
          cases hitems : items.mapM normalizePart with
          | error e =>
              refine iff_of_false (by simp [bind, Except.bind]) fun ⟨⟨_, hrest⟩, _⟩ => ?_
              rw [ih.mpr ⟨hrest, rfl⟩] at hitems
              cases hitems
          | ok tail =>
              obtain ⟨hrest, rfl⟩ := ih.mp hitems
              simp only [bind, Except.bind, pure, Except.pure, Except.ok.injEq]
              exact ⟨fun h => ⟨⟨hallowed, hrest⟩, h.symm⟩, fun h => h.2.symm⟩

/-- A template that is stored. -/
theorem normalize_eq_ok_iff :
    normalizeCommunityTopicTemplate t = .ok s ↔
      ∃ items, Reads (templateOf t) items ∧ Allowed items ∧
        s = printItems (items.map (Item.rename renamed)) := by
  have hprint : ∀ items : List Item,
      (items.map fun item => (item.rename renamed).print).flatten =
        printItems (items.map (Item.rename renamed)) := by
    intro items
    rw [printItems, List.flatMap_map, List.flatMap_def]
  unfold normalizeCommunityTopicTemplate
  cases hparse : parse (templateOf t) with
  | mk items exc =>
      cases hparts : items.mapM normalizePart with
      | error e =>
          simp only [hparts]
          refine iff_of_false (by simp) ?_
          rintro ⟨items', hreads, hallowed, -⟩
          cases (parse_eq_iff.mpr hreads).symm.trans hparse
          rw [mapM_normalizePart_eq_ok_iff.mpr ⟨hallowed, rfl⟩] at hparts
          cases hparts
      | ok parts =>
          obtain ⟨hallowed, rfl⟩ := mapM_normalizePart_eq_ok_iff.mp hparts
          cases exc with
          | some exc =>
              simp only [hparts]
              refine iff_of_false (by simp) ?_
              rintro ⟨items', hreads, -⟩
              cases (parse_eq_iff.mpr hreads).symm.trans hparse
          | none =>
              simp only [hparts, hprint, Except.ok.injEq]
              constructor
              · rintro rfl
                exact ⟨items, parse_eq_iff.mp hparse, hallowed, rfl⟩
              · rintro ⟨items', hreads, -, rfl⟩
                cases (parse_eq_iff.mpr hreads).symm.trans hparse
                rfl

theorem strip_head (s : Text) : ∀ c ∈ (strip s).head?, isWhitespace c = false := by
  intro c hc
  refine lstrip_head s c ?_
  have hprefix : strip s <+: lstrip s := List.rdropWhile_prefix _ _
  obtain ⟨rest, hrest⟩ := hprefix
  rw [← hrest, List.head?_append, hc]
  rfl

theorem strip_last (s : Text) : ∀ c ∈ (strip s).getLast?, isWhitespace c = false := by
  intro c hc
  rw [strip, List.getLast?_reverse] at hc
  exact lstrip_head (s.dropWhile isWhitespace).reverse c hc

theorem defaultTopicTemplate_eq :
    ∃ rest, defaultTopicTemplate = 'm' :: rest ++ ['s'] :=
  ⟨"eshcore/\x7bIATA\x7d/\x7bPUBLIC_KEY\x7d/packet".toList, by decide +kernel⟩

theorem templateOf_ne_nil (t : Text) : templateOf t ≠ [] := by
  obtain ⟨rest, hdefault⟩ := defaultTopicTemplate_eq
  by_cases h : strip t = []
  · rw [templateOf, if_pos h, hdefault]
    exact List.cons_ne_nil _ _
  · rwa [templateOf, if_neg h]

/-- The template that is parsed has no white space around it. -/
theorem templateOf_ends (t : Text) :
    (∀ c ∈ (templateOf t).head?, isWhitespace c = false) ∧
      ∀ c ∈ (templateOf t).getLast?, isWhitespace c = false := by
  obtain ⟨rest, hdefault⟩ := defaultTopicTemplate_eq
  by_cases h : strip t = []
  · rw [templateOf, if_pos h, hdefault]
    constructor
    · rintro c hc
      cases hc
      decide
    · rintro c hc
      rw [List.getLast?_concat] at hc
      cases hc
      decide
  · rw [templateOf, if_neg h]
    exact ⟨strip_head t, strip_last t⟩

theorem templateOf_of_ends (hne : s ≠ []) (hhead : ∀ c ∈ s.head?, isWhitespace c = false)
    (hlast : ∀ c ∈ s.getLast?, isWhitespace c = false) : templateOf s = s := by
  rw [templateOf, strip_of_ends hhead hlast, if_neg hne]

theorem rename_renamed (h : Allowed items) :
    (items.map (Item.rename renamed)).map (Item.rename renamed) =
        items.map (Item.rename renamed) ∧ Allowed (items.map (Item.rename renamed)) := by
  have hfield : ∀ item ∈ items, ∀ f ∈ (item.rename renamed).field,
      canonicalName f.name = some f.name := by
    intro item hitem f hf
    obtain ⟨f', hf', rfl⟩ := Option.map_eq_some_iff.mp hf
    exact renamed_idem (h item hitem f' hf')
  constructor
  · rw [List.map_map]
    refine List.map_congr_left fun item hitem => ?_
    have hname := hfield item hitem
    obtain ⟨literal, field⟩ := item
    cases field with
    | none => rfl
    | some f =>
        have hsame := hname _ rfl
        simp only [Function.comp_apply, Item.rename, Option.map_some]
        rw [renamed, hsame]
        rfl
  · intro item hitem f hf
    obtain ⟨item', hitem', rfl⟩ := List.mem_map.mp hitem
    rw [hfield item' hitem' f hf]
    rfl

/-- **Storing again**: a template without literal braces is stored again as it is, and read as the
items of the template. -/
theorem normalize_again (hreads : Reads (templateOf t) items) (hallowed : Allowed items)
    (hplain : ∀ item ∈ items, item.Plain) :
    Reads (printItems (items.map (Item.rename renamed))) (items.map (Item.rename renamed)) ∧
      normalizeCommunityTopicTemplate (printItems (items.map (Item.rename renamed))) =
        .ok (printItems (items.map (Item.rename renamed))) := by
  have hread := hreads.rename (g := renamed) hplain fun item hitem f hf =>
    renamed_simple (hallowed item hitem f hf)
  obtain ⟨hhead, hlast⟩ := hreads.ends (g := renamed) hplain
  obtain ⟨hheads, hlasts⟩ := templateOf_ends t
  have hne : printItems (items.map (Item.rename renamed)) ≠ [] := fun hnil => by
    rw [hnil, List.head?_nil, eq_comm, List.head?_eq_none_iff] at hhead
    exact templateOf_ne_nil t hhead
  obtain ⟨hsame, hagain⟩ := rename_renamed hallowed
  refine ⟨hread, normalize_eq_ok_iff.mpr ⟨_, ?_, hagain, by rw [hsame]⟩⟩
  rwa [templateOf_of_ends hne (by rwa [hhead]) (by rwa [hlast])]

theorem formatTemplate_of_reads {template : Text} (h : Reads template items) :
    formatTemplate format template = (items.mapM (formatItem format)).map List.flatten := by
  rw [formatTemplate, parse_eq_iff.mpr h]

theorem renderPacketTopic_of_ok (h : normalizeCommunityTopicTemplate t = .ok s) :
    renderPacketTopic format t = formatTemplate format s := by
  rw [renderPacketTopic, normalizeTopicTemplate, h]
  rfl

/-- A placeholder says the same under its canonical name. -/
theorem formatItem_rename (h : ∀ f ∈ item.field, (canonicalName f.name).isSome) :
    formatItem format (item.rename renamed) =
      formatItem (fun name conversion spec =>
        (canonicalName name).bind fun n => format n conversion spec) item := by
  obtain ⟨literal, field⟩ := item
  cases field with
  | none => rfl
  | some f =>
      simp only [formatItem, Item.rename, Option.map_some, canonicalName_some (h f rfl),
        Option.bind_some]

theorem mapM_formatItem_rename (h : Allowed items) :
    (items.map (Item.rename renamed)).mapM (formatItem format) =
      items.mapM (formatItem fun name conversion spec =>
        (canonicalName name).bind fun n => format n conversion spec) := by
  induction items with
  | nil => rfl
  | cons item items ih =>
      obtain ⟨hitem, hrest⟩ := List.forall_mem_cons.mp h
      rw [List.map_cons, List.mapM_cons, List.mapM_cons, formatItem_rename hitem, ih hrest]

/-- A part is the literal text and a value. -/
theorem formatItem_eq_some {part : Text} (h : formatItem format item = some part) :
    ∃ value, part = item.literal ++ value ∧
      (value = [] ∨ ∃ name conversion spec, format name conversion spec = some value) := by
  obtain ⟨literal, field⟩ := item
  cases field with
  | none =>
      cases h
      exact ⟨[], (List.append_nil _).symm, Or.inl rfl⟩
  | some f =>
      obtain ⟨value, hvalue, rfl⟩ := Option.map_eq_some_iff.mp h
      exact ⟨value, rfl, Or.inr ⟨_, _, _, hvalue⟩⟩

theorem formatItem_of_mapM {parts : List Text} (h : items.mapM (formatItem format) = some parts)
    (hitem : item ∈ items) : ∃ part, formatItem format item = some part := by
  induction items generalizing parts with
  | nil => cases hitem
  | cons first items ih =>
      rw [List.mapM_cons] at h
      cases hfirst : formatItem format first with
      | none => simp [hfirst] at h
      | some part =>
          rcases List.mem_cons.mp hitem with rfl | hrest
          · exact ⟨part, hfirst⟩
          · cases hitems : items.mapM (formatItem format) with
            | none => simp [hfirst, hitems] at h
            | some rest => exact ih hitems hrest

/-- The characters of a topic are those of its parts. -/
theorem mem_flatten_of_mapM {parts : List Text} (h : items.mapM (formatItem format) = some parts)
    {c : Char} :
    c ∈ parts.flatten ↔ ∃ item ∈ items, ∃ part, formatItem format item = some part ∧ c ∈ part := by
  induction items generalizing parts with
  | nil =>
      cases h
      simp
  | cons item items ih =>
      rw [List.mapM_cons] at h
      cases hitem : formatItem format item with
      | none => simp [hitem] at h
      | some part =>
          cases hitems : items.mapM (formatItem format) with
          | none => simp [hitem, hitems] at h
          | some rest =>
              simp only [hitem, hitems] at h
              cases h
              rw [List.flatten_cons, List.mem_append, ih hitems]
              simp [hitem]

/-- No brace comes from the values of the placeholders. -/
def BraceFree (format : FieldFormat) : Prop :=
  ∀ name conversion spec value, format name conversion spec = some value →
    ∀ c ∈ value, ¬ IsBrace c

theorem templateOf_default : templateOf defaultTopicTemplate = defaultTopicTemplate := by
  decide +kernel

/-- The default template is stored as it is. -/
theorem normalize_default :
    normalizeCommunityTopicTemplate defaultTopicTemplate = .ok defaultTopicTemplate := by
  decide +kernel

/-- A stored template that is stored again as it is has no literal braces. -/
theorem plain_of_normalize_self (h : normalizeCommunityTopicTemplate s = .ok s) :
    ∃ items, Reads s items ∧ ∀ item ∈ items, item.Plain := by
  obtain ⟨items, hreads, hallowed, hprint⟩ := normalize_eq_ok_iff.mp h
  obtain ⟨hle, hplain⟩ := hreads.length_le (g := renamed) fun item hitem f hf =>
    (renamed_length (hallowed item hitem f hf)).le
  rw [← hprint] at hle hplain
  have hstrip : templateOf s = s := by
    by_cases hnil : strip s = []
    · have hsame : templateOf s = templateOf defaultTopicTemplate := by
        rw [templateOf, if_pos hnil, templateOf_default]
      have hdefault : normalizeCommunityTopicTemplate s = .ok defaultTopicTemplate := by
        rw [← normalize_default, normalizeCommunityTopicTemplate, hsame]
        rfl
      rw [h, Except.ok.injEq] at hdefault
      rw [hdefault, templateOf_default]
    · rw [templateOf, if_neg hnil] at hle ⊢
      obtain ⟨before, after, hspec, -⟩ := strip_spec s
      have hlength := congrArg List.length hspec
      simp only [List.length_append] at hlength
      rw [List.eq_nil_of_length_eq_zero (by omega : before.length = 0),
        List.eq_nil_of_length_eq_zero (by omega : after.length = 0)] at hspec
      simpa using hspec.symm
  rw [hstrip] at hreads hplain
  exact ⟨items, hreads, hplain le_rfl⟩

end Normalize

/-- **Topic templates.** A template without literal braces is stored again as it is, and its topic
is what the template says. A template that says something, and of which this holds, has no literal
braces. -/
theorem topic_template_survives {t s : Text} (h : normalizeCommunityTopicTemplate t = .ok s)
    (format : Text → Text → FieldFormat) :
    (WithoutLiteralBraces t → Survives format t s) ∧
      ((∃ iata publicKey, BraceFree (format iata publicKey) ∧
          (saidTopic (format iata publicKey) t).isSome) →
        Survives format t s → WithoutLiteralBraces t) := by
  obtain ⟨items, hreads, hallowed, rfl⟩ := normalize_eq_ok_iff.mp h
  have hitems : (parse (templateOf t)).1 = items := by rw [parse_eq_iff.mpr hreads]
  rw [WithoutLiteralBraces, hitems]
  have hsaid : ∀ iata publicKey, saidTopic (format iata publicKey) t =
      ((items.map (Item.rename renamed)).mapM (formatItem (format iata publicKey))).map
        List.flatten := fun iata publicKey => by
    rw [saidTopic, formatTemplate_of_reads hreads, mapM_formatItem_rename hallowed]
  constructor
  · intro hplain
    obtain ⟨hread, hagain⟩ := normalize_again hreads hallowed hplain
    refine ⟨hagain, fun iata publicKey => ?_⟩
    rw [renderPacketTopic_of_ok hagain, formatTemplate_of_reads hread, hsaid]
  · rintro ⟨iata, publicKey, hfree, hsome⟩ ⟨hagain, hrender⟩ item hitem c hc hbrace
    obtain ⟨topic, htopic⟩ := Option.isSome_iff_exists.mp hsome
    -- the stored template has no brace in its topic
    obtain ⟨stored, hstored, hplain⟩ := plain_of_normalize_self hagain
    have hshown := hrender iata publicKey
    rw [renderPacketTopic_of_ok hagain, formatTemplate_of_reads hstored, htopic,
      Option.map_eq_some_iff] at hshown
    obtain ⟨parts, hparts, rfl⟩ := hshown
    have hclean : c ∉ parts.flatten := by
      intro hmem
      obtain ⟨item', hitem', part, hpart, hc'⟩ := (mem_flatten_of_mapM hparts).mp hmem
      obtain ⟨value, rfl, hvalue⟩ := formatItem_eq_some hpart
      rcases List.mem_append.mp hc' with hliteral | hvalue'
      · exact hplain item' hitem' c hliteral hbrace
      · rcases hvalue with rfl | ⟨name, conversion, spec, hformat⟩
        · cases hvalue'
        · exact hfree name conversion spec value hformat c hvalue' hbrace
    -- the template has the brace of its literal text
    rw [hsaid, Option.map_eq_some_iff] at htopic
    obtain ⟨said, hsaidParts, heq⟩ := htopic
    have hmem : item.rename renamed ∈ items.map (Item.rename renamed) :=
      List.mem_map_of_mem hitem
    obtain ⟨part, hpart⟩ := formatItem_of_mapM hsaidParts hmem
    obtain ⟨value, rfl, -⟩ := formatItem_eq_some hpart
    exact hclean (heq ▸ (mem_flatten_of_mapM hsaidParts).mpr
      ⟨_, hmem, _, hpart, List.mem_append_left _ hc⟩)

/-- A format without specs. -/
private def plainFormat (iata publicKey : Text) : FieldFormat := fun name conversion spec =>
  if conversion = none ∧ spec = [] then
    if name = "IATA".toList then some iata
    else if name = "PUBLIC_KEY".toList then some publicKey
    else none
  else none

/-- A template whose placeholders are in other letter cases. -/
theorem topic_template_survives_cased :
    Survives plainFormat "mesh/\x7biata\x7d/\x7bPublic_Key\x7d".toList
      "mesh/\x7bIATA\x7d/\x7bPUBLIC_KEY\x7d".toList :=
  (topic_template_survives (by decide +kernel) plainFormat).1 (by
    unfold WithoutLiteralBraces
    decide +kernel)

/-- A doubled brace is stored as one brace, which is no template. -/
theorem literal_brace_lost :
    normalizeCommunityTopicTemplate "a\x7b\x7bb".toList = .ok "a\x7bb".toList ∧
      normalizeCommunityTopicTemplate "a\x7bb".toList =
        .error "Invalid topic_template: expected '\x7d' before end of string".toList := by
  decide +kernel

end Community

end RemoteTerm
