import Mathlib
import RemoteTerm.Library.Signature
import RemoteTerm.Repository.Messages

/-!
# Calls of bot functions

A bot function of a user is called by a plan that is chosen from its signature:
by keyword, or by eight to eleven positional arguments. The candidate plans are
tried on the signature in a fixed order.

## Implementation notes

Whether a candidate binds does not depend on the values it is tried with, so the
trial values are left out. A call that raises has no result.
-/

namespace RemoteTerm

open Library

namespace Bots

/-- A value that a bot receives. -/
inductive BotValue where
  | none
  | bool (b : Bool)
  | int (n : Int)
  | str (s : Text)
  | paths (ps : List MessagePath)
  deriving DecidableEq

/-- What a bot is told about a message. -/
structure BotContext where
  senderName : Option Text
  senderKey : Option Text
  messageText : Text
  isDm : Bool
  channelKey : Option Text
  channelName : Option Text
  senderTimestamp : Option Int
  path : Option Text
  isOutgoing : Bool := false
  pathBytesPerHop : Option Int := none
  packetHash : Option Text := none
  region : Option Text := none
  isScoped : Bool := false
  messageId : Option Int := none
  paths : Option (List MessagePath) := none
  isRoom : Bool := false
  deriving Inhabited

/-- A value that may be absent. -/
def BotValue.ofOption {α : Type} (f : α → BotValue) (a : Option α) : BotValue := a.elim .none f

/-- The names of `base_keyword_args`. -/
def baseNames : List Text :=
  ["sender_name", "sender_key", "message_text", "is_dm", "channel_key", "channel_name",
    "sender_timestamp", "path"].map String.toList

/-- `OPT_IN_KWARGS`. -/
def optInKwargs : List Text :=
  ["region", "scoped", "message_id", "paths", "is_room"].map String.toList

/-- `OPTIONAL_KWARGS`. -/
def optionalKwargs : List Text :=
  ["is_outgoing", "path_bytes_per_hop", "packet_hash"].map String.toList ++ optInKwargs

/-- The names that are documented. -/
def documentedNames : List Text := baseNames ++ optionalKwargs

/-- `available`. -/
def available (ctx : BotContext) : List (Text × BotValue) :=
  [("sender_name".toList, .ofOption .str ctx.senderName),
    ("sender_key".toList, .ofOption .str ctx.senderKey),
    ("message_text".toList, .str ctx.messageText),
    ("is_dm".toList, .bool ctx.isDm),
    ("channel_key".toList, .ofOption .str ctx.channelKey),
    ("channel_name".toList, .ofOption .str ctx.channelName),
    ("sender_timestamp".toList, .ofOption .int ctx.senderTimestamp),
    ("path".toList, .ofOption .str ctx.path),
    ("is_outgoing".toList, .bool ctx.isOutgoing),
    ("path_bytes_per_hop".toList, .ofOption .int ctx.pathBytesPerHop),
    ("packet_hash".toList, .ofOption .str ctx.packetHash),
    ("region".toList, .ofOption .str ctx.region),
    ("scoped".toList, .bool ctx.isScoped),
    ("message_id".toList, .ofOption .int ctx.messageId),
    ("paths".toList, .ofOption .paths ctx.paths),
    ("is_room".toList, .bool ctx.isRoom)]

/-- `positional`. -/
def positionalArgs (ctx : BotContext) : List BotValue :=
  [.ofOption .str ctx.senderName, .ofOption .str ctx.senderKey, .str ctx.messageText,
    .bool ctx.isDm, .ofOption .str ctx.channelKey, .ofOption .str ctx.channelName,
    .ofOption .int ctx.senderTimestamp, .ofOption .str ctx.path, .bool ctx.isOutgoing,
    .ofOption .int ctx.pathBytesPerHop, .ofOption .str ctx.packetHash]

/-- The call styles that are tried. -/
inductive CallStyle where
  | keyword
  | mixedKeyword
  | positional11
  | positional10
  | positional9
  | legacy
  deriving DecidableEq

/-- `BotCallPlan`. -/
structure BotCallPlan where
  callStyle : CallStyle
  keywordArgs : List Text := []
  deriving DecidableEq

/-- `_POSITIONAL_ARG_COUNTS`, eight for the others. -/
def CallStyle.argCount : CallStyle → Nat
  | .positional11 => 11
  | .positional10 => 10
  | .positional9 => 9
  | _ => 8

section Analyze

variable (sig : Signature)

/-- `explicit_optional_names`. -/
def explicitOptionalNames : List Text := optionalKwargs.filter fun name => decide (name ∈ sig.names)

/-- The keywords of the first candidate. -/
def keywordNames : List Text :=
  baseNames ++ optionalKwargs.filter fun name =>
    decide (sig.HasKind .varKeyword ∨ name ∈ sig.names)

/-- `unsupported_required_kwonly`. -/
def unsupportedRequiredKwonly : List Text :=
  (sig.parameters.filter fun p =>
    decide (p.kind = .keywordOnly ∧ p.hasDefault = false ∧ p.name ∉ optionalKwargs)).map
      Parameter.name

/-- There are places for a number of positional arguments. -/
def TakesPositional (count : Nat) : Prop :=
  sig.HasKind .varPositional ∨ count ≤ sig.positional.length

instance (count : Nat) : Decidable (TakesPositional sig count) :=
  inferInstanceAs (Decidable (_ ∨ _))

/-- The candidates of positional calls. -/
def positionalSpecs : List CallStyle :=
  [.positional11, .positional10, .positional9, .legacy].filter fun style =>
    decide (TakesPositional sig style.argCount)

/-- The optional names are tried as keywords behind eight positional arguments. -/
def TriesMixed : Prop := ¬ sig.HasKind .varKeyword ∧ explicitOptionalNames sig ≠ []

instance : Decidable (TriesMixed sig) := inferInstanceAs (Decidable (_ ∧ _))

/-- `candidate_specs`: the style, the number of positional arguments and the keywords. -/
def candidateSpecs : List (CallStyle × Nat × List Text) :=
  [(.keyword, 0, keywordNames sig)] ++
    (if TriesMixed sig then [(.mixedKeyword, 8, explicitOptionalNames sig)] else []) ++
    (positionalSpecs sig).map fun style => (style, style.argCount, [])

/-- A candidate binds. -/
def binds (candidate : CallStyle × Nat × List Text) : Bool :=
  decide (sig.Accepts candidate.2.1 candidate.2.2)

/-- The plan of a candidate. -/
def planOf (style : CallStyle) (keywords : List Text) : BotCallPlan :=
  if style = .keyword ∨ style = .mixedKeyword then ⟨.keyword, keywords⟩ else { callStyle := style }

/-- `_analyze_bot_signature`, with the text of its `ValueError`. -/
def analyzeBotSignature : Except Text BotCallPlan :=
  if unsupportedRequiredKwonly sig ≠ [] then
    .error ("Bot function signature is not supported. Unsupported required keyword-only parameters: ".toList
      ++ List.intercalate ", ".toList (unsupportedRequiredKwonly sig))
  else
    match (candidateSpecs sig).find? (binds sig) with
    | some (style, _, keywords) => .ok (planOf style keywords)
    | none =>
        .error (("Bot function signature is not supported. Use the default bot template as a reference. " ++
          "Supported trailing parameters are: path; path + is_outgoing; " ++
          "path + path_bytes_per_hop; path + is_outgoing + path_bytes_per_hop; " ++
          "path + is_outgoing + path_bytes_per_hop + packet_hash; " ++
          "or use **kwargs for forward compatibility (which also receives ").toList ++
          List.intercalate ", ".toList optInKwargs ++ ").".toList)

/-- The call in `execute_bot_code`. -/
def callBot (plan : BotCallPlan) (ctx : BotContext) : Option (Parameter → Bound BotValue) :=
  match plan.callStyle with
  | .keyword => do
      let kwargs ← plan.keywordArgs.mapM fun name =>
        ((available ctx).lookup name).map fun value => (name, value)
      sig.bind [] kwargs
  | style => sig.bind ((positionalArgs ctx).take style.argCount) []

/-- The call binds, and every parameter with a documented name has the documented value. -/
def ReceivesDocumented (plan : BotCallPlan) : Prop :=
  ∀ ctx, ∃ bound, callBot sig plan ctx = some bound ∧
    ∀ p ∈ sig.parameters, ∀ value, (available ctx).lookup p.name = some value →
      bound p = .value value

/-- The parameters of documented names stand where the documentation has them. When the documented
names bind as keywords, none of them names a parameter that no keyword fills. When only the optional
names bind as keywords behind eight positional arguments, every parameter that must be given has one
of them and none has another documented name. Otherwise a documented name stands at its place among
the first eleven positional parameters. -/
def NamedAsDocumented : Prop :=
  if sig.Accepts 0 (keywordNames sig) then
    ∀ p ∈ sig.parameters, p.name ∈ documentedNames → p.ByKeyword
  else if TriesMixed sig ∧ sig.Accepts 8 (explicitOptionalNames sig) then
    ∀ p ∈ sig.parameters, p.name ∉ baseNames ∧
      (p.TakesRest ∨ p.hasDefault ∨ p.name ∈ optionalKwargs)
  else
    ∀ p ∈ sig.parameters, p.name ∈ documentedNames →
      ∃ i < 11, sig.positional[i]? = some p ∧ documentedNames[i]? = some p.name

end Analyze

section Calls

variable {sig : Signature} {ctx : BotContext} {keywords : List Text} {name : Text}
  {value : BotValue} {style : CallStyle} {count : Nat}

theorem available_names (ctx : BotContext) : (available ctx).map Prod.fst = documentedNames := rfl

theorem available_values (ctx : BotContext) :
    positionalArgs ctx = ((available ctx).map Prod.snd).take 11 := rfl

theorem documentedNames_nodup : documentedNames.Nodup := by decide

/-- The documented names are those that have a value. -/
theorem exists_lookup_iff (ctx : BotContext) :
    (∃ value, (available ctx).lookup name = some value) ↔ name ∈ documentedNames := by
  rw [← available_names ctx, ← Option.isSome_iff_exists, Option.isSome_iff_ne_none, ne_eq,
    List.lookup_eq_none_iff]
  simp

/-- The value of a documented name. -/
def documentedValue (ctx : BotContext) (name : Text) : BotValue :=
  ((available ctx).lookup name).getD .none

theorem lookup_eq_documentedValue (h : name ∈ documentedNames) :
    (available ctx).lookup name = some (documentedValue ctx name) := by
  obtain ⟨value, hvalue⟩ := (exists_lookup_iff ctx).mpr h
  rw [documentedValue, hvalue]
  rfl

/-- A documented value stands at the place of its name. -/
theorem lookup_available_iff :
    (available ctx).lookup name = some value ↔ (name, value) ∈ available ctx := by
  rw [List.lookup_eq_some_iff]
  constructor
  · rintro ⟨front, back, heq, -⟩
    rw [heq]
    simp
  · intro hmem
    obtain ⟨front, back, heq⟩ := List.append_of_mem hmem
    refine ⟨front, back, heq, fun e he => ?_⟩
    have hnodup : ((available ctx).map Prod.fst).Nodup := documentedNames_nodup
    rw [heq, List.map_append, List.nodup_append] at hnodup
    simpa using fun hname : name = e.1 =>
      hnodup.2.2 e.1 (List.mem_map_of_mem he) name (by simp) hname.symm

theorem value_at {i : Nat} (ctx : BotContext) (hplace : documentedNames[i]? = some name) :
    ((available ctx).map Prod.snd)[i]? = some (documentedValue ctx name) := by
  rw [← available_names ctx, List.getElem?_map, Option.map_eq_some_iff] at hplace
  obtain ⟨⟨_, value⟩, hentry, rfl⟩ := hplace
  rw [List.getElem?_map, hentry, documentedValue,
    lookup_available_iff.mpr (List.mem_of_getElem? hentry)]
  rfl

theorem lookup_map_pair {β : Type} (f : Text → β) (keywords : List Text) (name : Text) :
    (keywords.map fun n => (n, f n)).lookup name =
      if name ∈ keywords then some (f name) else none := by
  induction keywords with
  | nil => rfl
  | cons n rest ih =>
      rw [List.map_cons, List.lookup_cons, ih]
      by_cases h : name = n
      · simp [h]
      · simp [h, beq_false_of_ne h]

/-- A call by documented keywords. -/
theorem callBot_keyword (ctx : BotContext) (hsub : ∀ n ∈ keywords, n ∈ documentedNames) :
    callBot sig ⟨.keyword, keywords⟩ ctx =
      sig.bind [] (keywords.map fun n => (n, documentedValue ctx n)) := by
  have hvalues : (keywords.mapM fun n =>
      ((available ctx).lookup n).map fun value => (n, value)) =
        some (keywords.map fun n => (n, documentedValue ctx n)) := by
    induction keywords with
    | nil => rfl
    | cons n rest ih =>
        rw [List.mapM_cons, lookup_eq_documentedValue (hsub n List.mem_cons_self),
          ih fun m hm => hsub m (List.mem_cons_of_mem n hm)]
        rfl
  unfold callBot
  dsimp only
  rw [hvalues]
  rfl

/-- A call by keyword gives the documented values when it binds and every documented name is that
of a keyword. -/
theorem receivesDocumented_keyword_iff (hsub : ∀ n ∈ keywords, n ∈ documentedNames) :
    ReceivesDocumented sig ⟨.keyword, keywords⟩ ↔
      sig.Accepts 0 keywords ∧
        ∀ p ∈ sig.parameters, p.name ∈ documentedNames → p.ByKeyword ∧ p.name ∈ keywords := by
  have hkeys : ∀ ctx : BotContext,
      (keywords.map fun n => (n, documentedValue ctx n)).map Prod.fst = keywords := fun ctx => by
    simp [Function.comp_def]
  have hvalue : ∀ (ctx : BotContext) (p : Parameter) (value : BotValue),
      (available ctx).lookup p.name = some value →
        (sig.receives [] (keywords.map fun n => (n, documentedValue ctx n)) p = .value value ↔
          p.ByKeyword ∧ p.name ∈ keywords) := by
    intro ctx p value hlookup
    have hvalue : documentedValue ctx p.name = value := by rw [documentedValue, hlookup]; rfl
    rw [Signature.receives_eq_value_iff, Signature.argument_keyword, lookup_map_pair, hvalue]
    by_cases hby : p.ByKeyword
    · have hrest : ¬ p.TakesRest := by
        rcases hby with hkind | hkind <;> simp [Parameter.TakesRest, hkind]
      by_cases hmem : p.name ∈ keywords <;> simp [hby, hrest, hmem]
    · simp [hby]
  constructor
  · intro h
    obtain ⟨bound, hbound, hall⟩ := h default
    rw [callBot_keyword _ hsub, Signature.bind] at hbound
    split_ifs at hbound with haccepts
    cases hbound
    rw [hkeys default] at haccepts
    refine ⟨haccepts, fun p hp hname => ?_⟩
    have hlookup := @lookup_eq_documentedValue default _ hname
    exact (hvalue default p _ hlookup).mp (hall p hp _ hlookup)
  · rintro ⟨haccepts, hnames⟩ ctx
    refine ⟨_, (callBot_keyword ctx hsub).trans (if_pos ?_), fun p hp value hlookup => ?_⟩
    · rwa [hkeys ctx]
    · exact (hvalue ctx p value hlookup).mpr
        (hnames p hp ((exists_lookup_iff ctx).mp ⟨value, hlookup⟩))

/-- A message of two kinds: they differ in all that is told of it. -/
private def toldApart (flag : Bool) : BotContext where
  senderName := some ['a']
  senderKey := some ['b']
  messageText := ['c']
  isDm := true
  channelKey := some ['d']
  channelName := some ['e']
  senderTimestamp := some 1
  path := some ['f']
  isOutgoing := false
  pathBytesPerHop := some 2
  packetHash := some ['g']
  region := some ['h']
  isScoped := flag
  messageId := some 3
  paths := some []
  isRoom := flag

/-- A place among the positional arguments is known by its values. -/
theorem place_of_values : ∀ i < 11, ∀ j < 16,
    (∀ flag, (positionalArgs (toldApart flag))[i]? =
      ((available (toldApart flag)).map Prod.snd)[j]?) → i = j := by
  decide

/-- A positional call that binds gives the documented values when every documented name stands at
its place among the arguments. -/
theorem receivesDocumented_positional_iff (hstyle : style ≠ .keyword)
    (haccepts : sig.Accepts style.argCount []) :
    ReceivesDocumented sig { callStyle := style } ↔
      ∀ p ∈ sig.parameters, p.name ∈ documentedNames →
        ∃ i < style.argCount, sig.positional[i]? = some p ∧ documentedNames[i]? = some p.name := by
  have hcount : style.argCount ≤ 11 := by cases style <;> decide
  have hcall : ∀ ctx, callBot sig { callStyle := style } ctx =
      some (sig.receives ((positionalArgs ctx).take style.argCount) []) := by
    intro ctx
    have hlength : ((positionalArgs ctx).take style.argCount).length = style.argCount := by
      rw [List.length_take]
      exact min_eq_left hcount
    have hbind : callBot sig { callStyle := style } ctx =
        sig.bind ((positionalArgs ctx).take style.argCount) [] := by
      cases style with
      | keyword => exact absurd rfl hstyle
      | _ => rfl
    rw [hbind, Signature.bind, hlength]
    exact if_pos haccepts
  have hvalue : ∀ (ctx : BotContext) (p : Parameter) (value : BotValue),
      sig.receives ((positionalArgs ctx).take style.argCount) [] p = .value value ↔
        ∃ i < style.argCount, sig.positional[i]? = some p ∧
          (positionalArgs ctx)[i]? = some value := by
    intro ctx p value
    rw [Signature.receives_eq_value_iff, Signature.argument_positional]
    constructor
    · rintro ⟨-, i, hi, hvalue⟩
      rw [List.getElem?_take] at hvalue
      split_ifs at hvalue with hlt
      exact ⟨i, hlt, hi, hvalue⟩
    · rintro ⟨i, hlt, hi, hvalue⟩
      have hby := (Signature.mem_positional.mp (List.mem_of_getElem? hi)).2
      refine ⟨?_, i, hi, by rwa [List.getElem?_take, if_pos hlt]⟩
      rcases hby with hkind | hkind <;> simp [Parameter.TakesRest, hkind]
  constructor
  · intro h p hp hname
    have hplace : ∀ ctx, ∃ i < style.argCount, sig.positional[i]? = some p ∧
        (positionalArgs ctx)[i]? = some (documentedValue ctx p.name) := by
      intro ctx
      obtain ⟨bound, hbound, hall⟩ := h ctx
      rw [hcall ctx] at hbound
      cases hbound
      exact (hvalue ctx p _).mp (hall p hp _ (lookup_eq_documentedValue hname))
    obtain ⟨i, hlt, hi, -⟩ := hplace default
    obtain ⟨j, hj⟩ := List.mem_iff_getElem?.mp hname
    have hjlt : j < 16 := (List.getElem?_eq_some_iff.mp hj).1
    have heq : i = j := by
      refine place_of_values i (by omega) j hjlt fun flag => ?_
      obtain ⟨i', -, hi', hvalue'⟩ := hplace (toldApart flag)
      have hsame : i' = i := by
        obtain ⟨hlt', -⟩ := List.getElem?_eq_some_iff.mp hi'
        exact (List.getElem?_inj hlt' Signature.nodup_positional).mp (hi'.trans hi.symm)
      rw [← hsame, hvalue', value_at (toldApart flag) hj]
    exact ⟨i, hlt, hi, heq ▸ hj⟩
  · intro hnames ctx
    refine ⟨_, hcall ctx, fun p hp value hlookup => (hvalue ctx p value).mpr ?_⟩
    obtain ⟨i, hlt, hi, hplace⟩ := hnames p hp ((exists_lookup_iff ctx).mp ⟨value, hlookup⟩)
    refine ⟨i, hlt, hi, ?_⟩
    rw [available_values, List.getElem?_take, if_pos (by omega), value_at ctx hplace,
      documentedValue, hlookup]
    rfl

/-- The first candidate is by keyword. -/
theorem find_keyword (h : sig.Accepts 0 (keywordNames sig)) :
    (candidateSpecs sig).find? (binds sig) = some (.keyword, 0, keywordNames sig) := by
  rw [candidateSpecs, List.append_assoc, List.singleton_append,
    List.find?_cons_of_pos (by simpa [binds] using h)]

/-- The mixed candidate comes behind it. -/
theorem find_mixed (hkeyword : ¬ sig.Accepts 0 (keywordNames sig)) (htries : TriesMixed sig)
    (hmixed : sig.Accepts 8 (explicitOptionalNames sig)) :
    (candidateSpecs sig).find? (binds sig) =
      some (.mixedKeyword, 8, explicitOptionalNames sig) := by
  rw [candidateSpecs, List.append_assoc, List.singleton_append,
    List.find?_cons_of_neg (by simpa [binds] using hkeyword), if_pos htries,
    List.singleton_append, List.find?_cons_of_pos (by simpa [binds] using hmixed)]

/-- The positional candidates come last. -/
theorem find_positional (hkeyword : ¬ sig.Accepts 0 (keywordNames sig))
    (hmixed : ¬ (TriesMixed sig ∧ sig.Accepts 8 (explicitOptionalNames sig))) :
    (candidateSpecs sig).find? (binds sig) =
      ((positionalSpecs sig).map fun style => (style, style.argCount, [])).find? (binds sig) := by
  rw [candidateSpecs, List.append_assoc, List.singleton_append,
    List.find?_cons_of_neg (by simpa [binds] using hkeyword)]
  by_cases htries : TriesMixed sig
  · have hnot : ¬ sig.Accepts 8 (explicitOptionalNames sig) := fun h => hmixed ⟨htries, h⟩
    rw [if_pos htries, List.singleton_append, List.find?_cons_of_neg (by simpa [binds] using hnot)]
  · rw [if_neg htries, List.nil_append]

/-- A shorter call that binds leaves no place for a longer one that does not. -/
theorem length_lt_of_not_accepts {longer : Nat} (hle : count ≤ longer)
    (haccepts : sig.Accepts count [])
    (hnot : ¬ (TakesPositional sig longer ∧ sig.Accepts longer [])) :
    sig.positional.length < longer := by
  by_contra hplaces
  have hplaces : longer ≤ sig.positional.length := by omega
  exact hnot ⟨Or.inr hplaces, haccepts.mono hle (Or.inl hplaces)⟩

/-- The positional call that binds has an argument for each of the first eleven positional
parameters. -/
theorem find_positionalSpecs {candidate : CallStyle × Nat × List Text}
    (h : ((positionalSpecs sig).map fun style => (style, style.argCount, [])).find? (binds sig) =
      some candidate) :
    ∃ style : CallStyle, style ≠ .keyword ∧ style ≠ .mixedKeyword ∧
      candidate = (style, style.argCount, []) ∧ sig.Accepts style.argCount [] ∧
        min 11 sig.positional.length ≤ style.argCount := by
  rw [List.find?_map, positionalSpecs, List.find?_filter, Option.map_eq_some_iff] at h
  obtain ⟨style, hfind, rfl⟩ := h
  simp only [binds, Function.comp_apply, decide_eq_true_eq, List.find?_cons, List.find?_nil]
    at hfind
  split at hfind
  next h11 =>
    cases hfind
    exact ⟨_, by decide, by decide, rfl, (of_decide_eq_true h11).2, min_le_left _ _⟩
  next h11 =>
    split at hfind
    next h10 =>
      cases hfind
      have haccepts := (of_decide_eq_true h10).2
      have hlt := length_lt_of_not_accepts (by decide) haccepts (of_decide_eq_false h11)
      exact ⟨_, by decide, by decide, rfl, haccepts, min_le_of_right_le (Nat.le_of_lt_succ hlt)⟩
    next h10 =>
      split at hfind
      next h9 =>
        cases hfind
        have haccepts := (of_decide_eq_true h9).2
        have hlt := length_lt_of_not_accepts (by decide) haccepts (of_decide_eq_false h10)
        exact ⟨_, by decide, by decide, rfl, haccepts,
          min_le_of_right_le (Nat.le_of_lt_succ hlt)⟩
      next h9 =>
        split at hfind
        next h8 =>
          cases hfind
          have haccepts := (of_decide_eq_true h8).2
          have hlt := length_lt_of_not_accepts (by decide) haccepts (of_decide_eq_false h9)
          exact ⟨_, by decide, by decide, rfl, haccepts,
            min_le_of_right_le (Nat.le_of_lt_succ hlt)⟩
        next => cases hfind

theorem keywordNames_documented (h : name ∈ keywordNames sig) : name ∈ documentedNames :=
  List.mem_append.mpr ((List.mem_append.mp h).imp_right fun h => (List.mem_filter.mp h).1)

theorem explicitOptionalNames_documented (h : name ∈ explicitOptionalNames sig) :
    name ∈ documentedNames :=
  List.mem_append_right _ (List.mem_filter.mp h).1

/-- A parameter with a documented name is tried by keyword. -/
theorem mem_keywordNames {p : Parameter} (hp : p ∈ sig.parameters)
    (hname : p.name ∈ documentedNames) : p.name ∈ keywordNames sig := by
  refine List.mem_append.mpr ((List.mem_append.mp hname).imp_right fun h => ?_)
  exact List.mem_filter.mpr ⟨h, decide_eq_true (Or.inr (List.mem_map_of_mem hp))⟩

/-- **Calls by keyword.** -/
theorem receivesDocumented_keyword (h : sig.Accepts 0 (keywordNames sig)) :
    ReceivesDocumented sig ⟨.keyword, keywordNames sig⟩ ↔ NamedAsDocumented sig := by
  rw [receivesDocumented_keyword_iff fun n hn => keywordNames_documented hn, NamedAsDocumented,
    if_pos h, and_iff_right h]
  exact ⟨fun hall p hp hname => (hall p hp hname).1,
    fun hall p hp hname => ⟨hall p hp hname, mem_keywordNames hp hname⟩⟩

/-- **Calls that were tried with eight positional arguments**, but are made without them. -/
theorem receivesDocumented_mixed (hkeyword : ¬ sig.Accepts 0 (keywordNames sig))
    (htries : TriesMixed sig) (hmixed : sig.Accepts 8 (explicitOptionalNames sig)) :
    ReceivesDocumented sig ⟨.keyword, explicitOptionalNames sig⟩ ↔ NamedAsDocumented sig := by
  rw [receivesDocumented_keyword_iff fun n hn => explicitOptionalNames_documented hn,
    NamedAsDocumented, if_neg hkeyword, if_pos ⟨htries, hmixed⟩]
  have hoptional : ∀ p ∈ sig.parameters, p.name ∈ optionalKwargs →
      p.ByKeyword ∧ p.name ∈ explicitOptionalNames sig := by
    intro p hp hname
    have hmem : p.name ∈ explicitOptionalNames sig :=
      List.mem_filter.mpr ⟨hname, decide_eq_true (List.mem_map_of_mem hp)⟩
    obtain ⟨q, hq, hby, heq⟩ := (hmixed.expected _ hmem).resolve_right htries.1
    rw [← Signature.eq_of_name_eq hq hp heq]
    exact ⟨hby, heq ▸ hmem⟩
  constructor
  · rintro ⟨haccepts, hnames⟩ p hp
    refine ⟨fun hbase => ?_, ?_⟩
    · have hmem := (hnames p hp (List.mem_append_left _ hbase)).2
      exact (List.nodup_append.mp documentedNames_nodup).2.2 _ hbase _
        (List.mem_filter.mp hmem).1 rfl
    · exact (haccepts.given p hp List.not_mem_nil).imp_right
        (Or.imp_right fun hnamed => (List.mem_filter.mp hnamed.2).1)
  · intro hnames
    refine ⟨⟨Or.inl (Nat.zero_le _), fun _ h => absurd h List.not_mem_nil, hmixed.expected,
      fun p hp _ => ?_⟩, fun p hp hname => hoptional p hp ?_⟩
    · exact (hnames p hp).2.imp_right (Or.imp_right (hoptional p hp))
    · exact (List.mem_append.mp hname).resolve_left (hnames p hp).1

/-- **Positional calls.** -/
theorem receivesDocumented_positional (hkeyword : ¬ sig.Accepts 0 (keywordNames sig))
    (hmixed : ¬ (TriesMixed sig ∧ sig.Accepts 8 (explicitOptionalNames sig)))
    (hstyle : style ≠ .keyword) (haccepts : sig.Accepts style.argCount [])
    (hall : min 11 sig.positional.length ≤ style.argCount) :
    ReceivesDocumented sig { callStyle := style } ↔ NamedAsDocumented sig := by
  rw [receivesDocumented_positional_iff hstyle haccepts, NamedAsDocumented, if_neg hkeyword,
    if_neg hmixed]
  have hcount : style.argCount ≤ 11 := by cases style <;> decide
  refine forall₃_congr fun p _ _ => exists_congr fun i => and_congr_left fun ⟨hi, _⟩ => ?_
  have hlt := (List.getElem?_eq_some_iff.mp hi).1
  omega

end Calls

/-- **Calls of bot functions.** A call by the plan of an accepted signature binds and gives every
parameter with a documented name the documented value exactly when the signature is named as
documented. -/
theorem bot_receives_documented {sig : Signature} {plan : BotCallPlan}
    (h : analyzeBotSignature sig = .ok plan) :
    ReceivesDocumented sig plan ↔ NamedAsDocumented sig := by
  rw [analyzeBotSignature] at h
  split_ifs at h
  by_cases hkeyword : sig.Accepts 0 (keywordNames sig)
  · rw [find_keyword hkeyword] at h
    cases h
    exact receivesDocumented_keyword hkeyword
  by_cases hmixed : TriesMixed sig ∧ sig.Accepts 8 (explicitOptionalNames sig)
  · rw [find_mixed hkeyword hmixed.1 hmixed.2] at h
    cases h
    exact receivesDocumented_mixed hkeyword hmixed.1 hmixed.2
  · rw [find_positional hkeyword hmixed] at h
    split at h
    next style count keywords hfind =>
      cases h
      obtain ⟨_, hkey, hmix, heq, haccepts, hall⟩ := find_positionalSpecs hfind
      cases heq
      rw [planOf, if_neg (by simp [hkey, hmix])]
      exact receivesDocumented_positional hkeyword hmixed hkey haccepts hall
    next => cases h

/-- The default template: the documented names up to the path. -/
private def templateBot : Signature where
  parameters := baseNames.map fun name => ⟨name, .positionalOrKeyword, false⟩
  nodup := by decide

/-- The default template receives what is documented. -/
theorem bot_receives_documented_template : ReceivesDocumented templateBot ⟨.keyword, baseNames⟩ :=
  (bot_receives_documented (by decide +kernel)).mpr (by
    rw [NamedAsDocumented, if_pos (by decide +kernel)]
    decide +kernel)

/-- A bot with names of its own and one documented optional name. -/
private def legacyBot : Signature where
  parameters := ["a", "b", "c", "d", "e", "f", "g", "h", "is_outgoing"].map fun name =>
    ⟨name.toList, .positionalOrKeyword, false⟩
  nodup := by decide

/-- It is accepted, and its call raises: the eight positional arguments are left out. -/
theorem legacy_bot_call_raises :
    analyzeBotSignature legacyBot = .ok ⟨.keyword, ["is_outgoing".toList]⟩ ∧
      (callBot legacyBot ⟨.keyword, ["is_outgoing".toList]⟩ default).isNone := by
  decide +kernel

end Bots

end RemoteTerm
