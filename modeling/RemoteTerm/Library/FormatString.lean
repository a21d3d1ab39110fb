import Mathlib.Data.List.Basic
import RemoteTerm.Library.Text

/-!
# Format strings

`string.Formatter().parse`: a format string is read as literal texts and
replacement fields; a doubled brace is read as literal text that ends with one
brace. A field is a name, a conversion and a format spec, whose braces are
counted.

## Implementation notes

The fields are yielded one by one, so an error comes with the items before it.
Literal text without braces is read back as it was printed; text that was read
from a doubled brace is not.
-/

namespace Library

namespace FormatString

/-- A replacement field. -/
structure Field where
  name : Text
  spec : Text := []
  conversion : Option Char := none
  deriving DecidableEq

/-- Literal text and the field behind it. -/
structure Item where
  literal : Text
  field : Option Field := none
  deriving DecidableEq

/-- A brace. -/
def IsBrace (c : Char) : Prop := c = '{' ∨ c = '}'

instance : DecidablePred IsBrace := fun _ => inferInstanceAs (Decidable (_ ∨ _))

/-- The end of a field name. -/
def EndsName (c : Char) : Prop := c = '}' ∨ c = ':' ∨ c = '!'

instance : DecidablePred EndsName := fun _ => inferInstanceAs (Decidable (_ ∨ _))

/-- A field name, the character that ends it and the rest; characters in square brackets do not end
it. -/
def scanName : Bool → Text → Except Text (Text × Char × Text)
  | _, [] => .error "expected '\x7d' before end of string".toList
  | true, c :: rest => (scanName (c ≠ ']') rest).map fun (name, d) => (c :: name, d)
  | false, c :: rest =>
      if c = '{' then .error "unexpected '\x7b' in field name".toList
      else if EndsName c then .ok ([], c, rest)
      else (scanName (c = '[') rest).map fun (name, d) => (c :: name, d)

/-- A format spec up to the brace that closes the field, inside a number of open braces. -/
def scanSpec : Nat → Text → Except Text (Text × Text)
  | _, [] => .error "unmatched '\x7b' in format spec".toList
  | depth, c :: rest =>
      if c = '}' then
        match depth with
        | 0 => .ok ([], rest)
        | depth + 1 => (scanSpec depth rest).map fun (spec, d) => (c :: spec, d)
      else (scanSpec (if c = '{' then depth + 1 else depth) rest).map fun (spec, d) =>
        (c :: spec, d)

/-- A conversion; the character `NUL` is none. -/
def conversionOf (c : Char) : Option Char := if c = '\x00' then none else some c

/-- What follows the exclamation mark of a field. -/
def parseConversion (name : Text) : Text → Except Text (Field × Text)
  | [] => .error "end of string while looking for conversion specifier".toList
  | [_] => .error "unmatched '\x7b' in format spec".toList
  | c :: d :: rest =>
      if d = '}' then .ok (⟨name, [], conversionOf c⟩, rest)
      else if d = ':' then (scanSpec 0 rest).map fun (spec, r) => (⟨name, spec, conversionOf c⟩, r)
      else .error "expected ':' after conversion specifier".toList

/-- The field behind an opening brace. -/
def parseField (input : Text) : Except Text (Field × Text) :=
  match scanName false input with
  | .error e => .error e
  | .ok (name, c, rest) =>
      if c = '}' then .ok (⟨name, [], none⟩, rest)
      else if c = '!' then parseConversion name rest
      else (scanSpec 0 rest).map fun (spec, r) => (⟨name, spec, none⟩, r)

/-- The next item. -/
def nextItem : Text → Except Text (Item × Text)
  | [] => .ok (⟨[], none⟩, [])
  | [c] =>
      if c = '{' then .error "Single '\x7b' encountered in format string".toList
      else if c = '}' then .error "Single '\x7d' encountered in format string".toList
      else .ok (⟨[c], none⟩, [])
  | c :: d :: rest =>
      if IsBrace c then
        if d = c then .ok (⟨[c], none⟩, rest)
        else if c = '}' then .error "Single '\x7d' encountered in format string".toList
        else (parseField (d :: rest)).map fun (f, r) => (⟨[], some f⟩, r)
      else (nextItem (d :: rest)).map fun (item, r) => ({ item with literal := c :: item.literal }, r)

/-- The items that are yielded, and the error after them. -/
def parseFrom : Nat → Text → List Item × Option Text
  | 0, _ => ([], none)
  | _ + 1, [] => ([], none)
  | fuel + 1, input =>
      match nextItem input with
      | .error e => ([], some e)
      | .ok (item, rest) =>
          let (items, e) := parseFrom fuel rest
          (item :: items, e)

/-- `string.Formatter().parse`. -/
def parse (input : Text) : List Item × Option Text := parseFrom input.length input

/-- A field as it is written. -/
def Field.print (f : Field) : Text :=
  f.name ++ (f.conversion.elim [] fun c => ['!', c]) ++
    if f.spec = [] then [] else ':' :: f.spec

/-- An item as it is written, its literal text taken as it is. -/
def Item.print (item : Item) : Text :=
  item.literal ++ item.field.elim [] fun f => '{' :: f.print ++ ['}']

/-- Items as they are written. -/
def printItems (items : List Item) : Text := items.flatMap Item.print

/-- An item whose field has another name. -/
def Item.rename (g : Text → Text) (item : Item) : Item :=
  { item with field := item.field.map fun f => { f with name := g f.name } }

/-- Literal text without braces. -/
def Item.Plain (item : Item) : Prop := ∀ c ∈ item.literal, ¬ IsBrace c

instance (item : Item) : Decidable item.Plain :=
  List.decidableBAll (fun c => ¬ IsBrace c) item.literal

/-- A name that is read as it is written. -/
def SimpleName (name : Text) : Prop := ∀ c ∈ name, ¬ IsBrace c ∧ ¬ EndsName c ∧ c ≠ '['

/-- A field that can be read: its name is simple, its spec closed and its conversion a character. -/
structure Field.Readable (f : Field) : Prop where
  name : SimpleName f.name
  spec : ∀ rest, scanSpec 0 (f.spec ++ '}' :: rest) = .ok (f.spec, rest)
  conversion : f.conversion ≠ some '\x00'

section Reading

variable {name spec input rest : Text} {f : Field} {item : Item} {depth : Nat} {c : Char}

theorem scanName_simple (h : SimpleName name) (hc : EndsName c) :
    scanName false (name ++ c :: rest) = .ok (name, c, rest) := by
  induction name with
  | nil =>
      have hne : c ≠ '{' := by rintro rfl; revert hc; decide
      rw [List.nil_append, scanName, if_neg hne, if_pos hc]
  | cons d name ih =>
      obtain ⟨hbrace, hends, hbracket⟩ := h d List.mem_cons_self
      rw [List.cons_append, scanName, if_neg fun heq => hbrace (Or.inl heq), if_neg hends,
        decide_eq_false hbracket, ih fun e he => h e (List.mem_cons_of_mem d he)]
      rfl

theorem map_cons_eq_ok {r : Except Text (Text × Text)}
    (h : (r.map fun (spec, d) => (c :: spec, d)) = .ok (spec, rest)) :
    ∃ tail, spec = c :: tail ∧ r = .ok (tail, rest) := by
  cases r with
  | error e => cases h
  | ok r =>
      cases h
      exact ⟨r.1, rfl, rfl⟩

theorem scanSpec_other (hc : c ≠ '}') (depth : Nat) (input : Text) :
    scanSpec depth (c :: input) =
      (scanSpec (if c = '{' then depth + 1 else depth) input).map fun (spec, d) =>
        (c :: spec, d) := by
  cases depth <;> rw [scanSpec, if_neg hc]

/-- A spec is read from its own characters. -/
theorem scanSpec_ok (h : scanSpec depth input = .ok (spec, rest)) :
    input = spec ++ '}' :: rest ∧
      ∀ rest', scanSpec depth (spec ++ '}' :: rest') = .ok (spec, rest') := by
  induction input generalizing depth spec with
  | nil => cases depth <;> cases h
  | cons c input ih =>
      by_cases hc : c = '}'
      · subst hc
        cases depth with
        | zero =>
            cases h
            exact ⟨rfl, fun _ => rfl⟩
        | succ depth =>
            obtain ⟨tail, rfl, htail⟩ := map_cons_eq_ok h
            obtain ⟨heq, hread⟩ := ih htail
            refine ⟨by rw [heq]; rfl, fun rest' => ?_⟩
            exact congrArg (Except.map _) (hread rest')
      · rw [scanSpec_other hc] at h
        obtain ⟨tail, rfl, htail⟩ := map_cons_eq_ok h
        obtain ⟨heq, hread⟩ := ih htail
        refine ⟨by rw [heq]; rfl, fun rest' => ?_⟩
        rw [List.cons_append, scanSpec_other hc, hread rest']
        rfl

theorem print_of_spec (hspec : f.spec ≠ []) :
    f.print = f.name ++ ((f.conversion.elim [] fun c => ['!', c]) ++ ':' :: f.spec) := by
  rw [Field.print, if_neg hspec, List.append_assoc]

theorem print_of_no_spec (hspec : f.spec = []) :
    f.print = f.name ++ f.conversion.elim [] fun c => ['!', c] := by
  rw [Field.print, if_pos hspec, List.append_nil]

/-- A readable field is read as it is written. -/
theorem parseField_print (h : f.Readable) (rest : Text) :
    parseField (f.print ++ '}' :: rest) = .ok (f, rest) := by
  obtain ⟨name, spec, conversion⟩ := f
  have hconversion : ∀ c, conversion = some c → conversionOf c = some c := fun c hc =>
    if_neg fun hnul => h.conversion (by rw [hc, hnul])
  cases conversion with
  | none =>
      by_cases hspec : spec = []
      · subst hspec
        rw [print_of_no_spec rfl, Option.elim_none, List.append_nil, parseField,
          scanName_simple h.name (Or.inl rfl)]
        rfl
      · rw [print_of_spec hspec, Option.elim_none, List.nil_append, List.append_assoc,
          List.cons_append, parseField, scanName_simple h.name (Or.inr (Or.inl rfl))]
        change (scanSpec 0 (spec ++ '}' :: rest)).map _ = _
        rw [h.spec rest]
        rfl
  | some c =>
      by_cases hspec : spec = []
      · subst hspec
        rw [print_of_no_spec rfl, Option.elim_some, List.append_assoc, List.cons_append,
          parseField, scanName_simple h.name (Or.inr (Or.inr rfl))]
        change Except.ok (Field.mk name [] (conversionOf c), rest) = _
        rw [hconversion c rfl]
      · rw [print_of_spec hspec, Option.elim_some, List.append_assoc, List.append_assoc,
          List.cons_append, parseField, scanName_simple h.name (Or.inr (Or.inr rfl))]
        change (scanSpec 0 (spec ++ '}' :: rest)).map _ = _
        rw [h.spec rest]
        change Except.ok (Field.mk name spec (conversionOf c), rest) = _
        rw [hconversion c rfl]

/-- What is known of a field that was read, whatever its name: it is closed by a brace, and it can
be written with another name in as many characters or fewer. -/
structure ReadFrom (input : Text) (f : Field) (rest : Text) : Prop where
  spec : ∀ rest', scanSpec 0 (f.spec ++ '}' :: rest') = .ok (f.spec, rest')
  conversion : f.conversion ≠ some '\x00'
  raw : ∃ raw, input = raw ++ '}' :: rest ∧ f.print.length ≤ raw.length

theorem scanName_ok {inside : Bool} (h : scanName inside input = .ok (name, c, rest)) :
    input = name ++ c :: rest ∧ EndsName c := by
  have hmap : ∀ {d : Char} {r : Except Text (Text × Char × Text)} {name : Text},
      (r.map fun (name, e) => (d :: name, e)) = .ok (name, c, rest) →
        ∃ tail, name = d :: tail ∧ r = .ok (tail, c, rest) := by
    intro d r name h
    cases r with
    | error e => cases h
    | ok r =>
        obtain ⟨tail, d⟩ := r
        cases h
        exact ⟨tail, rfl, rfl⟩
  induction input generalizing inside name with
  | nil => cases inside <;> cases h
  | cons d input ih =>
      cases inside with
      | true =>
          obtain ⟨tail, rfl, htail⟩ := hmap h
          obtain ⟨heq, hends⟩ := ih htail
          exact ⟨by rw [heq]; rfl, hends⟩
      | false =>
          rw [scanName] at h
          split_ifs at h with hbrace hends
          · cases h
            exact ⟨rfl, hends⟩
          · obtain ⟨tail, rfl, htail⟩ := hmap h
            obtain ⟨heq, hends⟩ := ih htail
            exact ⟨by rw [heq]; rfl, hends⟩

theorem conversionOf_ne (c : Char) : conversionOf c ≠ some '\x00' := by
  unfold conversionOf
  split_ifs with h
  · simp
  · simpa using h

theorem length_conversionOf (c : Char) :
    ((conversionOf c).elim [] fun c => ['!', c]).length ≤ 2 := by
  unfold conversionOf
  split_ifs <;> simp

theorem length_print_le (f : Field) :
    f.print.length ≤
      f.name.length + (f.conversion.elim [] fun c => ['!', c]).length + (1 + f.spec.length) := by
  rw [Field.print, List.length_append, List.length_append]
  split_ifs with h
  · simp
  · rw [List.length_cons]
    omega

theorem map_field_eq_ok {r : Except Text (Text × Text)} {conversion : Option Char}
    (h : (r.map fun (spec, d) => ((⟨name, spec, conversion⟩ : Field), d)) = .ok (f, rest)) :
    r = .ok (f.spec, rest) ∧ f.name = name ∧ f.conversion = conversion := by
  cases r with
  | error e => cases h
  | ok r =>
      cases h
      exact ⟨rfl, rfl, rfl⟩

/-- A field is read from its own characters. -/
theorem parseField_ok (h : parseField input = .ok (f, rest)) : ReadFrom input f rest := by
  rw [parseField] at h
  split at h
  next => cases h
  next name c tail hname =>
    obtain ⟨rfl, hends⟩ := scanName_ok hname
    split_ifs at h with hclose hmark
    · cases h
      subst hclose
      exact ⟨fun _ => rfl, by simp, name, rfl, by simp [Field.print]⟩
    · subst hmark
      unfold parseConversion at h
      split at h
      next => cases h
      next => cases h
      next c d after =>
        split_ifs at h with hd hd
        · cases h
          subst hd
          have hlen := length_conversionOf c
          refine ⟨fun _ => rfl, conversionOf_ne c, name ++ ['!', c], by simp, ?_⟩
          rw [print_of_no_spec rfl, List.length_append, List.length_append]
          exact Nat.add_le_add_left hlen _
        · subst hd
          obtain ⟨hspec, hfname, hconversion⟩ := map_field_eq_ok h
          obtain ⟨rfl, hread⟩ := scanSpec_ok hspec
          have hlen := length_conversionOf c
          have hle := length_print_le f
          refine ⟨hread, hconversion ▸ conversionOf_ne c, name ++ '!' :: c :: ':' :: f.spec,
            by simp, hle.trans ?_⟩
          rw [hfname, hconversion]
          simp only [List.length_append, List.length_cons]
          omega
    · obtain ⟨hspec, hfname, hconversion⟩ := map_field_eq_ok h
      obtain ⟨rfl, hread⟩ := scanSpec_ok hspec
      have hle := length_print_le f
      refine ⟨hread, by simp [hconversion], name ++ c :: f.spec, by simp, hle.trans ?_⟩
      rw [hfname, hconversion]
      simp only [List.length_append, List.length_cons, Option.elim_none, List.length_nil]
      omega

/-- What an item was read from. -/
inductive ItemFrom (input : Text) : Item → Text → Prop where
  | field {literal : Text} {f : Field} {tail rest : Text} (plain : ∀ c ∈ literal, ¬ IsBrace c)
      (heq : input = literal ++ '{' :: tail) (hread : ReadFrom tail f rest) :
      ItemFrom input ⟨literal, some f⟩ rest
  | doubled {literal : Text} {c : Char} {rest : Text} (brace : IsBrace c)
      (heq : input = literal ++ c :: c :: rest) : ItemFrom input ⟨literal ++ [c], none⟩ rest
  | text (plain : ∀ c ∈ input, ¬ IsBrace c) : ItemFrom input ⟨input, none⟩ []

theorem ItemFrom.cons (hc : ¬ IsBrace c) (h : ItemFrom input item rest) :
    ItemFrom (c :: input) { item with literal := c :: item.literal } rest := by
  cases h with
  | field plain heq hread =>
      exact .field (List.forall_mem_cons.mpr ⟨hc, plain⟩) (congrArg (c :: ·) heq) hread
  | @doubled literal d rest brace heq =>
      rw [heq]
      exact @ItemFrom.doubled _ (c :: literal) _ _ brace rfl
  | text plain => exact .text (List.forall_mem_cons.mpr ⟨hc, plain⟩)

/-- An item is read from its own characters. -/
theorem nextItem_ok (h : nextItem input = .ok (item, rest)) : ItemFrom input item rest := by
  induction input using nextItem.induct generalizing item rest with
  | case1 =>
      cases h
      exact .text (by simp)
  | case2 => simp [nextItem] at h
  | case3 => simp [nextItem] at h
  | case4 c hopen hclose =>
      rw [nextItem, if_neg hopen, if_neg hclose] at h
      cases h
      exact .text (by simp [IsBrace, hopen, hclose])
  | case5 d tail hbrace =>
      rw [nextItem, if_pos hbrace, if_pos rfl] at h
      cases h
      exact @ItemFrom.doubled _ [] _ _ hbrace rfl
  | case6 d tail hbrace hne =>
      rw [nextItem, if_pos hbrace, if_neg hne, if_pos rfl] at h
      cases h
  | case7 c d tail hbrace hne hclose =>
      rw [nextItem, if_pos hbrace, if_neg hne, if_neg hclose] at h
      obtain rfl := hbrace.resolve_right hclose
      cases hfield : parseField (d :: tail) with
      | error e =>
          rw [hfield] at h
          cases h
      | ok r =>
          rw [hfield] at h
          cases h
          exact @ItemFrom.field _ [] _ _ _ (by simp) rfl (parseField_ok hfield)
  | case8 c d tail hbrace ih =>
      rw [nextItem, if_neg hbrace] at h
      cases hnext : nextItem (d :: tail) with
      | error e =>
          rw [hnext] at h
          cases h
      | ok r =>
          rw [hnext] at h
          cases h
          exact (ih hnext).cons hbrace

/-- Literal text without braces is read as it is written, up to the field behind it. -/
theorem nextItem_print {literal : Text} (hplain : ∀ c ∈ literal, ¬ IsBrace c) (h : f.Readable)
    (hname : f.name ≠ []) (rest : Text) :
    nextItem (literal ++ '{' :: (f.print ++ '}' :: rest)) = .ok (⟨literal, some f⟩, rest) := by
  induction literal with
  | nil =>
      have hread := parseField_print h rest
      obtain ⟨c, name, hcons⟩ := List.exists_cons_of_ne_nil hname
      have hprint : f.print ++ '}' :: rest =
          c :: (name ++ (f.conversion.elim [] fun c => ['!', c]) ++
            (if f.spec = [] then [] else ':' :: f.spec) ++ '}' :: rest) := by
        rw [Field.print, hcons]
        rfl
      have hopen : c ≠ '{' := fun heq =>
        (h.name c (hcons ▸ List.mem_cons_self)).1 (Or.inl heq)
      have hbrace : IsBrace '{' := Or.inl rfl
      rw [hprint] at hread ⊢
      rw [List.nil_append, nextItem, if_pos hbrace, if_neg hopen, if_neg (by decide), hread]
      rfl
  | cons c literal ih =>
      obtain ⟨hc, hrest⟩ := List.forall_mem_cons.mp hplain
      have hne : literal ++ '{' :: (f.print ++ '}' :: rest) ≠ [] := by simp
      obtain ⟨d, tail, hcons⟩ := List.exists_cons_of_ne_nil hne
      have hnext := ih hrest
      rw [List.cons_append, hcons, nextItem, if_neg hc, ← hcons, hnext]
      rfl

theorem nextItem_text {literal : Text} (hplain : ∀ c ∈ literal, ¬ IsBrace c) :
    nextItem literal = .ok (⟨literal, none⟩, []) := by
  induction literal with
  | nil => rfl
  | cons c literal ih =>
      obtain ⟨hc, hrest⟩ := List.forall_mem_cons.mp hplain
      cases literal with
      | nil =>
          rw [nextItem, if_neg fun h => hc (Or.inl h), if_neg fun h => hc (Or.inr h)]
      | cons d literal =>
          rw [nextItem, if_neg hc, ih hrest]
          rfl

end Reading

section Parsing

variable {input rest : Text} {item : Item} {items : List Item}

/-- A text that is read to its end without an error. -/
inductive Reads : Text → List Item → Prop where
  | nil : Reads [] []
  | cons {input rest : Text} {item : Item} {items : List Item} (hne : input ≠ [])
      (hitem : nextItem input = .ok (item, rest)) (htail : Reads rest items) :
      Reads input (item :: items)

theorem ItemFrom.length_lt (h : ItemFrom input item rest) (hne : input ≠ []) :
    rest.length < input.length := by
  cases h with
  | field plain heq hread =>
      obtain ⟨raw, hraw, -⟩ := hread.raw
      simp only [heq, hraw, List.length_append, List.length_cons]
      omega
  | doubled brace heq =>
      simp only [heq, List.length_append, List.length_cons]
      omega
  | text plain => exact List.length_pos_iff.mpr hne

theorem parseFrom_eq_iff {fuel : Nat} (hfuel : input.length ≤ fuel) :
    parseFrom fuel input = (items, none) ↔ Reads input items := by
  induction fuel generalizing input items with
  | zero =>
      obtain rfl : input = [] := List.eq_nil_of_length_eq_zero (Nat.le_zero.mp hfuel)
      refine ⟨fun h => ?_, fun h => ?_⟩
      · cases h
        exact .nil
      · cases h with
        | nil => rfl
        | cons hne => exact absurd rfl hne
  | succ fuel ih =>
      by_cases hne : input = []
      · subst hne
        refine ⟨fun h => ?_, fun h => ?_⟩
        · cases h
          exact .nil
        · cases h with
          | nil => rfl
          | cons hne => exact absurd rfl hne
      · have hstep : parseFrom (fuel + 1) input =
            match nextItem input with
            | .error e => ([], some e)
            | .ok (item, rest) =>
                (item :: (parseFrom fuel rest).1, (parseFrom fuel rest).2) := by
          cases input with
          | nil => exact absurd rfl hne
          | cons c rest => rfl
        rw [hstep]
        cases hnext : nextItem input with
        | error e =>
            refine ⟨fun h => absurd (congrArg Prod.snd h) (Option.some_ne_none e), fun h => ?_⟩
            cases h with
            | nil => exact absurd rfl hne
            | cons _ hitem => rw [hnext] at hitem; cases hitem
        | ok r =>
            obtain ⟨item, rest⟩ := r
            have hlt := (nextItem_ok hnext).length_lt hne
            have hrest : rest.length ≤ fuel := by omega
            constructor
            · intro h
              obtain ⟨hitems, herr⟩ := Prod.mk.inj h
              rw [← hitems]
              exact .cons hne hnext ((ih hrest).mp (Prod.ext rfl herr))
            · intro h
              cases h with
              | nil => exact absurd rfl hne
              | cons _ hitem htail =>
                  rw [hnext] at hitem
                  cases hitem
                  change (item :: (parseFrom fuel rest).1, (parseFrom fuel rest).2) = _
                  rw [(ih hrest).mpr htail]

theorem parse_eq_iff : parse input = (items, none) ↔ Reads input items :=
  parseFrom_eq_iff le_rfl

section Printing

variable {g : Text → Text}

theorem Reads.eq_nil (h : Reads [] items) : items = [] := by
  cases h with
  | nil => rfl
  | cons hne => exact absurd rfl hne

theorem ReadFrom.rename {f : Field} (h : ReadFrom input f rest) (hname : SimpleName (g f.name)) :
    ({ f with name := g f.name } : Field).Readable :=
  ⟨hname, h.spec, h.conversion⟩

theorem printItems_field (literal : Text) (f : Field) (items : List Item) :
    printItems (⟨literal, some f⟩ :: items) =
      literal ++ '{' :: (f.print ++ '}' :: printItems items) := by
  simp [printItems, Item.print]

/-- **Round trip**: items without doubled braces are read back as they are written, also under other
simple names. -/
theorem Reads.rename (h : Reads input items) (hplain : ∀ item ∈ items, item.Plain)
    (hnames : ∀ item ∈ items, ∀ f ∈ item.field, SimpleName (g f.name) ∧ g f.name ≠ []) :
    Reads (printItems (items.map (Item.rename g))) (items.map (Item.rename g)) := by
  induction h with
  | nil => exact .nil
  | @cons input rest item items hne hitem htail ih =>
      obtain ⟨hplain, hrest⟩ := List.forall_mem_cons.mp hplain
      obtain ⟨hname, hnames⟩ := List.forall_mem_cons.mp hnames
      have htail' := ih hrest hnames
      cases nextItem_ok hitem with
      | @field literal f tail _ _ _ hread =>
          obtain ⟨hsimple, hpos⟩ := hname f rfl
          have hnext := nextItem_print hplain (hread.rename hsimple) hpos
            (printItems (items.map (Item.rename g)))
          refine .cons (by simp [Item.rename, printItems_field]) ?_ htail'
          rw [List.map_cons, Item.rename, Option.map_some, printItems_field]
          exact hnext
      | doubled hbrace => exact absurd hbrace (hplain _ (by simp))
      | text htext =>
          cases htail.eq_nil
          refine .cons ?_ ?_ .nil
          · simpa [Item.rename, printItems, Item.print] using hne
          · simpa [Item.rename, printItems, Item.print] using nextItem_text htext

/-- Items without doubled braces start and end as the text that they were read from. -/
theorem Reads.ends (h : Reads input items) (hplain : ∀ item ∈ items, item.Plain) :
    (printItems (items.map (Item.rename g))).head? = input.head? ∧
      (printItems (items.map (Item.rename g))).getLast? = input.getLast? := by
  induction h with
  | nil => exact ⟨rfl, rfl⟩
  | @cons input rest item items hne hitem htail ih =>
      obtain ⟨hplain, hrest⟩ := List.forall_mem_cons.mp hplain
      obtain ⟨-, hlast⟩ := ih hrest
      cases nextItem_ok hitem with
      | @field literal f tail _ _ heq hread =>
          obtain ⟨raw, hraw, -⟩ := hread.raw
          rw [List.map_cons, Item.rename, Option.map_some, printItems_field, heq, hraw]
          constructor
          · cases literal <;> rfl
          · simp only [List.getLast?_append, List.getLast?_cons, hlast, Option.some_or]
      | doubled hbrace => exact absurd hbrace (hplain _ (by simp))
      | text =>
          cases htail.eq_nil
          simp [Item.rename, printItems, Item.print]

/-- Names that are not longer make a text that is not longer; it is shorter when a doubled brace was
read. -/
theorem Reads.length_le (h : Reads input items)
    (hnames : ∀ item ∈ items, ∀ f ∈ item.field, (g f.name).length ≤ f.name.length) :
    (printItems (items.map (Item.rename g))).length ≤ input.length ∧
      (input.length ≤ (printItems (items.map (Item.rename g))).length →
        ∀ item ∈ items, item.Plain) := by
  induction h with
  | nil => exact ⟨le_rfl, fun _ => by simp⟩
  | @cons input rest item items hne hitem htail ih =>
      obtain ⟨hname, hnames⟩ := List.forall_mem_cons.mp hnames
      obtain ⟨hle, hplain⟩ := ih hnames
      cases nextItem_ok hitem with
      | @field literal f tail _ hliteral heq hread =>
          obtain ⟨raw, hraw, hlen⟩ := hread.raw
          have hshort : ({ f with name := g f.name } : Field).print.length ≤ f.print.length := by
            have := hname f rfl
            simp only [Field.print, List.length_append]
            omega
          rw [List.map_cons, Item.rename, Option.map_some, printItems_field, heq, hraw]
          simp only [List.length_append, List.length_cons]
          refine ⟨by omega, fun hge => List.forall_mem_cons.mpr ⟨hliteral, hplain (by omega)⟩⟩
      | @doubled literal c _ hbrace heq =>
          have hprint : (printItems ((⟨literal ++ [c], none⟩ :: items).map (Item.rename g))).length =
              literal.length + 1 + (printItems (items.map (Item.rename g))).length := by
            simp [printItems, Item.rename, Item.print, Nat.add_assoc,
              Nat.add_comm 1]
          rw [hprint, heq]
          simp only [List.length_append, List.length_cons]
          exact ⟨by omega, fun hge => absurd hge (by omega)⟩
      | text hliteral =>
          cases htail.eq_nil
          refine ⟨by simp [Item.rename, printItems, Item.print], fun _ => ?_⟩
          exact List.forall_mem_cons.mpr ⟨hliteral, by simp⟩

end Printing

end Parsing

end FormatString

end Library
