import Mathlib

/-!
# Text replacement

While a message is typed, the keys of a replacement map are replaced in its text
from left to right, the longest first, and the cursor is moved with the text. A
map is accepted when no key stands inside a replacement. A second pass then
changes nothing unless a replacement and what stands next to it make up a key.

## Implementation notes

A text is a list of code units of any kind. The parsed JSON is given as far as
it is looked at: a value that is not a string is `none`. Keys of one length
cannot both stand at one place, so the order of the entries does not matter.
-/

namespace RemoteTerm

namespace TextReplace

variable {α : Type} [DecidableEq α]

/-- What `JSON.parse` makes of the map. -/
inductive ParsedJson (α : Type) where
  | invalid
  | notObject
  | object (entries : List (List α × Option (List α)))

/-- The errors of `setTextReplaceMapJson`. -/
inductive MapError (α : Type) where
  | invalid
  | notObject
  | notStrings
  | reExpands (needle replacement : List α)

/-- The text of an error, the strings of the map inserted by `print`. -/
def MapError.message (print : List α → String) : MapError α → String
  | .invalid => "Invalid JSON."
  | .notObject => "Must be a JSON object."
  | .notStrings => "All keys and values must be strings."
  | .reExpands needle replacement =>
      "Key \"" ++ print needle ++ "\" appears inside replacement \"" ++ print replacement ++
        "\" and would re-expand on every keystroke."

/-- The first key that stands inside a replacement, with the replacement. -/
def reExpansion (entries : List (List α × List α)) : Option (List α × List α) :=
  (entries.flatMap fun e => entries.map fun f => (e.1, f.2)).find? fun p =>
    decide (p.1 ≠ [] ∧ p.1 <:+: p.2)

/-- A map that is accepted: no key stands inside a replacement. -/
structure ReplaceMap (α : Type) where
  entries : List (List α × List α)
  stable : ∀ e ∈ entries, e.1 ≠ [] → ∀ f ∈ entries, ¬ e.1 <:+: f.2

theorem reExpansion_eq_none_iff {entries : List (List α × List α)} :
    reExpansion entries = none ↔ ∀ e ∈ entries, e.1 ≠ [] → ∀ f ∈ entries, ¬ e.1 <:+: f.2 := by
  simp only [reExpansion, List.find?_eq_none, List.mem_flatMap, List.mem_map, decide_eq_true_eq,
    not_and]
  constructor
  · exact fun h e he hne f hf => h _ ⟨e, he, f, hf, rfl⟩ hne
  · rintro h _ ⟨e, he, f, hf, rfl⟩ hne
    exact h e he hne f hf

/-- `setTextReplaceMapJson`. -/
def setTextReplaceMapJson : ParsedJson α → Except (MapError α) (ReplaceMap α)
  | .invalid => .error .invalid
  | .notObject => .error .notObject
  | .object rawEntries =>
      if ∃ e ∈ rawEntries, e.2 = none then .error .notStrings
      else
        let entries := rawEntries.filterMap fun e => e.2.map fun v => (e.1, v)
        match h : reExpansion entries with
        | some (needle, replacement) => .error (.reExpands needle replacement)
        | none => .ok ⟨entries, reExpansion_eq_none_iff.mp h⟩

/-- `buildReplacements`: the longest keys first. -/
def buildReplacements (m : ReplaceMap α) : List (List α × List α) :=
  (m.entries.filter fun e => e.1 ≠ []).mergeSort fun a b => b.1.length ≤ a.1.length

/-- The replacement at the beginning of a text. -/
def matchAt (replacements : List (List α × List α)) (text : List α) : Option (List α × List α) :=
  replacements.find? fun e => decide (e.1 <+: text)

/-- The loop of `applyTextReplacements`, in so many turns: the rest of the text, its place, the
result and the cursor. -/
def replaceLoop (replacements : List (List α × List α)) (cursorPos : Nat) :
    Nat → List α → Nat → List α → Int → List α × Int
  | 0, _, _, result, newCursor => (result, newCursor)
  | _ + 1, [], _, result, newCursor => (result, newCursor)
  | turns + 1, c :: rest, i, result, newCursor =>
      match matchAt replacements (c :: rest) with
      | some (needle, replacement) =>
          let result := result ++ replacement
          let newCursor :=
            if i + needle.length ≤ cursorPos then
              newCursor + (replacement.length - needle.length)
            else if i < cursorPos then (result.length : Int)
            else newCursor
          replaceLoop replacements cursorPos turns ((c :: rest).drop needle.length)
            (i + needle.length) result newCursor
      | none => replaceLoop replacements cursorPos turns rest (i + 1) (result ++ [c]) newCursor

/-- `applyTextReplacements`: the new text and the new cursor, if something changes. -/
def applyTextReplacements (m : ReplaceMap α) (text : List α) (cursorPos : Nat) :
    Option (List α × Int) :=
  let replacements := buildReplacements m
  if replacements = [] then none
  else
    let (result, cursor) := replaceLoop replacements cursorPos text.length text 0 [] cursorPos
    if result = text then none else some (result, cursor)

/-- A piece of the text: a code unit that is kept, or a key with its replacement. -/
inductive Segment (α : Type) where
  | kept (c : α)
  | replaced (needle replacement : List α)

namespace Segment

/-- What the piece was. -/
def input : Segment α → List α
  | kept c => [c]
  | replaced needle _ => needle

/-- What the piece becomes. -/
def output : Segment α → List α
  | kept c => [c]
  | replaced _ replacement => replacement

/-- The piece is replaced. -/
def Replaced : Segment α → Prop
  | kept _ => False
  | replaced _ _ => True

end Segment

/-- The pieces of a text. -/
def segments (replacements : List (List α × List α)) : Nat → List α → List (Segment α)
  | 0, _ => []
  | _ + 1, [] => []
  | turns + 1, c :: rest =>
      match matchAt replacements (c :: rest) with
      | some (needle, replacement) =>
          .replaced needle replacement ::
            segments replacements turns ((c :: rest).drop needle.length)
      | none => .kept c :: segments replacements turns rest

/-- The pieces of a text under a map. -/
def pieces (m : ReplaceMap α) (text : List α) : List (Segment α) :=
  segments (buildReplacements m) text.length text

/-- What pieces become. -/
def outputOf (segs : List (Segment α)) : List α := segs.flatMap Segment.output

/-- The pieces that lie before a place or span it. -/
def upTo : Nat → List (Segment α) → List (Segment α)
  | _, [] => []
  | place, seg :: segs =>
      if 0 < place then seg :: upTo (place - seg.input.length) segs else []

/-- A key is split by an edge of a replacement: it begins right before the edge and goes on right
after it. -/
def KeyAcrossEdge (m : ReplaceMap α) (segs : List (Segment α)) : Prop :=
  ∃ before seg after, segs = before ++ seg :: after ∧ seg.Replaced ∧
    ∃ e ∈ m.entries, ∃ p q, p ≠ [] ∧ q ≠ [] ∧ e.1 = p ++ q ∧
      (p <:+ outputOf before ∧ q <+: outputOf (seg :: after) ∨
        p <:+ outputOf (before ++ [seg]) ∧ q <+: outputOf after)

section Scan

variable {replacements : List (List α × List α)} {text rest : List α} {segs : List (Segment α)}
  {m : ReplaceMap α} {c : α} {turns cursorPos : Nat}

omit [DecidableEq α] in
@[simp] theorem outputOf_nil : outputOf ([] : List (Segment α)) = [] := rfl

omit [DecidableEq α] in
@[simp] theorem outputOf_cons (seg : Segment α) (segs : List (Segment α)) :
    outputOf (seg :: segs) = seg.output ++ outputOf segs := rfl

omit [DecidableEq α] in
@[simp] theorem outputOf_append (before after : List (Segment α)) :
    outputOf (before ++ after) = outputOf before ++ outputOf after := List.flatMap_append

/-- The pieces that a scan from left to right makes. -/
inductive Scans (replacements : List (List α × List α)) : List α → List (Segment α) → Prop where
  | nil : Scans replacements [] []
  | kept {c : α} {rest : List α} {segs : List (Segment α)}
      (hnone : ∀ e ∈ replacements, ¬ e.1 <+: c :: rest) (tail : Scans replacements rest segs) :
      Scans replacements (c :: rest) (.kept c :: segs)
  | replaced {needle replacement rest : List α} {segs : List (Segment α)}
      (hmem : (needle, replacement) ∈ replacements) (tail : Scans replacements rest segs) :
      Scans replacements (needle ++ rest) (.replaced needle replacement :: segs)

omit [DecidableEq α] in
theorem mem_buildReplacements {e : List α × List α} :
    e ∈ buildReplacements m ↔ e ∈ m.entries ∧ e.1 ≠ [] := by
  rw [buildReplacements, (List.mergeSort_perm _ _).mem_iff, List.mem_filter, decide_eq_true_eq]

theorem matchAt_eq_some {e : List α × List α} (h : matchAt replacements text = some e) :
    e ∈ replacements ∧ ∃ rest, text = e.1 ++ rest := by
  have hprefix : e.1 <+: text := by simpa using List.find?_some h
  obtain ⟨rest, hrest⟩ := hprefix
  exact ⟨List.mem_of_find?_eq_some h, rest, hrest.symm⟩

theorem matchAt_eq_none (h : matchAt replacements text = none) :
    ∀ e ∈ replacements, ¬ e.1 <+: text := fun e he => by
  simpa using List.find?_eq_none.mp h e he

theorem scans_segments (hne : ∀ e ∈ replacements, e.1 ≠ []) (hturns : text.length ≤ turns) :
    Scans replacements text (segments replacements turns text) := by
  induction turns generalizing text with
  | zero =>
      rw [List.eq_nil_of_length_eq_zero (Nat.le_zero.mp hturns)]
      exact .nil
  | succ turns ih =>
      cases text with
      | nil => exact .nil
      | cons c rest =>
          rw [List.length_cons] at hturns
          rw [segments]
          cases hmatch : matchAt replacements (c :: rest) with
          | none => exact .kept (matchAt_eq_none hmatch) (ih (by omega))
          | some e =>
              obtain ⟨hmem, after, hafter⟩ := matchAt_eq_some hmatch
              have hlength := congrArg List.length hafter
              have hpos := List.length_pos_iff.mpr (hne e hmem)
              rw [List.length_cons, List.length_append] at hlength
              dsimp only
              rw [hafter, List.drop_left]
              exact .replaced hmem (ih (by omega))

theorem scans_pieces (m : ReplaceMap α) (text : List α) :
    Scans (buildReplacements m) text (pieces m text) :=
  scans_segments (fun _ he => (mem_buildReplacements.mp he).2) le_rfl

/-- The loop appends what the pieces become. -/
theorem replaceLoop_fst (i : Nat) (result : List α) (newCursor : Int) :
    (replaceLoop replacements cursorPos turns text i result newCursor).1 =
      result ++ outputOf (segments replacements turns text) := by
  induction turns generalizing text i result newCursor with
  | zero => simp [replaceLoop, segments]
  | succ turns ih =>
      cases text with
      | nil => simp [replaceLoop, segments]
      | cons c rest =>
          rw [replaceLoop, segments]
          cases matchAt replacements (c :: rest) with
          | none => simp [ih, Segment.output]
          | some e => simp [ih, Segment.output]

/-- Behind the cursor nothing moves it. -/
theorem replaceLoop_snd_after {i : Nat} (hi : cursorPos ≤ i) (result : List α) (newCursor : Int)
    (hne : ∀ e ∈ replacements, e.1 ≠ []) :
    (replaceLoop replacements cursorPos turns text i result newCursor).2 = newCursor := by
  induction turns generalizing text i result with
  | zero => rfl
  | succ turns ih =>
      cases text with
      | nil => rfl
      | cons c rest =>
          rw [replaceLoop]
          cases hmatch : matchAt replacements (c :: rest) with
          | none => exact ih (by omega) _
          | some e =>
              have hpos := List.length_pos_iff.mpr (hne e (matchAt_eq_some hmatch).1)
              dsimp only
              rw [if_neg (by omega), if_neg (by omega)]
              exact ih (by omega) _

/-- **The cursor** ends behind what the pieces before it and around it become. -/
theorem replaceLoop_snd (hne : ∀ e ∈ replacements, e.1 ≠ []) (hturns : text.length ≤ turns)
    {i : Nat} (hi : i ≤ cursorPos) (hcursor : cursorPos ≤ i + text.length) (result : List α) :
    (replaceLoop replacements cursorPos turns text i result
        (cursorPos + (result.length - i))).2 =
      (result ++ outputOf (upTo (cursorPos - i) (segments replacements turns text))).length := by
  induction turns generalizing text i result with
  | zero =>
      have hi' : i = cursorPos := by omega
      simp [replaceLoop, segments, upTo, hi']
  | succ turns ih =>
      rcases Nat.eq_or_lt_of_le hi with rfl | hlt
      · rw [replaceLoop_snd_after le_rfl _ _ hne, Nat.sub_self]
        cases segments replacements (turns + 1) text <;> simp [upTo]
      cases text with
      | nil =>
          rw [List.length_nil] at hcursor
          omega
      | cons c rest =>
          rw [List.length_cons] at hturns hcursor
          have hpos : 0 < cursorPos - i := by omega
          rw [replaceLoop, segments]
          cases hmatch : matchAt replacements (c :: rest) with
          | none =>
              have hnext := ih (show rest.length ≤ turns by omega) (Nat.succ_le_of_lt hlt) (by omega)
                (result ++ [c])
              have hcast : (cursorPos : Int) + (result.length - i) =
                  cursorPos + ((result ++ [c]).length - (i + 1 : Nat)) := by
                rw [List.length_append, List.length_singleton]
                omega
              dsimp only
              rw [hcast, hnext, upTo, if_pos hpos, Segment.input, List.length_singleton,
                Nat.sub_sub, outputOf_cons, Segment.output, List.append_assoc]
          | some e =>
              obtain ⟨hmem, after, hafter⟩ := matchAt_eq_some hmatch
              have hlength := congrArg List.length hafter
              have hkey := List.length_pos_iff.mpr (hne e hmem)
              rw [List.length_cons, List.length_append] at hlength
              dsimp only
              rw [upTo, if_pos hpos, Segment.input, Nat.sub_sub, outputOf_cons, Segment.output,
                ← List.append_assoc, hafter, List.drop_left]
              by_cases hinside : i + e.1.length ≤ cursorPos
              · rw [if_pos hinside]
                have hcast : (cursorPos : Int) + (result.length - i) +
                    (e.2.length - e.1.length) =
                    cursorPos + ((result ++ e.2).length - (i + e.1.length : Nat)) := by
                  rw [List.length_append]
                  omega
                rw [hcast]
                exact ih (by omega) hinside (by omega) _
              · rw [if_neg hinside, if_pos hlt, replaceLoop_snd_after (by omega) _ _ hne,
                  Nat.sub_eq_zero_of_le (by omega)]
                cases segments replacements turns after <;> simp [upTo]

end Scan

section Stable

variable {m : ReplaceMap α} {text out : List α} {segs : List (Segment α)}

/-- A text that is read as kept pieces only. -/
def AllKept (segs : List (Segment α)) : Prop := ∀ seg ∈ segs, ¬ seg.Replaced

omit [DecidableEq α] in
/-- A scan that gives the text back, with something in front or not, has replaced nothing: a
replacement would have to contain its key. -/
theorem allKept_of_output (h : Scans (buildReplacements m) text segs) {front : List α}
    (hout : outputOf segs = front ++ text) : front = [] ∧ AllKept segs := by
  induction h generalizing front with
  | nil => exact ⟨by simpa using hout.symm, by simp [AllKept]⟩
  | @kept c rest segs hnone tail ih =>
      cases front with
      | nil =>
          have htail : outputOf segs = [] ++ rest := (List.cons.inj hout).2
          obtain ⟨-, hkept⟩ := ih htail
          exact ⟨rfl, List.forall_mem_cons.mpr ⟨id, hkept⟩⟩
      | cons d front =>
          have htail : outputOf segs = (front ++ [c]) ++ rest := by
            rw [List.append_assoc, List.singleton_append]
            exact (List.cons.inj hout).2
          exact absurd (ih htail).1 (by simp)
  | @replaced needle replacement rest segs hmem tail ih =>
      obtain ⟨hentry, hne⟩ := mem_buildReplacements.mp hmem
      rw [outputOf_cons, Segment.output, ← List.append_assoc] at hout
      rcases List.append_eq_append_iff.mp hout with ⟨more, hfront, htail⟩ | ⟨more, hfront, htail⟩
      · have hmore : more = [] := (ih htail).1
        rw [hmore, List.append_nil] at hfront
        exact absurd ⟨front, [], by rw [List.append_nil, hfront]⟩
          (m.stable _ hentry hne _ hentry)
      · exact absurd ⟨front, more, hfront.symm⟩ (m.stable _ hentry hne _ hentry)

omit [DecidableEq α] in
/-- A scan that replaces nothing has met no key. -/
theorem not_infix_of_allKept (h : Scans (buildReplacements m) text segs) (hkept : AllKept segs)
    {e : List α × List α} (he : e ∈ buildReplacements m) : ¬ e.1 <:+: text := by
  induction h with
  | nil => exact fun hwithin => (mem_buildReplacements.mp he).2 (List.infix_nil.mp hwithin)
  | @kept c rest segs hnone tail ih =>
      intro hwithin
      rcases List.infix_cons_iff.mp hwithin with hprefix | hrest
      · exact hnone e he hprefix
      · exact ih (List.forall_mem_cons.mp hkept).2 hrest
  | @replaced needle replacement rest segs hmem tail ih =>
      exact absurd trivial (List.forall_mem_cons.mp hkept).1

omit [DecidableEq α] in
/-- A scan that replaces something has met a key. -/
theorem infix_of_not_allKept (h : Scans (buildReplacements m) text segs) (hkept : ¬ AllKept segs) :
    ∃ e ∈ buildReplacements m, e.1 <:+: text := by
  induction h with
  | nil => exact absurd (by simp [AllKept]) hkept
  | @kept c rest segs hnone tail ih =>
      obtain ⟨e, he, hwithin⟩ := ih fun hrest =>
        hkept (List.forall_mem_cons.mpr ⟨id, hrest⟩)
      exact ⟨e, he, hwithin.trans (List.suffix_cons c rest).isInfix⟩
  | @replaced needle replacement rest segs hmem tail ih =>
      exact ⟨_, hmem, (List.prefix_append needle rest).isInfix⟩

omit [DecidableEq α] in
theorem outputOf_allKept (h : Scans (buildReplacements m) text segs) (hkept : AllKept segs) :
    outputOf segs = text := by
  induction h with
  | nil => rfl
  | @kept c rest segs hnone tail ih =>
      rw [outputOf_cons, ih (List.forall_mem_cons.mp hkept).2]
      rfl
  | @replaced needle replacement rest segs hmem tail ih =>
      exact absurd trivial (List.forall_mem_cons.mp hkept).1

/-- The result of a pass, with its cursor. -/
theorem applyTextReplacements_eq (m : ReplaceMap α) {text : List α} {cursorPos : Nat}
    (hcursor : cursorPos ≤ text.length) :
    applyTextReplacements m text cursorPos =
      if outputOf (pieces m text) = text then none
      else some (outputOf (pieces m text),
        ((outputOf (upTo cursorPos (pieces m text))).length : Int)) := by
  have hne : ∀ e ∈ buildReplacements m, e.1 ≠ [] := fun _ he => (mem_buildReplacements.mp he).2
  have hfst : (replaceLoop (buildReplacements m) cursorPos text.length text 0 [] cursorPos).1 =
      outputOf (pieces m text) := replaceLoop_fst 0 [] cursorPos
  have hsnd : (replaceLoop (buildReplacements m) cursorPos text.length text 0 [] cursorPos).2 =
      ((outputOf (upTo cursorPos (pieces m text))).length : Int) := by
    have h := replaceLoop_snd hne (le_refl text.length) (Nat.zero_le cursorPos) (by omega) []
    simpa [pieces] using h
  rw [applyTextReplacements]
  dsimp only
  rw [hfst, hsnd]
  split_ifs with hempty hsame
  · rfl
  · have hkept : AllKept (pieces m text) := by
      by_contra hnot
      obtain ⟨e, he, -⟩ := infix_of_not_allKept (scans_pieces m text) hnot
      rw [hempty] at he
      cases he
    exact absurd (outputOf_allKept (scans_pieces m text) hkept) hsame
  · rfl
  · rfl

/-- A pass changes nothing when no key stands in the text. -/
theorem applyTextReplacements_eq_none_iff (m : ReplaceMap α) {text : List α} {cursorPos : Nat}
    (hcursor : cursorPos ≤ text.length) :
    applyTextReplacements m text cursorPos = none ↔
      ∀ e ∈ m.entries, e.1 ≠ [] → ¬ e.1 <:+: text := by
  have hscans := scans_pieces m text
  have hsame : outputOf (pieces m text) = text ↔ AllKept (pieces m text) :=
    ⟨fun h => (allKept_of_output hscans (h.trans (List.nil_append text).symm)).2,
      outputOf_allKept hscans⟩
  rw [applyTextReplacements_eq m hcursor, ite_eq_left_iff, hsame]
  constructor
  · intro h e he hne
    have hkept : AllKept (pieces m text) := by
      by_contra hnot
      cases h hnot
    exact not_infix_of_allKept hscans hkept (mem_buildReplacements.mpr ⟨he, hne⟩)
  · intro h hnot
    obtain ⟨e, he, hwithin⟩ := infix_of_not_allKept hscans hnot
    obtain ⟨hentry, hne⟩ := mem_buildReplacements.mp he
    exact absurd hwithin (h e hentry hne)

omit [DecidableEq α] in
/-- The rest of a key that is not split by an edge of a replacement stands in the kept text. -/
theorem prefix_of_not_across (h : Scans (buildReplacements m) text segs)
    {e : List α × List α} (he : e ∈ m.entries) {before : List (Segment α)} {p q : List α}
    (hp : p ≠ []) (hkey : e.1 = p ++ q) (hbefore : p <:+ outputOf before)
    (hacross : ¬ KeyAcrossEdge m (before ++ segs)) (hq : q <+: outputOf segs) : q <+: text := by
  induction h generalizing before p q with
  | nil => exact hq
  | @kept c rest segs hnone tail ih =>
      cases q with
      | nil => exact List.nil_prefix
      | cons d q =>
          obtain ⟨rfl, htail⟩ := List.cons_prefix_cons.mp hq
          have hbefore' : p ++ [d] <:+ outputOf (before ++ [.kept d]) := by
            obtain ⟨front, hfront⟩ := hbefore
            exact ⟨front, by simp [← hfront, Segment.output]⟩
          have hacross' : ¬ KeyAcrossEdge m ((before ++ [.kept d]) ++ segs) := by
            simpa using hacross
          have hkey' : e.1 = (p ++ [d]) ++ q := by simp [hkey]
          exact List.cons_prefix_cons.mpr
            ⟨rfl, ih (by simp) hkey' hbefore' hacross' htail⟩
  | @replaced needle replacement rest segs hmem tail ih =>
      cases q with
      | nil => exact List.nil_prefix
      | cons d q =>
          exact absurd ⟨before, _, segs, rfl, trivial, e, he, p, d :: q, hp, by simp, hkey,
            Or.inl ⟨hbefore, hq⟩⟩ hacross

omit [DecidableEq α] in
theorem KeyAcrossEdge.cons (first : Segment α) (h : KeyAcrossEdge m segs) :
    KeyAcrossEdge m (first :: segs) := by
  obtain ⟨before, seg, after, rfl, hreplaced, e, he, p, q, hp, hq, hkey, hsplit⟩ := h
  refine ⟨first :: before, seg, after, rfl, hreplaced, e, he, p, q, hp, hq, hkey, ?_⟩
  have hsuffix : ∀ {segs : List (Segment α)}, p <:+ outputOf segs →
      p <:+ outputOf (first :: segs) := fun h => h.trans (List.suffix_append _ _)
  exact hsplit.imp (And.imp_left hsuffix) (And.imp_left hsuffix)

omit [DecidableEq α] in
/-- A key in the output is split by an edge of a replacement. -/
theorem across_of_within (h : Scans (buildReplacements m) text segs) {e : List α × List α}
    (he : e ∈ m.entries) (hne : e.1 ≠ []) (hwithin : e.1 <:+: outputOf segs) :
    KeyAcrossEdge m segs := by
  induction h with
  | nil => exact absurd (List.infix_nil.mp hwithin) hne
  | @kept c rest segs hnone tail ih =>
      rcases List.infix_cons_iff.mp hwithin with hprefix | hrest
      · by_contra hacross
        obtain ⟨d, q, hkey⟩ := List.exists_cons_of_ne_nil hne
        rw [hkey] at hprefix
        obtain ⟨rfl, hq⟩ := List.cons_prefix_cons.mp hprefix
        have htext : q <+: rest :=
          prefix_of_not_across tail he (List.cons_ne_nil d []) hkey
            (List.suffix_refl (outputOf [.kept d])) hacross hq
        refine hnone e (mem_buildReplacements.mpr ⟨he, hne⟩) ?_
        rw [hkey]
        exact List.cons_prefix_cons.mpr ⟨rfl, htext⟩
      · exact (ih hrest).cons _
  | @replaced needle replacement rest segs hmem tail ih =>
      have hinside : ¬ e.1 <:+: replacement :=
        m.stable e he hne _ (mem_buildReplacements.mp hmem).1
      obtain ⟨front, back, heq⟩ := hwithin
      rw [outputOf_cons, Segment.output, List.append_assoc] at heq
      rcases List.append_eq_append_iff.mp heq with ⟨left, hleft, hright⟩ | ⟨left, hleft, hright⟩
      · rcases List.append_eq_append_iff.mp hright with ⟨cut, hcut, hback⟩ | ⟨cut, hcut, hback⟩
        · exact absurd ⟨front, cut, by rw [hleft, hcut, List.append_assoc]⟩ hinside
        · by_cases hnil : left = []
          · subst hnil
            refine (ih ⟨[], back, ?_⟩).cons _
            rw [List.nil_append, hcut, List.nil_append, hback]
          · have hcutne : cut ≠ [] := by
              rintro rfl
              exact hinside ⟨front, [], by rw [hleft, hcut]; simp⟩
            refine ⟨[], _, segs, rfl, trivial, e, he, left, cut, hnil, hcutne, hcut, Or.inr ?_⟩
            exact ⟨⟨front, by simp [Segment.output, hleft]⟩, back, hback.symm⟩
      · exact (ih ⟨left, back, by rw [hright, List.append_assoc]⟩).cons _

omit [DecidableEq α] in
theorem infix_of_across (h : KeyAcrossEdge m segs) :
    ∃ e ∈ m.entries, e.1 ≠ [] ∧ e.1 <:+: outputOf segs := by
  obtain ⟨before, seg, after, rfl, -, e, he, p, q, hp, -, hkey, hsplit⟩ := h
  refine ⟨e, he, by simp [hkey, hp], ?_⟩
  rw [hkey]
  rcases hsplit with ⟨⟨front, hfront⟩, back, hback⟩ | ⟨⟨front, hfront⟩, back, hback⟩
  · exact ⟨front, back, by rw [outputOf_append, ← hfront, ← hback]; simp⟩
  · have hsplit : outputOf (before ++ seg :: after) =
        outputOf (before ++ [seg]) ++ outputOf after := by simp
    exact ⟨front, back, by rw [hsplit, ← hfront, ← hback]; simp⟩

omit [DecidableEq α] in
/-- A key of one code unit cannot be split. -/
theorem not_across_of_single (h : ∀ e ∈ m.entries, e.1.length ≤ 1) : ¬ KeyAcrossEdge m segs := by
  rintro ⟨before, seg, after, -, -, e, he, p, q, hp, hq, hkey, -⟩
  have hlength := h e he
  have hp' := List.length_pos_iff.mpr hp
  have hq' := List.length_pos_iff.mpr hq
  rw [hkey, List.length_append] at hlength
  omega

omit [DecidableEq α] in
theorem upTo_prefix (place : Nat) (segs : List (Segment α)) : upTo place segs <+: segs := by
  induction segs generalizing place with
  | nil => exact List.prefix_refl _
  | cons seg segs ih =>
      rw [upTo]
      split_ifs
      · exact (List.prefix_cons_inj seg).mpr (ih _)
      · exact List.nil_prefix

/-- The pieces make up the text. -/
theorem input_pieces (m : ReplaceMap α) (text : List α) :
    (pieces m text).flatMap Segment.input = text := by
  have h := scans_pieces m text
  generalize pieces m text = segs at h
  induction h with
  | nil => rfl
  | kept _ _ ih => exact congrArg (_ :: ·) ih
  | replaced _ _ ih => exact congrArg (_ ++ ·) ih

end Stable

/-- What is wanted of a pass: a second pass changes nothing, and the cursor stands behind what the
pieces before it and around it became. -/
structure StablePass (m : ReplaceMap α) (text : List α) (cursorPos : Nat) (out : List α)
    (cursor : Int) : Prop where
  again : ∀ place ≤ out.length, applyTextReplacements m out place = none
  inside : cursor ≤ out.length
  behind : cursor = (outputOf (upTo cursorPos (pieces m text))).length

/-- **Text replacement.** A pass is stable exactly when no key is split by an edge of a replacement in
its output. -/
theorem text_replacement_stable (m : ReplaceMap α) {text out : List α} {cursorPos : Nat}
    {cursor : Int} (hcursor : cursorPos ≤ text.length)
    (h : applyTextReplacements m text cursorPos = some (out, cursor)) :
    StablePass m text cursorPos out cursor ↔ ¬ KeyAcrossEdge m (pieces m text) := by
  rw [applyTextReplacements_eq m hcursor] at h
  split_ifs at h
  cases h
  have hscans := scans_pieces m text
  constructor
  · intro hstable hacross
    obtain ⟨e, he, hne, hwithin⟩ := infix_of_across hacross
    have hnone := hstable.again 0 (Nat.zero_le _)
    exact (applyTextReplacements_eq_none_iff m (Nat.zero_le _)).mp hnone e he hne hwithin
  · intro hacross
    refine ⟨fun place hplace => ?_, ?_, rfl⟩
    · refine (applyTextReplacements_eq_none_iff m hplace).mpr fun e he hne hwithin => ?_
      exact hacross (across_of_within hscans he hne hwithin)
    · obtain ⟨rest, hrest⟩ := upTo_prefix cursorPos (pieces m text)
      have hlength := congrArg (fun segs => (outputOf segs).length) hrest
      simp only [outputOf_append, List.length_append] at hlength
      omega

/-- A Cyrillic letter that is replaced by a Latin one. -/
private def letterMap : ReplaceMap Char where
  entries := [(['\u0430'], ['a'])]
  stable := by decide

theorem text_replacement_stable_letter :
    StablePass letterMap ['b', '\u0430'] 2 ['b', 'a'] 2 :=
  (text_replacement_stable letterMap (by decide) (by decide +kernel)).mpr
    (not_across_of_single (by decide))

/-- A key that is removed leaves another one behind. -/
theorem removed_key_again :
    (match setTextReplaceMapJson (.object [(['a', 'b'], some [])]) with
      | .ok m => (applyTextReplacements m ['a', 'a', 'b', 'b'] 0,
          applyTextReplacements m ['a', 'b'] 0)
      | .error _ => (none, none)) = (some (['a', 'b'], 0), some ([], 0)) := by
  decide +kernel

end TextReplace

end RemoteTerm
