import RemoteTerm.Library.Trim
import RemoteTerm.Send.SplitText

/-!
# The region dump of a repeater

A repeater prints its regions as an indented tree, one region on a line, and
`_parse_region_dump` reads the lines back. A line is read back as its region
exactly when the name has no white space at its ends and no `^` at its end that
is not the mark of a home region.

## Implementation notes

The printer follows the line format that the parser documents. A region in the
tree has a name that `_is_region_name` accepts, the root among them.
-/

namespace RemoteTerm

open Library

/-- `_REGION_DUMP_CAP`. -/
def regionDumpCap : Nat := 160

/-- `_is_region_name`. -/
def isRegionName (name : Text) : Bool :=
  if name = ['*'] then true
  else if name = [] then false
  else name.all fun c => "-$#0123456789".toList.contains c || decide (0x41 ≤ c.toNat)

/-- `RepeaterRegionEntry`. -/
structure RepeaterRegionEntry where
  name : Text
  depth : Nat
  floodAllowed : Bool
  isHome : Bool
deriving DecidableEq

/-- One turn of the loop of `_parse_region_dump`. -/
def parseRegionLine (line : Text) : Option RepeaterRegionEntry :=
  if strip line = [] then none
  else
    let depth := line.length - (line.dropWhile (· = ' ')).length
    let stripped := strip line
    let floodAllowed := [' ', 'F'].isSuffixOf stripped
    let content := if floodAllowed then rstrip (stripped.take (stripped.length - 2)) else stripped
    let isHome := ['^'].isSuffixOf content
    let name := strip (if isHome then content.dropLast else content)
    if isRegionName name then some { name, depth, floodAllowed, isHome } else none

/-- `_parse_region_dump`: the entries, and whether the dump may be truncated. -/
def parseRegionDump (text : Text) : List RepeaterRegionEntry × Bool :=
  ((text.splitOn '\n').filterMap parseRegionLine,
    decide (regionDumpCap - 2 ≤ text.length) ||
      decide (strip text ≠ []) && !(['\n'].isSuffixOf text))

/-- A region of the repeater. -/
structure Region where
  name : Text
  isHome : Bool
  floodAllowed : Bool
  valid : isRegionName name = true

/-- Regions beside each other, each with the regions inside it. -/
inductive RegionForest where
  | empty
  | region (r : Region) (inside beside : RegionForest)

/-- The regions with their depths, each before those inside it. -/
def RegionForest.listed (depth : Nat) : RegionForest → List (Nat × Region)
  | .empty => []
  | .region r inside beside => (depth, r) :: (inside.listed (depth + 1) ++ beside.listed depth)

/-- The root with the regions inside it. -/
structure RegionTree where
  root : Region
  inside : RegionForest

/-- The regions with their depths, the root first. -/
def RegionTree.listed (tree : RegionTree) : List (Nat × Region) :=
  (0, tree.root) :: tree.inside.listed 1

/-- `{depth spaces}{name}{^ if home}{ F if flood-allowed}`. -/
def regionLine (depth : Nat) (r : Region) : Text :=
  List.replicate depth ' ' ++ r.name ++ (if r.isHome then ['^'] else []) ++
    if r.floodAllowed then [' ', 'F'] else []

/-- The printed tree, with or without the newline after its last line. -/
def RegionTree.dump (tree : RegionTree) (lastNewline : Bool) : Text :=
  ['\n'].intercalate ((tree.listed.map fun e => regionLine e.1 e.2) ++
    if lastNewline then [[]] else [])

/-- The entry that a region should be read as. -/
def regionEntry (depth : Nat) (r : Region) : RepeaterRegionEntry where
  name := r.name
  depth := depth
  floodAllowed := r.floodAllowed
  isHome := r.isHome

/-- The name has no white space at its ends, and `^` at its end only in front of the home mark. -/
structure Region.Plain (r : Region) : Prop where
  ends : strip r.name = r.name
  home : r.name.getLast? = some '^' → r.isHome = true

section Strip

variable {s t : Text}

/-- A text that strips to itself neither starts nor ends with white space. -/
theorem strip_eq_self_iff :
    strip s = s ↔ (∀ c ∈ s.head?, isWhitespace c = false) ∧
      ∀ c ∈ s.getLast?, isWhitespace c = false :=
  trim_eq_self_iff

/-- What is stripped once is stripped. -/
theorem strip_strip (s : Text) : strip (strip s) = strip s := trim_trim s

/-- Spaces in front of a text are stripped. -/
theorem strip_spaces (depth : Nat) (hs : strip s = s) :
    strip (List.replicate depth ' ' ++ s) = s := by
  have hspaces : ∀ c ∈ List.replicate depth ' ', isWhitespace c = true := by
    intro c hc
    rw [List.eq_of_mem_replicate hc]
    decide
  exact (trim_append_left hspaces).trans hs

end Strip

section Line

variable {r : Region}

theorem Region.name_ne_nil (r : Region) : r.name ≠ [] := by
  intro hnil
  have hvalid := r.valid
  rw [hnil] at hvalid
  cases hvalid

/-- No character of a region name is a space or ends a line. -/
theorem Region.mem_name {c : Char} (hc : c ∈ r.name) : c ≠ ' ' ∧ c ≠ '\n' := by
  have hvalid := r.valid
  unfold isRegionName at hvalid
  split at hvalid
  next hroot =>
    rw [hroot, List.mem_singleton] at hc
    subst hc
    decide
  next =>
    split at hvalid
    · cases hvalid
    · have hchar := List.all_eq_true.mp hvalid c hc
      constructor <;> rintro rfl <;> revert hchar <;> decide

/-- What stands behind the name of a region. -/
def Region.marks (r : Region) : Text :=
  (if r.isHome then ['^'] else []) ++ if r.floodAllowed then [' ', 'F'] else []

theorem regionLine_eq (depth : Nat) (r : Region) :
    regionLine depth r = List.replicate depth ' ' ++ (r.name ++ r.marks) := by
  simp [regionLine, Region.marks]

theorem notMem_regionLine (depth : Nat) (r : Region) : '\n' ∉ regionLine depth r := by
  rw [regionLine_eq, List.mem_append, List.mem_append]
  rintro (hspace | hname | hmark)
  · cases List.eq_of_mem_replicate hspace
  · exact (Region.mem_name hname).2 rfl
  · revert hmark
    cases hh : r.isHome <;> cases hf : r.floodAllowed <;> simp [Region.marks, hh, hf]

/-- The spaces in front of a line are the depth. -/
theorem depth_regionLine (depth : Nat) (r : Region) :
    (regionLine depth r).length - ((regionLine depth r).dropWhile (· = ' ')).length = depth := by
  have hdrop : (regionLine depth r).dropWhile (· = ' ') = r.name ++ r.marks := by
    rw [regionLine_eq, List.dropWhile_append_of_pos fun c hc => by
      simpa using List.eq_of_mem_replicate hc]
    cases hname : r.name with
    | nil => exact absurd hname r.name_ne_nil
    | cons c rest =>
        have hc : c ∈ r.name := by
          rw [hname]
          exact List.mem_cons_self
        exact List.dropWhile_cons_of_neg (by simpa using (Region.mem_name hc).1)
  rw [hdrop, regionLine_eq, List.length_append, List.length_replicate]
  omega

/-- The name with its home mark, if it has one. -/
def Region.marked (r : Region) : Text := r.name ++ if r.isHome then ['^'] else []

variable (hends : strip r.name = r.name)

include hends

theorem strip_marked : strip r.marked = r.marked := by
  obtain ⟨hhead, hlast⟩ := strip_eq_self_iff.mp hends
  rw [strip_eq_self_iff]
  unfold Region.marked
  constructor
  · rwa [List.head?_append_of_ne_nil _ r.name_ne_nil]
  · cases r.isHome with
    | false => simpa using hlast
    | true =>
        intro c hc
        rw [if_pos rfl, List.getLast?_concat] at hc
        cases hc
        decide

theorem strip_named : strip (r.name ++ r.marks) = r.name ++ r.marks := by
  have hmarks : r.name ++ r.marks = r.marked ++ if r.floodAllowed then [' ', 'F'] else [] := by
    simp [Region.marks, Region.marked]
  have hmarked := strip_marked hends
  rw [hmarks]
  cases r.floodAllowed with
  | false => simpa using hmarked
  | true =>
      have hne : r.marked ≠ [] := by simp [Region.marked, r.name_ne_nil]
      rw [strip_eq_self_iff] at hmarked ⊢
      constructor
      · rw [List.head?_append_of_ne_nil _ hne]
        exact hmarked.1
      · intro c hc
        simp at hc
        cases hc
        decide

/-- The flood mark is read and removed. -/
theorem flood_named :
    [' ', 'F'].isSuffixOf (r.name ++ r.marks) = r.floodAllowed ∧
      (if r.floodAllowed then
        rstrip ((r.name ++ r.marks).take ((r.name ++ r.marks).length - 2))
      else r.name ++ r.marks) = r.marked := by
  have hmarks : r.name ++ r.marks = r.marked ++ if r.floodAllowed then [' ', 'F'] else [] := by
    simp [Region.marks, Region.marked]
  rw [hmarks]
  cases hflood : r.floodAllowed with
  | true =>
      refine ⟨List.isSuffixOf_iff_suffix.mpr (List.suffix_append _ _), ?_⟩
      have hstrip : strip r.marked = (r.marked.dropWhile isWhitespace).rdropWhile isWhitespace :=
        rfl
      simp only [if_true, List.length_append, List.length_cons, List.length_nil,
        Nat.add_sub_cancel_right, List.take_left]
      have hlast := (strip_eq_self_iff.mp (strip_marked hends)).2
      unfold rstrip
      rw [List.rdropWhile_eq_self_iff]
      intro hne
      simp [hlast _ (List.getLast?_eq_getLast_of_ne_nil hne)]
  | false =>
      refine ⟨?_, by simp⟩
      rw [Bool.eq_false_iff]
      intro hsuffix
      -- the space of the flood mark would be in the name
      have hspace : ' ' ∈ r.marked ++ [] :=
        (List.isSuffixOf_iff_suffix.mp hsuffix).subset List.mem_cons_self
      rw [List.append_nil, Region.marked, List.mem_append] at hspace
      rcases hspace with hname | hmark
      · exact (Region.mem_name hname).1 rfl
      · revert hmark
        cases r.isHome <;> simp

/-- A line whose name has no white space at its ends is read up to the home mark. -/
theorem parseRegionLine_of_ends (depth : Nat) :
    parseRegionLine (regionLine depth r) =
      let isHome := ['^'].isSuffixOf r.marked
      let name := strip (if isHome then r.marked.dropLast else r.marked)
      if isRegionName name then
        some { name, depth, floodAllowed := r.floodAllowed, isHome }
      else none := by
  have hstrip : strip (regionLine depth r) = r.name ++ r.marks := by
    rw [regionLine_eq]
    exact strip_spaces depth (strip_named hends)
  have hne : r.name ++ r.marks ≠ [] := by simp [r.name_ne_nil]
  obtain ⟨hflood, hcontent⟩ := flood_named hends
  unfold parseRegionLine
  rw [hstrip, if_neg hne, depth_regionLine]
  dsimp only
  rw [hflood, hcontent]

omit hends

theorem isSuffixOf_home (s : Text) : ['^'].isSuffixOf s = true ↔ s.getLast? = some '^' := by
  rw [List.isSuffixOf_iff_suffix]
  constructor
  · rintro ⟨rest, rfl⟩
    simp
  · intro hlast
    obtain ⟨rest, rfl⟩ := List.getLast?_eq_some_iff.mp hlast
    exact List.suffix_append _ _

/-- What is read as a name is stripped. -/
theorem parseRegionLine_stripped {line : Text} {entry : RepeaterRegionEntry}
    (h : parseRegionLine line = some entry) : strip entry.name = entry.name := by
  unfold parseRegionLine at h
  dsimp only at h
  rw [Option.ite_none_left_eq_some, Option.ite_none_right_eq_some] at h
  obtain ⟨-, -, hread⟩ := h
  cases hread
  exact strip_strip _

/-- **The line of a plain region** is read as the region, and no other line is. -/
theorem parseRegionLine_iff (depth : Nat) :
    parseRegionLine (regionLine depth r) = some (regionEntry depth r) ↔ r.Plain := by
  constructor
  · intro h
    have hends : strip r.name = r.name := parseRegionLine_stripped h
    refine ⟨hends, fun hlast => ?_⟩
    rw [parseRegionLine_of_ends hends] at h
    dsimp only at h
    rw [Option.ite_none_right_eq_some] at h
    have hhome : ['^'].isSuffixOf r.marked = r.isHome :=
      congrArg RepeaterRegionEntry.isHome (Option.some.inj h.2)
    rw [← hhome, isSuffixOf_home]
    unfold Region.marked
    cases r.isHome with
    | true => exact List.getLast?_concat
    | false => simpa using hlast
  · intro hplain
    have hname : (if ['^'].isSuffixOf r.marked then r.marked.dropLast else r.marked) = r.name ∧
        ['^'].isSuffixOf r.marked = r.isHome := by
      unfold Region.marked
      cases hhome : r.isHome with
      | true =>
          have hsuffix : ['^'].isSuffixOf (r.name ++ ['^']) = true :=
            (isSuffixOf_home _).mpr List.getLast?_concat
          simp only [if_true]
          exact ⟨by rw [if_pos hsuffix, List.dropLast_concat], hsuffix⟩
      | false =>
          have hno : ['^'].isSuffixOf r.name = false := by
            rw [Bool.eq_false_iff]
            intro hsuffix
            have htrue := hplain.home ((isSuffixOf_home r.name).mp hsuffix)
            rw [hhome] at htrue
            cases htrue
          simp only [Bool.false_eq_true, if_false, List.append_nil]
          exact ⟨if_neg (Bool.not_eq_true _ ▸ hno), hno⟩
    rw [parseRegionLine_of_ends hplain.ends]
    dsimp only
    rw [hname.1, hname.2, hplain.ends, if_pos r.valid]
    rfl

end Line

/-- **The region dump is inverted** exactly when every region's name is plain: its entries are the
regions in their order, and it is not flagged while it is short and ends its last line. -/
theorem region_dump_inverse (tree : RegionTree) (lastNewline : Bool) :
    ((parseRegionDump (tree.dump lastNewline)).1 =
        tree.listed.map (fun e => regionEntry e.1 e.2) ∧
      ((tree.dump lastNewline).length < regionDumpCap - 2 →
        (tree.dump lastNewline).getLast? = some '\n' →
          (parseRegionDump (tree.dump lastNewline)).2 = false)) ↔
      ∀ e ∈ tree.listed, e.2.Plain := by
  have hlines : (tree.dump lastNewline).splitOn '\n' =
      (tree.listed.map fun e => regionLine e.1 e.2) ++ if lastNewline then [[]] else [] := by
    refine List.splitOn_intercalate _ ?_ (by simp [RegionTree.listed])
    intro line hline
    rcases List.mem_append.mp hline with hline | hline
    · obtain ⟨e, -, rfl⟩ := List.mem_map.mp hline
      exact notMem_regionLine e.1 e.2
    · revert hline
      cases lastNewline <;> simp +contextual
  have hblank : (if lastNewline then [[]] else []).filterMap parseRegionLine = [] := by
    cases lastNewline <;> rfl
  have hentries : (parseRegionDump (tree.dump lastNewline)).1 =
      tree.listed.filterMap fun e => parseRegionLine (regionLine e.1 e.2) := by
    unfold parseRegionDump
    rw [hlines, List.filterMap_append, hblank, List.append_nil, List.filterMap_map]
    rfl
  have htruncated : (tree.dump lastNewline).length < regionDumpCap - 2 →
      (tree.dump lastNewline).getLast? = some '\n' →
        (parseRegionDump (tree.dump lastNewline)).2 = false := by
    intro hshort hlast
    obtain ⟨rest, hrest⟩ := List.getLast?_eq_some_iff.mp hlast
    have hsuffix : ['\n'].isSuffixOf (tree.dump lastNewline) = true := by
      rw [List.isSuffixOf_iff_suffix, hrest]
      exact List.suffix_append _ _
    simp only [parseRegionDump, hsuffix, Bool.not_true, Bool.and_false, Bool.or_false,
      decide_eq_false_iff_not]
    omega
  rw [hentries, List.filterMap_eq_map_iff_forall_eq_some, and_iff_left htruncated]
  exact forall₂_congr fun e _ => parseRegionLine_iff e.1

/-- A tree with a region whose name ends in a no-break space. -/
def spacedTree : RegionTree where
  root := ⟨['*'], false, true, by decide⟩
  inside := .region ⟨"eu\u00A0".toList, false, true, by decide⟩ .empty .empty

/-- A tree with a region whose name ends in `^` and that is not the home region. -/
def caretTree : RegionTree where
  root := ⟨['*'], false, true, by decide⟩
  inside := .region ⟨"eu^".toList, false, true, by decide⟩ .empty .empty

/-- The name loses its last character in both trees. -/
theorem region_name_cut :
    (parseRegionDump (spacedTree.dump true)).1 ≠
        spacedTree.listed.map (fun e => regionEntry e.1 e.2) ∧
      (parseRegionDump (spacedTree.dump true)).1 =
        [⟨['*'], 0, true, false⟩, ⟨"eu".toList, 1, true, false⟩] ∧
      (parseRegionDump (caretTree.dump true)).1 =
        [⟨['*'], 0, true, false⟩, ⟨"eu".toList, 1, true, true⟩] := by
  decide

end RemoteTerm
