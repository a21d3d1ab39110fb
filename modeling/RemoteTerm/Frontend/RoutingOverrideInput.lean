import Mathlib
import RemoteTerm.Contacts.RouteIdempotence
import RemoteTerm.Contacts.RouteWriters
import RemoteTerm.Frontend.PathFraming
import RemoteTerm.Library.Trim

/-!
# Editing a stored route again

The text of an explicit route is parsed and stored by the server; the browser
shows the stored override as a text that the user may submit again. A route of
hexadecimal hops survives this unless it has 64 hops.

## Implementation notes

A contact carries its override as one object and, beside it, as three fields for
clients that do not know the object.
-/

namespace RemoteTerm

open Library

namespace Frontend

/-- The fields of a `Contact` that hold its override. -/
structure OverrideFields where
  routeOverride : Option ContactRoute
  routeOverridePath : Option Text
  routeOverrideLen : Option Int
  routeOverrideHashMode : Option Int

/-- The override of a contact as `model_post_init` leaves it. -/
def overrideFields (c : RouteColumns) : OverrideFields where
  routeOverride := c.routeOverride
  routeOverridePath := (c.routeOverride.map ContactRoute.path).filter fun path => !path.isEmpty
  routeOverrideLen := c.routeOverride.map ContactRoute.pathLen
  routeOverrideHashMode := c.routeOverride.map ContactRoute.pathHashMode

/-- `normalizePathHashMode`. -/
def normalizePathHashMode (mode : Option Int) : Option Int :=
  mode.filter fun mode => 0 ≤ mode ∧ mode ≤ 2

/-- `inferPathHashMode`. -/
def inferPathHashMode (path : Option Text) (hopCount : Option Int) : Option Int :=
  match path, hopCount with
  | some path, some hopCount =>
      if path = [] ∨ hopCount ≤ 0 then none
      else
        let charsPerHop : ℚ := path.length / hopCount
        if charsPerHop < 2 ∨ charsPerHop > 6 ∨ charsPerHop - 2 * ⌊charsPerHop / 2⌋ ≠ 0 ∨
            charsPerHop * hopCount ≠ path.length then none
        else some (⌊charsPerHop / 2⌋ - 1)
  | _, _ => none

/-- `hasRoutingOverride`. -/
def hasRoutingOverride (contact : OverrideFields) : Bool :=
  contact.routeOverride.isSome || contact.routeOverrideLen.isSome

/-- `getRouteOverride`. -/
def getRouteOverride (contact : OverrideFields) : Option ContactRoute :=
  match contact.routeOverride with
  | some route => some route
  | none =>
      if !hasRoutingOverride contact then none
      else
        let pathLen := contact.routeOverrideLen.getD (-1)
        let pathHashMode :=
          if pathLen = -1 then -1
          else (normalizePathHashMode contact.routeOverrideHashMode).getD
            ((inferPathHashMode contact.routeOverridePath (some pathLen)).getD 0)
        some ⟨contact.routeOverridePath.getD [], pathLen, pathHashMode⟩

/-- `formatRoutingOverrideInput`. -/
def formatRoutingOverrideInput (contact : OverrideFields) : Text :=
  match getRouteOverride contact with
  | none => []
  | some route =>
      if route.pathLen = -1 then "-1".toList
      else if route.pathLen = 0 then "0".toList
      else [','].intercalate ((parsePathHops (some route.path) (some route.pathLen)).map lower)

end Frontend

/-- Lower-case hexadecimal digits. -/
def LowerHex (s : Text) : Prop := ∀ c ∈ s, ∃ value < 16, c = hexDigit value

/-- A route is whole hops of hexadecimal digits, normalization leaves it as it is, and the text
that the browser shows for it stores it again. -/
structure SurvivesEditing (hopCount : Nat) (r : ContactRoute) : Prop where
  digits : ∃ size : Nat, 1 ≤ size ∧ size ≤ 3 ∧ r.path.length = 2 * hopCount * size ∧
    r.pathLen = hopCount ∧ r.pathHashMode = size - 1 ∧ LowerHex r.path
  normalized : normalizeRouteOverride (some r.path) (some r.pathLen) (some r.pathHashMode) = some r
  again : ∀ c : RouteColumns,
    let stored := c.setRoutingOverride (some r.path) (some r.pathLen) (some r.pathHashMode)
    RouteWrite.apply stored (.routingOverride
      (Frontend.formatRoutingOverrideInput (Frontend.overrideFields stored))) = stored

section Digits

variable {c : Char} {s : Text}

theorem hexValue_range (h : (hexValue c).isSome) :
    48 ≤ c.toNat ∧ c.toNat ≤ 57 ∨ 97 ≤ c.toNat ∧ c.toNat ≤ 102 ∨ 65 ≤ c.toNat ∧ c.toNat ≤ 70 := by
  unfold hexValue at h
  split_ifs at h with hdigit hlower hupper
  · exact Or.inl hdigit
  · exact Or.inr (Or.inl hlower)
  · exact Or.inr (Or.inr hupper)
  · cases h

/-- A hexadecimal digit in lower case is that of its value. -/
theorem eq_hexDigit (h : (hexValue c).isSome) (hlower : lowerChar c = c) :
    ∃ value < 16, c = hexDigit value := by
  have hlow := lowerChar_toNat c
  rw [hlower] at hlow
  rcases hexValue_range h with hdigit | hletter | hupper
  · refine ⟨c.toNat - 48, by omega, ?_⟩
    rw [hexDigit, if_pos (by omega), Nat.add_sub_cancel' (by omega), Char.ofNat_toNat]
  · refine ⟨c.toNat - 87, by omega, ?_⟩
    rw [hexDigit, if_neg (by omega), Nat.add_sub_cancel' (by omega), Char.ofNat_toNat]
  · split_ifs at hlow with hcase <;> omega

theorem isSome_hexValue_hexDigit {value : Nat} (h : value < 16) :
    (hexValue (hexDigit value)).isSome := by
  rw [hexValue_hexDigit h]
  rfl

/-- A text that is read as bytes and has no white space consists of digits. -/
theorem isSome_hexValue_of_bytesOfHex (h : (bytesOfHex s).isSome)
    (hspace : ∀ c ∈ s, isSpace c = false) : ∀ c ∈ s, (hexValue c).isSome := by
  induction s using bytesOfHex.induct with
  | case1 => simp
  | case2 c hc => simp [hspace c] at hc
  | case3 c hc =>
      rw [bytesOfHex, if_neg hc] at h
      cases h
  | case4 c d rest hc ih =>
      rw [hspace c List.mem_cons_self] at hc
      cases hc
  | case5 c d rest hc ih =>
      rw [bytesOfHex, if_neg hc] at h
      obtain ⟨b, hb⟩ : ∃ b, hexByte c d = some b := by
        cases hbyte : hexByte c d with
        | none =>
            rw [hbyte] at h
            cases h
        | some b => exact ⟨b, rfl⟩
      rw [hb, Option.bind_some, Option.isSome_map] at h
      have hrest := ih h fun x hx => hspace x (List.mem_cons_of_mem _ (List.mem_cons_of_mem _ hx))
      unfold hexByte at hb
      intro x hx
      rcases List.mem_cons.mp hx with rfl | hx
      · cases hvalue : hexValue x with
        | none =>
            rw [hvalue] at hb
            cases hb
        | some value => rfl
      · rcases List.mem_cons.mp hx with rfl | hx
        · cases hvalue : hexValue x with
          | none =>
              rw [hvalue] at hb
              split at hb <;> simp_all
          | some value => rfl
        · exact hrest x hx

end Digits

section Hops

variable {c : Char} {hop s : Text} {hops : List Text} {width : Nat} {r : ContactRoute}

theorem isWhitespace_hexDigit {value : Nat} (h : value < 16) :
    isWhitespace (hexDigit value) = false := by
  have hall : ∀ n < 16, isWhitespace (hexDigit n) = false := by decide
  exact hall value h

theorem LowerHex.isWhitespace (h : LowerHex s) (hc : c ∈ s) : isWhitespace c = false := by
  obtain ⟨value, hvalue, rfl⟩ := h c hc
  exact isWhitespace_hexDigit hvalue

theorem LowerHex.ne_comma (h : LowerHex s) : ',' ∉ s := by
  intro hc
  obtain ⟨value, hvalue, heq⟩ := h ',' hc
  have hnone := isSome_hexValue_hexDigit hvalue
  rw [← heq] at hnone
  cases hnone

theorem LowerHex.lower_upper (h : LowerHex s) : lower (upper s) = s := by
  have hall : ∀ n < 16, lowerChar (upperChar (hexDigit n)) = hexDigit n := by decide
  unfold lower upper
  rw [List.map_map]
  refine (List.map_congr_left fun c hc => ?_).trans (List.map_id s)
  obtain ⟨value, hvalue, rfl⟩ := h c hc
  exact hall value hvalue

theorem LowerHex.lower (h : LowerHex s) : lower s = s := by
  refine (List.map_congr_left fun c hc => ?_).trans (List.map_id s)
  obtain ⟨value, hvalue, rfl⟩ := h c hc
  exact lowerChar_hexDigit hvalue

/-- A text that neither starts nor ends with white space is not stripped. -/
theorem strip_of_ends (hhead : ∀ c ∈ s.head?, isWhitespace c = false)
    (hlast : ∀ c ∈ s.getLast?, isWhitespace c = false) : strip s = s :=
  trim_eq_self_iff.mpr ⟨hhead, hlast⟩

theorem LowerHex.strip (h : LowerHex s) : strip s = s :=
  strip_of_ends (fun _ hc => h.isWhitespace (List.mem_of_mem_head? hc))
    fun _ hc => h.isWhitespace (List.mem_of_mem_getLast? hc)

/-- Hops of one width are read back from the path. -/
theorem rangeChunks_flatten (hpos : 0 < width) (h : ∀ hop ∈ hops, hop.length = width) :
    rangeChunks width hops.flatten = hops := by
  have hcount : (hops.flatten.length + width - 1) / width = hops.length := by
    rw [length_flatten_of_length h, Nat.add_sub_assoc hpos, Nat.mul_comm,
      Nat.mul_add_div hpos, Nat.div_eq_of_lt (by omega), Nat.add_zero]
  rw [rangeChunks, hcount]
  clear hcount
  induction hops with
  | nil => rfl
  | cons hop rest ih =>
      have hhop := h hop List.mem_cons_self
      rw [List.length_cons, List.range_succ_eq_map, List.map_cons, List.map_map,
        List.flatten_cons, Nat.zero_mul, List.drop_zero, ← hhop, List.take_left, hhop]
      refine congrArg _ (Eq.trans (List.map_congr_left fun i _ => ?_)
        (ih fun x hx => h x (List.mem_cons_of_mem _ hx)))
      have hskip : i.succ * width = hop.length + i * width := by
        rw [hhop, Nat.succ_mul, Nat.add_comm]
      rw [Function.comp_apply, hskip, ← List.drop_drop, List.drop_left]

theorem checkHops_isSome {n : Nat} (h : checkHops n hops = .ok ()) :
    ∀ hop ∈ hops, (bytesOfHex hop).isSome := by
  induction hops with
  | nil => simp
  | cons hop rest ih =>
      unfold checkHops at h
      split at h
      · cases h
      · split at h
        · cases h
        next hsome =>
          intro x hx
          rcases List.mem_cons.mp hx with rfl | hx
          · exact Option.isSome_iff_ne_none.mpr (by simpa using hsome)
          · exact ih h x hx

/-- The route of some hops: whole hops of one width that are read as bytes. -/
theorem routeOfHops_path (h : routeOfHops hops = .ok r) :
    hops ≠ [] ∧ r.path = hops.flatten ∧ r.pathLen = hops.length ∧
      ∃ size : Nat, 1 ≤ size ∧ size ≤ 3 ∧ hops.length * size ≤ maxPathSize ∧
        r.pathHashMode = size - 1 ∧
        ∀ hop ∈ hops, hop.length = 2 * size ∧ (bytesOfHex hop).isSome := by
  cases hops with
  | nil => cases h
  | cons first rest =>
      simp only [routeOfHops] at h
      split at h
      · cases h
      next hwidth =>
        cases hcheck : checkHops first.length (first :: rest) with
        | error e =>
            rw [hcheck] at h
            cases h
        | ok _ =>
            simp only [hcheck, bind, Except.bind] at h
            split at h
            · cases h
            next hsize =>
              obtain rfl := Except.ok.inj h
              have hlength : first.length = 2 * (first.length / 2) := by omega
              refine ⟨List.cons_ne_nil _ _, rfl, by simp, first.length / 2, by omega, by omega,
                ?_, ?_, ?_⟩
              · rw [pathWireLen] at hsize
                rw [List.length_cons]
                omega
              · dsimp only
                omega
              · intro hop hhop
                exact ⟨(checkHops_length hcheck hop hhop).trans hlength,
                  checkHops_isSome hcheck hop hhop⟩

/-- The hops of a route text are in lower case. -/
theorem lower_explicitHops {routeText : Text} (h : hop ∈ explicitHops routeText) :
    lower hop = hop := by
  obtain ⟨piece, -, rfl⟩ := List.mem_map.mp h
  exact lower_idem _

/-- Hops of digits that are joined by commas are read back. -/
theorem explicitHops_intercalate (hne : hops ≠ []) (hdigits : ∀ hop ∈ hops, LowerHex hop)
    (hfull : ∀ hop ∈ hops, hop ≠ []) : explicitHops ([','].intercalate hops) = hops := by
  rw [explicitHops, List.splitOn_intercalate _ (fun hop hhop => (hdigits hop hhop).ne_comma) hne,
    List.filter_eq_self.mpr]
  · refine (List.map_congr_left fun hop hhop => ?_).trans (List.map_id hops)
    rw [(hdigits hop hhop).strip, (hdigits hop hhop).lower]
    rfl
  · intro hop hhop
    rw [(hdigits hop hhop).strip]
    exact decide_eq_true (hfull hop hhop)

end Hops

section Editing

variable {routeText : Text} {r : ContactRoute} {n : Nat}

/-- The hops of an explicit route are digits, and there are at most 63 of them. -/
def PlainHops (hops : List Text) : Prop :=
  (∀ hop ∈ hops, ∀ c ∈ hop, isSpace c = false) ∧ hops.length ≤ 63

/-- A route within range is normal. -/
theorem normalizeRouteOverride_of_exact {size : Nat} (hn : n ≤ 63) (hone : 1 ≤ size)
    (hthree : size ≤ 3) (hlen : r.pathLen = n) (hmode : r.pathHashMode = size - 1)
    (hpath : r.path.length = 2 * n * size) :
    normalizeRouteOverride (some r.path) (some r.pathLen) (some r.pathHashMode) = some r := by
  have hrange : ¬ OutOfRange r.pathLen := by
    unfold OutOfRange
    omega
  have hexact : ((r.path.length / 2 : Nat) : Int) = r.pathLen * (r.pathHashMode + 1) := by
    rw [hpath, hlen, hmode, Nat.mul_assoc, Nat.mul_div_cancel_left _ (by decide)]
    push_cast
    ring
  rw [normalizeRouteOverride, normalizeContactRoute, Option.getD_some,
    unpackPathLength_of_range hrange]
  dsimp only
  rw [if_neg (by omega), effectiveHashMode_of_range (by omega), Option.getD_some,
    trimRoute_of_exact hexact]

/-- 64 hops are taken for a packed byte that stands for none. -/
theorem normalizeRouteOverride_of_sixtyFour (hlen : r.pathLen = 64) :
    normalizeRouteOverride (some r.path) (some r.pathLen) (some r.pathHashMode) ≠ some r := by
  intro h
  rw [normalizeRouteOverride, Option.some.injEq, hlen, normalizeContactRoute] at h
  have hunpack : unpackPathLength 64 (some r.pathHashMode) = some (0, some 1) := rfl
  rw [Option.getD_some, hunpack] at h
  dsimp only at h
  rw [if_neg (by decide)] at h
  have hzero : (trimRoute r.path 0 1).pathLen = 0 := by
    rw [trimRoute_pathLen (by decide), if_neg]
    rintro ⟨-, hlt, -⟩
    omega
  have hlen' := congrArg ContactRoute.pathLen h
  rw [Option.getD_some, show effectiveHashMode (some 1) = 1 from rfl, hzero, hlen] at hlen'
  cases hlen'

/-- The hops of a path of digits are shown as they were given. -/
theorem parsePathHops_lower {hops : List Text} {size : Nat} (hne : hops ≠ []) (hone : 1 ≤ size)
    (hthree : size ≤ 3) (hwidth : ∀ hop ∈ hops, hop.length = 2 * size)
    (hdigits : ∀ hop ∈ hops, LowerHex hop) :
    (Frontend.parsePathHops (some hops.flatten) (some (hops.length : Int))).map lower = hops := by
  have hcount : 0 < hops.length := List.length_pos_of_ne_nil hne
  have hlength : hops.flatten.length = hops.length * (2 * size) := length_flatten_of_length hwidth
  have heven : Even hops.flatten.length := ⟨hops.length * size, by rw [hlength]; ring⟩
  have hquot : (hops.flatten.length : Int) / hops.length = (2 * size : Nat) := by
    rw [hlength]
    push_cast
    exact Int.mul_ediv_cancel_left _ (by omega)
  have hsplit : splitPathHex hops.flatten hops.length = hops := by
    have hpath : hops.flatten ≠ [] := by
      apply List.ne_nil_of_length_pos
      rw [hlength]
      exact Nat.mul_pos hcount (by omega)
    rw [splitPathHex, if_neg (by rintro (hnil | hzero); exacts [hpath hnil, by omega])]
    dsimp only
    rw [hquot, if_neg, Int.toNat_natCast]
    · exact rangeChunks_flatten (by omega) hwidth
    · rintro (hsmall | hodd | hpart)
      · omega
      · omega
      · apply hpart
        rw [hlength]
        push_cast
        ring
  rw [Frontend.parsePathHops_eq heven (by omega), hsplit, List.map_map]
  refine (List.map_congr_left fun hop hhop => ?_).trans (List.map_id hops)
  exact (hdigits hop hhop).lower_upper

/-- A character of joined texts is a separator or belongs to one of them. -/
theorem mem_intercalate {separator c : Char} {pieces : List Text}
    (h : c ∈ [separator].intercalate pieces) :
    c = separator ∨ ∃ piece ∈ pieces, c ∈ piece := by
  induction pieces with
  | nil => cases h
  | cons piece rest ih =>
      cases rest with
      | nil => exact Or.inr ⟨piece, List.mem_singleton.mpr rfl, by simpa using h⟩
      | cons next rest =>
          rw [List.intercalate_cons_cons, List.append_assoc] at h
          rcases List.mem_append.mp h with h | h
          · exact Or.inr ⟨piece, List.mem_cons_self, h⟩
          · rcases List.mem_append.mp h with h | h
            · exact Or.inl (List.mem_singleton.mp h)
            · rcases ih h with hseparator | ⟨other, hother, hc⟩
              · exact Or.inl hseparator
              · exact Or.inr ⟨other, List.mem_cons_of_mem _ hother, hc⟩

/-- A text of digits and commas is not stripped, and is neither of the texts that force a route. -/
theorem overrideOfText_intercalate {hops : List Text} {size : Nat} (hne : hops ≠ [])
    (hone : 1 ≤ size) (hwidth : ∀ hop ∈ hops, hop.length = 2 * size)
    (hdigits : ∀ hop ∈ hops, LowerHex hop) (hroute : routeOfHops hops = .ok r) :
    overrideOfText ([','].intercalate hops) = .ok (some r) := by
  have hfull : ∀ hop ∈ hops, hop ≠ [] := by
    intro hop hhop hnil
    have hlength := hwidth hop hhop
    rw [hnil, List.length_nil] at hlength
    omega
  have hhops := explicitHops_intercalate hne hdigits hfull
  have hchars : ∀ c ∈ [','].intercalate hops, c = ',' ∨ ∃ value < 16, c = hexDigit value := by
    intro c hc
    rcases mem_intercalate hc with hcomma | ⟨hop, hhop, hc⟩
    · exact Or.inl hcomma
    · exact Or.inr (hdigits hop hhop c hc)
  have hblank : ∀ c ∈ [','].intercalate hops, isWhitespace c = false := by
    intro c hc
    rcases hchars c hc with rfl | ⟨value, hvalue, rfl⟩
    · decide
    · exact isWhitespace_hexDigit hvalue
  have hstrip : strip ([','].intercalate hops) = [','].intercalate hops :=
    strip_of_ends (fun c hc => hblank c (List.mem_of_mem_head? hc))
      fun c hc => hblank c (List.mem_of_mem_getLast? hc)
  generalize [','].intercalate hops = shown at hhops hchars hstrip
  have hnil : shown ≠ [] := by
    rintro rfl
    exact hne hhops.symm
  have hminus : shown ≠ "-1".toList := by
    rintro rfl
    rcases hchars '-' (by decide) with hcomma | ⟨value, hvalue, heq⟩
    · cases hcomma
    · have hnone := isSome_hexValue_hexDigit hvalue
      rw [← heq] at hnone
      cases hnone
  have hzero : shown ≠ "0".toList := by
    rintro rfl
    have hlength := hwidth ['0'] (by rw [← hhops]; decide)
    rw [List.length_singleton] at hlength
    omega
  rw [overrideOfText, hstrip, if_neg hnil, if_neg hminus, if_neg hzero, parseExplicitHopRoute,
    hhops, hroute]
  rfl

/-- The shown text of a stored route stores it again. -/
theorem routingOverride_again {hops : List Text} {size : Nat} (hne : hops ≠ [])
    (hone : 1 ≤ size) (hthree : size ≤ 3) (hwidth : ∀ hop ∈ hops, hop.length = 2 * size)
    (hdigits : ∀ hop ∈ hops, LowerHex hop) (hroute : routeOfHops hops = .ok r)
    (hnormal : normalizeRouteOverride (some r.path) (some r.pathLen) (some r.pathHashMode) =
      some r) (c : RouteColumns) :
    let stored := c.setRoutingOverride (some r.path) (some r.pathLen) (some r.pathHashMode)
    RouteWrite.apply stored (.routingOverride
      (Frontend.formatRoutingOverrideInput (Frontend.overrideFields stored))) = stored := by
  intro stored
  have hstored : stored = c.setOverride (some r) := congrArg c.setOverride hnormal
  have hread : stored.routeOverride = some r := by
    rw [hstored]
    exact hnormal
  obtain ⟨-, hpath, hlen, -⟩ := routeOfHops_path hroute
  have hcount : 0 < hops.length := List.length_pos_of_ne_nil hne
  have hshown : Frontend.formatRoutingOverrideInput (Frontend.overrideFields stored) =
      [','].intercalate hops := by
    have hfields : Frontend.getRouteOverride (Frontend.overrideFields stored) = some r := by
      rw [Frontend.getRouteOverride, Frontend.overrideFields, hread]
    rw [Frontend.formatRoutingOverrideInput, hfields]
    dsimp only
    rw [if_neg (by omega), if_neg (by omega), hpath, hlen,
      parsePathHops_lower hne hone hthree hwidth hdigits]
  rw [hshown, RouteWrite.apply, overrideOfText_intercalate hne hone hwidth hdigits hroute]
  change stored.setRoutingOverride (some r.path) (some r.pathLen) (some r.pathHashMode) = stored
  rw [RouteColumns.setRoutingOverride, hnormal, hstored]
  rfl

end Editing

/-- **An explicit route survives storage and editing** exactly when its hops hold no white space
and are at most 63. -/
theorem explicit_route_survives {routeText : Text} {r : ContactRoute}
    (h : parseExplicitHopRoute routeText = .ok r) :
    SurvivesEditing (explicitHops routeText).length r ↔ PlainHops (explicitHops routeText) := by
  obtain ⟨hne, hpath, hlen, size, hone, hthree, hbytes, hmode, hhops⟩ := routeOfHops_path h
  have hwidth : ∀ hop ∈ explicitHops routeText, hop.length = 2 * size :=
    fun hop hhop => (hhops hop hhop).1
  have hlength : r.path.length = 2 * (explicitHops routeText).length * size := by
    rw [hpath, length_flatten_of_length hwidth]
    ring
  constructor
  · intro hsurvives
    constructor
    · intro hop hhop c hc
      obtain ⟨-, -, -, -, -, -, hdigits⟩ := hsurvives.digits
      obtain ⟨value, hvalue, rfl⟩ := hdigits c (by
        rw [hpath]
        exact List.mem_flatten.mpr ⟨hop, hhop, hc⟩)
      exact isSpace_hexDigit hvalue
    · by_contra hmany
      refine normalizeRouteOverride_of_sixtyFour ?_ hsurvives.normalized
      unfold maxPathSize at hbytes
      have hsize : size = 1 := by nlinarith
      rw [hlen]
      rw [hsize] at hbytes
      omega
  · rintro ⟨hspace, hfew⟩
    have hdigits : ∀ hop ∈ explicitHops routeText, LowerHex hop := by
      intro hop hhop c hc
      have hlower := lower_explicitHops hhop
      refine eq_hexDigit (isSome_hexValue_of_bytesOfHex (hhops hop hhop).2 (hspace hop hhop) c hc) ?_
      exact List.map_inj_left.mp (hlower.trans (List.map_id hop).symm) c hc
    have hnormal := normalizeRouteOverride_of_exact hfew hone hthree hlen hmode hlength
    refine ⟨⟨size, hone, hthree, hlength, hlen, hmode, ?_⟩, hnormal,
      routingOverride_again hne hone hthree hwidth hdigits h hnormal⟩
    intro c hc
    rw [hpath, List.mem_flatten] at hc
    obtain ⟨hop, hhop, hc⟩ := hc
    exact hdigits hop hhop c hc

section Example

theorem explicit_route_survives_two :
    SurvivesEditing (explicitHops "AA, bb".toList).length ⟨"aabb".toList, 2, 0⟩ := by
  have hparse : parseExplicitHopRoute "AA, bb".toList = .ok ⟨"aabb".toList, 2, 0⟩ := by
    decide +kernel
  have hplain : PlainHops (explicitHops "AA, bb".toList) := by
    have hhops : explicitHops "AA, bb".toList = [['a', 'a'], ['b', 'b']] := by decide +kernel
    rw [hhops]
    exact ⟨by simp [isSpace], by simp⟩
  exact (explicit_route_survives hparse).mpr hplain

/-- Two bytes with two blanks between them pass as a hop of three bytes. -/
theorem blank_hop_stored :
    ∃ r, parseExplicitHopRoute "ab  cd".toList = .ok r ∧ r.path = "ab  cd".toList ∧
      ¬ SurvivesEditing 1 r := by
  refine ⟨⟨"ab  cd".toList, 1, 2⟩, by decide +kernel, rfl, fun hsurvives => ?_⟩
  obtain ⟨-, -, -, -, -, -, hdigits⟩ := hsurvives.digits
  obtain ⟨value, hvalue, heq⟩ := hdigits ' ' (by decide +kernel)
  have hnone := isSome_hexValue_hexDigit hvalue
  rw [← heq] at hnone
  cases hnone

end Example

end RemoteTerm
