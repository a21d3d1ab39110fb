import RemoteTerm.Library.CodeUnits
import RemoteTerm.Packets.ChannelEcho

/-!
# Who wrote a channel message

The decoder, its fallback and the frontend each split a channel text at its first
`": "` into a sender and the content. The frontend refuses a sender that holds a
colon, the backend also one with a bracket or a null; the frontend counts UTF-16
units, the backend characters.
-/

namespace RemoteTerm

open Library

section CodeUnits

variable {s : Text}

theorem codeUnits_append (s t : Text) : codeUnits (s ++ t) = codeUnits s ++ codeUnits t :=
  List.flatMap_append

theorem codeUnits_cons (c : Char) (s : Text) : codeUnits (c :: s) = charUnits c ++ codeUnits s :=
  rfl

/-- A character below the surrogates is its own code unit, and no other one has it. -/
theorem mem_charUnits_iff {c d : Char} (hd : d.toNat < 0xD800) :
    d.toNat ∈ charUnits c ↔ c = d := by
  unfold charUnits
  split
  next =>
    rw [List.mem_singleton, eq_comm, Char.toNat_inj]
  next hwide =>
    constructor
    · intro hmem
      simp only [List.mem_cons, List.not_mem_nil, or_false] at hmem
      omega
    · rintro rfl
      omega

theorem mem_codeUnits_iff {d : Char} (hd : d.toNat < 0xD800) : d.toNat ∈ codeUnits s ↔ d ∈ s := by
  simp only [codeUnits, List.mem_flatMap, mem_charUnits_iff hd, exists_eq_right]

/-- A text has at least as many code units as characters. -/
theorem length_le_codeUnits (s : Text) : s.length ≤ (codeUnits s).length := by
  induction s with
  | nil => exact le_refl 0
  | cons c rest ih =>
      have hpos := List.length_pos_of_ne_nil (charUnits_ne_nil c)
      rw [codeUnits_cons, List.length_append, List.length_cons]
      omega

/-- The first code unit tells the first character below the surrogates. -/
theorem head?_codeUnits_iff {d : Char} (hd : d.toNat < 0xD800) :
    (codeUnits s).head? = some d.toNat ↔ s.head? = some d := by
  cases s with
  | nil => simp [codeUnits]
  | cons c rest =>
      rw [codeUnits_cons, List.head?_append_of_ne_nil _ (charUnits_ne_nil c), List.head?_cons]
      constructor
      · intro hhead
        rw [(mem_charUnits_iff hd).mp (List.mem_of_mem_head? hhead)]
      · intro hhead
        obtain rfl := Option.some.inj hhead
        rw [charUnits, if_pos (by omega)]
        rfl

end CodeUnits

/-- `text.indexOf(': ')`. -/
def indexOfSeparator : List Nat → Option Nat
  | [] => none
  | unit :: rest =>
      if unit = 0x3A ∧ rest.head? = some 0x20 then some 0
      else (indexOfSeparator rest).map (· + 1)

/-- `parseSenderFromText`. -/
def parseSenderFromText (text : List Nat) : Option (List Nat) × List Nat :=
  match indexOfSeparator text with
  | none => (none, text)
  | some colonIndex =>
      let potentialSender := text.take colonIndex
      if 0 < colonIndex ∧ colonIndex < 50 ∧ 0x3A ∉ potentialSender then
        (some potentialSender, text.drop (colonIndex + 2))
      else (none, text)

/-- What the frontend sees of a sender and a content of the backend. -/
def splitUnits (parts : Option Text × Text) : Option (List Nat) × List Nat :=
  (parts.1.map codeUnits, codeUnits parts.2)

/-- Brackets and nulls, which only the backend refuses. -/
def isBracketOrNull (c : Char) : Bool := c = '[' ∨ c = ']' ∨ c = '\x00'

/-- The text in front of the separator is a sender for both or for neither: it is empty, or holds a
colon; or it is short in code units and holds no bracket or null; or it is long in code units, and
long in characters too or holds a bracket or null. -/
def JudgedAlike (front : Text) : Prop :=
  front = [] ∨ ':' ∈ front ∨
    if (codeUnits front).length < 50 then ∀ c ∈ front, isBracketOrNull c = false
    else ¬ front.length < 50 ∨ ∃ c ∈ front, isBracketOrNull c = true

section Separator

/-- One code unit of a wide character is not a colon. -/
theorem indexOfSeparator_skip {unit : Nat} {rest : List Nat} (hunit : unit ≠ 0x3A) :
    indexOfSeparator (unit :: rest) = (indexOfSeparator rest).map (· + 1) := by
  rw [indexOfSeparator, if_neg fun h => hunit h.1]

/-- The frontend finds the separator behind the same characters. -/
theorem indexOfSeparator_codeUnits (text : Text) :
    indexOfSeparator (codeUnits text) =
      (splitAtColon text).map fun parts => (codeUnits parts.1).length := by
  fun_induction splitAtColon text with
  | case1 => rfl
  | case2 after => rfl
  | case3 c rest hno ih =>
      rw [Option.map_map, codeUnits_cons]
      have hfront : ((fun parts : Text × Text => (codeUnits parts.1).length) ∘
          fun p : Text × Text => (c :: p.1, p.2)) =
            fun parts : Text × Text => (codeUnits parts.1).length + (charUnits c).length := by
        funext parts
        simp [codeUnits_cons, Nat.add_comm]
      rw [hfront]
      unfold charUnits
      split
      next hnarrow =>
        have hcolon : ¬ (c.toNat = 0x3A ∧ (codeUnits rest).head? = some 0x20) := by
          rintro ⟨hc, hspace⟩
          have hc' : c = ':' := Char.toNat_inj.mp hc
          obtain ⟨after, rfl⟩ := List.head?_eq_some_iff.mp
            ((head?_codeUnits_iff (d := ' ') (by decide)).mp hspace)
          exact hno after hc' rfl
        rw [List.singleton_append, indexOfSeparator, if_neg hcolon, ih, Option.map_map]
        rfl
      next hwide =>
        rw [List.cons_append, List.cons_append, List.nil_append,
          indexOfSeparator_skip (by omega), indexOfSeparator_skip (by omega), ih, Option.map_map,
          Option.map_map]
        rfl

/-- The frontend's split, at the same place as the backend's. -/
theorem parseSenderFromText_codeUnits (text : Text) :
    parseSenderFromText (codeUnits text) =
      match splitAtColon text with
      | none => (none, codeUnits text)
      | some (front, after) =>
          if front ≠ [] ∧ (codeUnits front).length < 50 ∧ ':' ∉ front then
            (some (codeUnits front), codeUnits after)
          else (none, codeUnits text) := by
  unfold parseSenderFromText
  rw [indexOfSeparator_codeUnits]
  cases hsplit : splitAtColon text with
  | none => rfl
  | some parts =>
      obtain ⟨front, after⟩ := parts
      have htext : codeUnits text = codeUnits front ++ ([0x3A, 0x20] ++ codeUnits after) := by
        rw [splitAtColon_eq hsplit, codeUnits_append, codeUnits_append, List.append_assoc]
        rfl
      have htake : (codeUnits text).take (codeUnits front).length = codeUnits front := by
        rw [htext, List.take_left]
      have hdrop : (codeUnits text).drop ((codeUnits front).length + 2) = codeUnits after := by
        rw [htext, ← List.drop_drop, List.drop_left]
        rfl
      have hpos : 0 < (codeUnits front).length ↔ front ≠ [] := by
        cases front with
        | nil => simp [codeUnits]
        | cons c rest =>
            have hle := length_le_codeUnits (c :: rest)
            rw [List.length_cons] at hle
            exact iff_of_true (by omega) (List.cons_ne_nil _ _)
      have hcolon : 0x3A ∈ codeUnits front ↔ ':' ∈ front :=
        mem_codeUnits_iff (d := ':') (by decide)
      simp only [Option.map_some, htake, hdrop, hpos, hcolon]

end Separator

/-- When the conditions of both sides agree. -/
theorem judged_iff {empty colon shortUnits short bad : Prop} [Decidable shortUnits]
    (hshort : shortUnits → short) :
    ((¬ empty ∧ shortUnits ∧ ¬ colon) ↔ (¬ empty ∧ short ∧ ¬ (colon ∨ bad))) ↔
      empty ∨ colon ∨ if shortUnits then ¬ bad else ¬ short ∨ bad := by
  by_cases hempty : empty
  · simp [hempty]
  by_cases hcolon : colon
  · simp [hcolon]
  by_cases hunits : shortUnits
  · simp [hempty, hcolon, hunits, hshort hunits]
  · simp [hempty, hcolon, hunits, imp_iff_not_or]

/-- **The three splits of a channel text agree** exactly when the text in front of the first
separator is judged alike. -/
theorem sender_splits_agree_iff (text : Text) :
    (splitChannelSenderAndText text = parseSender text ∧
      parseSenderFromText (codeUnits text) = splitUnits (parseSender text)) ↔
      ∀ front after, splitAtColon text = some (front, after) → JudgedAlike front := by
  rw [and_iff_right (splitChannelSenderAndText_eq text),
    parseSenderFromText_codeUnits, parseSender]
  cases hsplit : splitAtColon text with
  | none => simp [splitUnits]
  | some parts =>
      obtain ⟨front, after⟩ := parts
      have hlength := length_le_codeUnits front
      have hinvalid : front.any isInvalidInSender = true ↔
          ':' ∈ front ∨ ∃ c ∈ front, isBracketOrNull c = true := by
        simp only [List.any_eq_true, isInvalidInSender, isBracketOrNull, decide_eq_true_eq]
        constructor
        · rintro ⟨c, hc, rfl | hbad⟩
          · exact Or.inl hc
          · exact Or.inr ⟨c, hc, hbad⟩
        · rintro (hc | ⟨c, hc, hbad⟩)
          · exact ⟨':', hc, Or.inl rfl⟩
          · exact ⟨c, hc, Or.inr hbad⟩
      have hgood : (∀ c ∈ front, isBracketOrNull c = false) ↔
          ¬ ∃ c ∈ front, isBracketOrNull c = true := by
        simp
      have hpos : 0 < front.length ↔ front ≠ [] := List.length_pos_iff
      have hrange : (∀ front' after', some (front, after) = some (front', after') →
          JudgedAlike front') ↔ JudgedAlike front := by
        simp
      rw [hrange]
      dsimp only
      have hsame : ((if front ≠ [] ∧ (codeUnits front).length < 50 ∧ ':' ∉ front then
          (some (codeUnits front), codeUnits after) else (none, codeUnits text)) =
          splitUnits (if 0 < front.length ∧ front.length < 50 ∧
              ¬ front.any isInvalidInSender = true then
            (some front, after) else (none, text))) ↔
          ((front ≠ [] ∧ (codeUnits front).length < 50 ∧ ':' ∉ front) ↔
            (0 < front.length ∧ front.length < 50 ∧ ¬ front.any isInvalidInSender = true)) := by
        split
        next hfrontend =>
          split
          next hbackend => exact iff_of_true rfl (iff_of_true hfrontend hbackend)
          next hbackend =>
            refine iff_of_false (fun h => ?_) fun h => hbackend (h.mp hfrontend)
            cases congrArg Prod.fst h
        next hfrontend =>
          split
          next hbackend =>
            refine iff_of_false (fun h => ?_) fun h => hfrontend (h.mpr hbackend)
            cases congrArg Prod.fst h
          next hbackend => exact iff_of_true rfl (iff_of_false hfrontend hbackend)
      rw [hsame, JudgedAlike, hgood, hinvalid, hpos]
      exact judged_iff fun hunits => hlength.trans_lt hunits

/-- A name in brackets is a sender for the frontend alone. -/
theorem bracketed_sender_differs :
    parseSender "[bob]: hi".toList = (none, "[bob]: hi".toList) ∧
      parseSenderFromText (codeUnits "[bob]: hi".toList) =
        (some (codeUnits "[bob]".toList), codeUnits "hi".toList) ∧
      parseSenderFromText (codeUnits "[bob]: hi".toList) ≠
        splitUnits (parseSender "[bob]: hi".toList) := by
  decide

end RemoteTerm
