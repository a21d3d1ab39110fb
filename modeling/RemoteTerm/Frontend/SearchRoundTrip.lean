import Mathlib
import RemoteTerm.Repository.MessageSearch

/-!
# Searching by a name

The browser quotes a name as the value of a `user:` operator. The server reads the
name back from the query, whatever characters it has, and leaves the free text
around the operator.
-/

namespace RemoteTerm

open Library
open MessageRepository

/-- `quoteSearchOperatorValue`. -/
def quoteSearchOperatorValue (value : Text) : Text :=
  let backslashes := value.flatMap fun c => if c = '\\' then ['\\', '\\'] else [c]
  ['"'] ++ (backslashes.flatMap fun c => if c = '"' then ['\\', '"'] else [c]) ++ ['"']

/-- The text of the search for a user. -/
def userSearch (name : Text) : Text := ['u', 's', 'e', 'r', ':'] ++ quoteSearchOperatorValue name

/-- The text contains no search operator. -/
def HasNoOperator (s : Text) : Prop := (findOperators 0 true [] s).2 = []

section Escape

/-- Both replacements at once. -/
def escapeQuoted (value : Text) : Text :=
  value.flatMap fun c => if c = '\\' then ['\\', '\\'] else if c = '"' then ['\\', '"'] else [c]

theorem quoteSearchOperatorValue_eq (value : Text) :
    quoteSearchOperatorValue value = '"' :: (escapeQuoted value ++ ['"']) := by
  have hescape : (value.flatMap fun c => if c = '\\' then ['\\', '\\'] else [c]).flatMap
      (fun c => if c = '"' then ['\\', '"'] else [c]) = escapeQuoted value := by
    rw [escapeQuoted, List.flatMap_assoc]
    congr 1
    funext c
    by_cases hc : c = '\\'
    · rw [if_pos hc, if_pos hc]
      decide
    · rw [if_neg hc, if_neg hc, List.flatMap_cons, List.flatMap_nil, List.append_nil]
  unfold quoteSearchOperatorValue
  dsimp only
  rw [hescape]
  rfl

@[simp] theorem escapeQuoted_nil : escapeQuoted [] = [] := rfl

theorem escapeQuoted_backslash (s : Text) :
    escapeQuoted ('\\' :: s) = '\\' :: '\\' :: escapeQuoted s := rfl

theorem escapeQuoted_quote (s : Text) : escapeQuoted ('"' :: s) = '\\' :: '"' :: escapeQuoted s :=
  rfl

theorem escapeQuoted_other {c : Char} (hbackslash : c ≠ '\\') (hquote : c ≠ '"') (s : Text) :
    escapeQuoted (c :: s) = c :: escapeQuoted s := by
  rw [escapeQuoted, List.flatMap_cons, if_neg hbackslash, if_neg hquote]
  rfl

/-- An escaped text does not start with a quote. -/
theorem escapeQuoted_head (s : Text) : ∀ c ∈ (escapeQuoted s).head?, c ≠ '"' := by
  intro c hc
  cases s with
  | nil => cases hc
  | cons d s =>
      by_cases hbackslash : d = '\\'
      · subst hbackslash
        rw [escapeQuoted_backslash] at hc
        cases hc
        decide
      · by_cases hquote : d = '"'
        · subst hquote
          rw [escapeQuoted_quote] at hc
          cases hc
          decide
        · rw [escapeQuoted_other hbackslash hquote] at hc
          cases hc
          exact hquote

theorem quotedValue_cons {c : Char} (hquote : c ≠ '"') (hbackslash : c ≠ '\\') {s : Text}
    (hs : s ≠ []) : quotedValue (c :: s) = (quotedValue s).map fun (v, r) => (c :: v, r) := by
  obtain ⟨d, rest, rfl⟩ := List.exists_cons_of_ne_nil hs
  rw [quotedValue, if_neg hquote, if_neg hbackslash]

/-- A quoted text ends at the quote behind the escaped value. -/
theorem quotedValue_escapeQuoted (value rest : Text) :
    quotedValue (escapeQuoted value ++ '"' :: rest) = some (escapeQuoted value, rest) := by
  induction value with
  | nil => cases rest <;> rfl
  | cons c value ih =>
      by_cases hbackslash : c = '\\'
      · subst hbackslash
        rw [escapeQuoted_backslash, List.cons_append, List.cons_append, quotedValue,
          if_neg (by decide), if_pos rfl, if_neg (by decide), ih]
        rfl
      · by_cases hquote : c = '"'
        · subst hquote
          rw [escapeQuoted_quote, List.cons_append, List.cons_append, quotedValue,
            if_neg (by decide), if_pos rfl, if_neg (by decide), ih]
          rfl
        · rw [escapeQuoted_other hbackslash hquote, List.cons_append,
            quotedValue_cons hquote hbackslash (by simp), ih]
          rfl

/-- A character that starts no pair is kept. -/
theorem replacePair_cons {a b out c : Char} (hc : c ≠ a) (s : Text) :
    replacePair a b out (c :: s) = c :: replacePair a b out s := by
  cases s with
  | nil => rfl
  | cons d s => rw [replacePair, if_neg fun hand => hc hand.1]

/-- So is one that no second character follows. -/
theorem replacePair_cons_of_head {a b out : Char} {s : Text} (hs : ∀ c ∈ s.head?, c ≠ b) :
    replacePair a b out (a :: s) = a :: replacePair a b out s := by
  cases s with
  | nil => rfl
  | cons d s => rw [replacePair, if_neg fun hand => hs d rfl hand.2]

theorem replacePair_pair (a b out : Char) (s : Text) :
    replacePair a b out (a :: b :: s) = out :: replacePair a b out s := by
  rw [replacePair, if_pos ⟨rfl, rfl⟩]

/-- The value with only its backslashes escaped. -/
def escapeBackslashes (value : Text) : Text :=
  value.flatMap fun c => if c = '\\' then ['\\', '\\'] else [c]

/-- The first replacement gives back the quotes. -/
theorem replacePair_escapeQuoted (value : Text) :
    replacePair '\\' '"' '"' (escapeQuoted value) = escapeBackslashes value := by
  induction value with
  | nil => rfl
  | cons c value ih =>
      by_cases hbackslash : c = '\\'
      · subst hbackslash
        have hsecond : ∀ c ∈ ('\\' :: escapeQuoted value).head?, c ≠ '"' := by
          rintro c ⟨⟩
          decide
        rw [escapeQuoted_backslash, replacePair_cons_of_head hsecond,
          replacePair_cons_of_head (escapeQuoted_head value), ih]
        rfl
      · have hkept : escapeBackslashes (c :: value) = c :: escapeBackslashes value := by
          rw [escapeBackslashes, List.flatMap_cons, if_neg hbackslash]
          rfl
        rw [hkept]
        by_cases hquote : c = '"'
        · subst hquote
          rw [escapeQuoted_quote, replacePair_pair, ih]
        · rw [escapeQuoted_other hbackslash hquote, replacePair_cons hbackslash, ih]

/-- The second replacement gives back the backslashes. -/
theorem replacePair_escapeBackslashes (value : Text) :
    replacePair '\\' '\\' '\\' (escapeBackslashes value) = value := by
  induction value with
  | nil => rfl
  | cons c value ih =>
      by_cases hbackslash : c = '\\'
      · subst hbackslash
        have hpair : escapeBackslashes ('\\' :: value) = '\\' :: '\\' :: escapeBackslashes value :=
          rfl
        rw [hpair, replacePair_pair, ih]
      · have hkept : escapeBackslashes (c :: value) = c :: escapeBackslashes value := by
          rw [escapeBackslashes, List.flatMap_cons, if_neg hbackslash]
          rfl
        rw [hkept, replacePair_cons hbackslash, ih]

/-- Unescaping undoes the escaping. -/
theorem unescapeSearchQuotedValue_escapeQuoted (value : Text) :
    unescapeSearchQuotedValue (escapeQuoted value) = value := by
  rw [unescapeSearchQuotedValue, replacePair_escapeQuoted, replacePair_escapeBackslashes]

end Escape

section Keywords

variable {keyword s tail : Text} {k c w : Char}

theorem keywordAt_nil_cons (c : Char) (s : Text) :
    keywordAt [] (c :: s) = if c = ':' then some ([], s) else none := by
  by_cases hc : c = ':'
  · subst hc
    rfl
  · rw [if_neg hc]
    unfold keywordAt
    simp [hc]

theorem keywordAt_cons_nil (k : Char) (keyword : Text) : keywordAt (k :: keyword) [] = none := by
  unfold keywordAt
  simp

theorem keywordAt_cons_cons (k c : Char) (keyword s : Text) :
    keywordAt (k :: keyword) (c :: s) =
      if ignoreCaseEq k c then (keywordAt keyword s).map fun (word, rest) => (c :: word, rest)
      else none := by
  unfold keywordAt
  dsimp only
  simp only [List.length_cons, List.take_succ_cons, List.drop_succ_cons, List.zip_cons_cons,
    List.all_cons, Nat.add_right_cancel_iff, Bool.and_eq_true]
  by_cases hk : ignoreCaseEq k c = true
  · rw [if_pos hk]
    simp only [hk, true_and]
    split
    next hword =>
      split <;> rfl
    next => rfl
  · rw [if_neg hk, if_neg fun hand => hk hand.2.1]

/-- White space is no letter of a keyword. -/
theorem ignoreCaseEq_whitespace (hletter : 97 ≤ k.toNat ∧ k.toNat ≤ 122)
    (hw : isWhitespace w = true) : ignoreCaseEq k w = false := by
  have hn : 9 ≤ w.toNat ∧ w.toNat ≤ 13 ∨ 28 ≤ w.toNat ∧ w.toNat ≤ 32 ∨ w.toNat = 0x85 ∨
      w.toNat = 0xA0 ∨ w.toNat = 0x1680 ∨ 0x2000 ≤ w.toNat ∧ w.toNat ≤ 0x200A ∨
      w.toNat = 0x2028 ∨ w.toNat = 0x2029 ∨ w.toNat = 0x202F ∨ w.toNat = 0x205F ∨
      w.toNat = 0x3000 := by
    simpa [isWhitespace] using hw
  have hlower : (lowerChar w).toNat = w.toNat := by
    rw [lowerChar_toNat, if_neg (by omega)]
  unfold ignoreCaseEq
  rw [decide_eq_false_iff_not]
  rintro (heq | ⟨-, hlong⟩)
  · rw [heq] at hlower
    omega
  · omega

theorem userLetters : ∀ k ∈ ['u', 's', 'e', 'r'], 97 ≤ k.toNat ∧ k.toNat ≤ 122 := by
  intro k hk
  simp only [List.mem_cons, List.not_mem_nil, or_false] at hk
  rcases hk with rfl | rfl | rfl | rfl <;> decide

theorem channelLetters :
    ∀ k ∈ ['c', 'h', 'a', 'n', 'n', 'e', 'l'], 97 ≤ k.toNat ∧ k.toNat ≤ 122 := by
  intro k hk
  simp only [List.mem_cons, List.not_mem_nil, or_false] at hk
  rcases hk with rfl | rfl | rfl | rfl | rfl | rfl | rfl <;> decide

/-- A keyword before white space is read as if the text ended there. -/
theorem keywordAt_append (hkeyword : ∀ k ∈ keyword, 97 ≤ k.toNat ∧ k.toNat ≤ 122)
    (hw : isWhitespace w = true) (s tail : Text) :
    keywordAt keyword (s ++ w :: tail) =
      (keywordAt keyword s).map fun (word, rest) => (word, rest ++ w :: tail) := by
  induction keyword generalizing s with
  | nil =>
      cases s with
      | nil =>
          have hcolon : w ≠ ':' := by
            rintro rfl
            exact absurd hw (by decide)
          rw [List.nil_append, keywordAt_nil_cons, if_neg hcolon]
          rfl
      | cons c s =>
          rw [List.cons_append, keywordAt_nil_cons, keywordAt_nil_cons]
          split <;> rfl
  | cons k keyword ih =>
      obtain ⟨hk, hrest⟩ := List.forall_mem_cons.mp hkeyword
      cases s with
      | nil =>
          rw [List.nil_append, keywordAt_cons_cons, keywordAt_cons_nil,
            ignoreCaseEq_whitespace hk hw]
          rfl
      | cons c s =>
          rw [List.cons_append, keywordAt_cons_cons, keywordAt_cons_cons, ih hrest]
          split
          next => cases keywordAt keyword s <;> rfl
          next => rfl

/-- White space has no value. -/
theorem operatorValue_whitespace (hw : isWhitespace w = true) (tail : Text) :
    operatorValue (w :: tail) = none := by
  have hquote : w ≠ '"' := by
    rintro rfl
    exact absurd hw (by decide)
  unfold operatorValue
  dsimp only
  split
  next heq => exact absurd (List.cons.inj heq).1 hquote
  next => simp [hw]

/-- Where no value stands before the end of a text, none stands before white space. -/
theorem operatorValue_append (hnone : operatorValue s = none) (hw : isWhitespace w = true)
    (tail : Text) : operatorValue (s ++ w :: tail) = none := by
  cases s with
  | nil => exact operatorValue_whitespace hw tail
  | cons c s =>
      by_cases hc : isWhitespace c = true
      · exact operatorValue_whitespace hc _
      · unfold operatorValue at hnone
        dsimp only at hnone
        split at hnone
        next => simp [hc] at hnone
        next => simp [hc] at hnone

/-- White space starts no operator. -/
theorem operatorAt_whitespace (hw : isWhitespace w = true) (tail : Text) :
    operatorAt (w :: tail) = none := by
  unfold operatorAt
  have hu : ignoreCaseEq 'u' w = false := ignoreCaseEq_whitespace (by decide) hw
  have hc : ignoreCaseEq 'c' w = false := ignoreCaseEq_whitespace (by decide) hw
  rw [keywordAt_cons_cons, keywordAt_cons_cons, hu, hc]
  rfl

/-- Where no operator stands before the end of a text, none stands before white space. -/
theorem operatorAt_append (hnone : operatorAt s = none) (hw : isWhitespace w = true)
    (tail : Text) : operatorAt (s ++ w :: tail) = none := by
  unfold operatorAt at hnone ⊢
  rw [keywordAt_append userLetters hw, keywordAt_append channelLetters hw]
  cases huser : keywordAt ['u', 's', 'e', 'r'] s with
  | some p =>
      rw [huser] at hnone
      have hvalue : operatorValue p.2 = none := by
        cases hv : operatorValue p.2 with
        | none => rfl
        | some v => simp [hv] at hnone
      simp [operatorValue_append hvalue hw]
  | none =>
      rw [huser] at hnone
      cases hchannel : keywordAt ['c', 'h', 'a', 'n', 'n', 'e', 'l'] s with
      | some p =>
          rw [hchannel] at hnone
          have hvalue : operatorValue p.2 = none := by
            cases hv : operatorValue p.2 with
            | none => rfl
            | some v => simp [hv] at hnone
          simp [operatorValue_append hvalue hw]
      | none => rfl

end Keywords

section Scan

variable {fragment s tail : Text} {boundary : Bool} {w : Char}

/-- The operators do not depend on the fragment before them. -/
theorem findOperators_fragment (skip : Nat) (boundary : Bool) (fragment fragment' s : Text) :
    (findOperators skip boundary fragment s).2 = (findOperators skip boundary fragment' s).2 := by
  induction s generalizing skip boundary fragment fragment' with
  | nil => rfl
  | cons c s ih =>
      cases skip with
      | succ skip => exact ih skip _ _ _
      | zero =>
          rw [findOperators, findOperators]
          split
          next => rfl
          next => exact ih 0 _ _ _

/-- A text without an operator is one fragment. -/
theorem findOperators_of_none (h : (findOperators 0 boundary fragment s).2 = []) :
    findOperators 0 boundary fragment s = ([fragment ++ s], []) := by
  induction s generalizing boundary fragment with
  | nil => rw [findOperators, List.append_nil]
  | cons c s ih =>
      rw [findOperators] at h ⊢
      split at h
      next => cases h
      next => rw [ih h, List.append_assoc, List.singleton_append]

/-- A text without an operator, and the white space behind it, come before the rest. -/
theorem findOperators_append (h : (findOperators 0 boundary fragment s).2 = [])
    (hw : isWhitespace w = true) (tail : Text) :
    findOperators 0 boundary fragment (s ++ w :: tail) =
      findOperators 0 true (fragment ++ s ++ [w]) tail := by
  induction s generalizing boundary fragment with
  | nil =>
      have hnone : (if boundary = true then operatorAt (w :: tail) else none) = none := by
        rw [operatorAt_whitespace hw, ite_self]
      rw [List.nil_append, findOperators, hnone]
      dsimp only
      rw [hw, List.append_nil]
  | cons c s ih =>
      rw [findOperators] at h
      split at h
      next => cases h
      next hat =>
        have hnone : (if boundary = true then operatorAt (c :: (s ++ w :: tail)) else none) =
            none := by
          split at hat
          next hb =>
            rw [if_pos hb]
            exact operatorAt_append hat hw tail
          next hb => rw [if_neg hb]
        rw [List.cons_append, findOperators, hnone]
        dsimp only
        rw [ih h]
        simp only [List.append_assoc, List.singleton_append]

/-- White space alone comes before the rest. -/
theorem findOperators_blank (hs : ∀ c ∈ s, isWhitespace c = true) (tail : Text) :
    findOperators 0 true fragment (s ++ tail) = findOperators 0 true (fragment ++ s) tail := by
  induction s generalizing fragment with
  | nil => rw [List.nil_append, List.append_nil]
  | cons c s ih =>
      obtain ⟨hc, hs⟩ := List.forall_mem_cons.mp hs
      have hnone : (if true = true then operatorAt (c :: (s ++ tail)) else none) = none := by
        rw [if_pos rfl, operatorAt_whitespace hc]
      rw [List.cons_append, findOperators, hnone]
      dsimp only
      rw [hc, ih hs, List.append_assoc, List.singleton_append]

/-- The rest of a match is skipped. -/
theorem findOperators_skip (s tail : Text) (c : Char) (boundary : Bool) (fragment : Text) :
    findOperators (s.length + 1) boundary fragment (s ++ c :: tail) =
      findOperators 0 (isWhitespace c) fragment tail := by
  induction s generalizing boundary with
  | nil => rfl
  | cons d s ih =>
      rw [List.cons_append, List.length_cons, findOperators]
      exact ih _

/-- The operator of the search for a user is read as a whole. -/
theorem operatorAt_userSearch (name tail : Text) :
    operatorAt (userSearch name ++ tail) =
      some (⟨['u', 's', 'e', 'r'], escapeQuoted name⟩, (userSearch name).length) := by
  have htext : userSearch name ++ tail = 'u' :: 's' :: 'e' :: 'r' :: ':' :: '"' ::
      (escapeQuoted name ++ '"' :: tail) := by
    rw [userSearch, quoteSearchOperatorValue_eq]
    simp
  have hkeyword : keywordAt ['u', 's', 'e', 'r'] (userSearch name ++ tail) =
      some (['u', 's', 'e', 'r'], '"' :: (escapeQuoted name ++ '"' :: tail)) := by
    rw [htext]
    rfl
  have hvalue : operatorValue ('"' :: (escapeQuoted name ++ '"' :: tail)) =
      some (escapeQuoted name, tail) := by
    change (quotedValue (escapeQuoted name ++ '"' :: tail)).or _ = _
    rw [quotedValue_escapeQuoted]
    rfl
  unfold operatorAt
  rw [hkeyword]
  change (operatorValue ('"' :: (escapeQuoted name ++ '"' :: tail))).bind _ = _
  rw [hvalue]
  simp only [Option.bind_some, List.length_append, Nat.add_sub_cancel]
  rfl

/-- Behind the operator the scan goes on with an empty fragment. -/
theorem findOperators_userSearch (name tail fragment : Text) :
    findOperators 0 true fragment (userSearch name ++ tail) =
      (fragment :: (findOperators 0 false [] tail).1,
        ⟨['u', 's', 'e', 'r'], escapeQuoted name⟩ :: (findOperators 0 false [] tail).2) := by
  have hat := operatorAt_userSearch name tail
  have htext : userSearch name ++ tail = 'u' ::
      (('s' :: 'e' :: 'r' :: ':' :: '"' :: escapeQuoted name) ++ '"' :: tail) := by
    rw [userSearch, quoteSearchOperatorValue_eq]
    simp
  have hlength : (userSearch name).length - 1 =
      ('s' :: 'e' :: 'r' :: ':' :: '"' :: escapeQuoted name).length + 1 := by
    rw [userSearch, quoteSearchOperatorValue_eq]
    simp
  rw [htext] at hat ⊢
  rw [findOperators, if_pos rfl, hat]
  dsimp only
  rw [hlength, findOperators_skip]
  rfl

end Scan

section Strip

theorem strip_append_blank {s blank : Text} (hblank : ∀ c ∈ blank, isWhitespace c = true) :
    strip (s ++ blank) = strip s := by
  have hnone : blank.dropWhile isWhitespace = [] := List.dropWhile_eq_nil_iff.mpr hblank
  unfold strip
  rw [List.dropWhile_append]
  split
  next hempty => rw [hnone, List.isEmpty_iff.mp hempty]
  next =>
    rw [List.reverse_append, List.dropWhile_append_of_pos fun c hc =>
      hblank c (List.mem_reverse.mp hc)]

theorem strip_blank_append {s blank : Text} (hblank : ∀ c ∈ blank, isWhitespace c = true) :
    strip (blank ++ s) = strip s := by
  unfold strip
  rw [List.dropWhile_append_of_pos hblank]

end Strip

/-- **A name is found by the text that the browser searches for.** Alone, or with free text before
and after it, the operator is read as one user term that is the name; the free text remains,
stripped and joined by a space. -/
theorem parseSearchQuery_userSearch (name before separator separator' after : Text)
    (hbefore : HasNoOperator before) (hafter : HasNoOperator after)
    (hseparator : ∀ c ∈ separator, isWhitespace c = true)
    (hseparator' : ∀ c ∈ separator', isWhitespace c = true)
    (hsplit : before ≠ [] → separator ≠ []) (hsplit' : after ≠ [] → separator' ≠ []) :
    parseSearchQuery (before ++ separator ++ userSearch name ++ separator' ++ after) =
      { freeText := [' '].intercalate ([strip before, strip after].filter fun f => !f.isEmpty)
        userTerms := [name]
        channelTerms := [] } := by
  have htail : findOperators 0 false [] (separator' ++ after) = ([separator' ++ after], []) := by
    cases separator' with
    | nil =>
        have hnil : after = [] := not_not.mp fun hne => hsplit' hne rfl
        subst hnil
        rfl
    | cons w separator' =>
        obtain ⟨hw, hrest⟩ := List.forall_mem_cons.mp hseparator'
        have hnone : (findOperators 0 false [] []).2 = [] := rfl
        rw [List.cons_append, ← List.nil_append (w :: (separator' ++ after)),
          findOperators_append hnone hw, findOperators_blank hrest, findOperators_of_none]
        · simp
        · rw [findOperators_fragment 0 true _ []]
          exact hafter
  have hhead : findOperators 0 true [] (before ++ separator ++ (userSearch name ++
      (separator' ++ after))) = findOperators 0 true (before ++ separator) (userSearch name ++
      (separator' ++ after)) := by
    cases separator with
    | nil =>
        have hnil : before = [] := not_not.mp fun hne => hsplit hne rfl
        subst hnil
        rfl
    | cons w separator =>
        obtain ⟨hw, hrest⟩ := List.forall_mem_cons.mp hseparator
        rw [List.append_assoc, List.cons_append, findOperators_append hbefore hw,
          findOperators_blank hrest]
        simp
  have hfound : findOperators 0 true [] (before ++ separator ++ userSearch name ++ separator' ++
      after) = ([before ++ separator, separator' ++ after],
        [⟨['u', 's', 'e', 'r'], escapeQuoted name⟩]) := by
    have htext : before ++ separator ++ userSearch name ++ separator' ++ after =
        before ++ separator ++ (userSearch name ++ (separator' ++ after)) := by
      simp only [List.append_assoc]
    rw [htext, hhead, findOperators_userSearch, htail]
  unfold parseSearchQuery
  rw [hfound]
  dsimp only
  have huser : decide (lower ['u', 's', 'e', 'r'] = ['u', 's', 'e', 'r']) = true := by decide
  rw [List.map_cons, List.map_cons, List.map_nil, strip_append_blank hseparator,
    strip_blank_append hseparator']
  simp only [List.isEmpty_cons, Bool.false_eq_true, if_false, List.filter_cons, huser, if_true,
    List.filter_nil, Bool.not_true, List.map_cons, List.map_nil,
    unescapeSearchQuotedValue_escapeQuoted]

theorem parseSearchQuery_userSearch_quoted :
    parseSearchQuery
        (['h', 'i'] ++ [' '] ++ userSearch ['a', '"', '\\'] ++ ['\n'] ++ ['y', 'o']) =
      ⟨['h', 'i', ' ', 'y', 'o'], [['a', '"', '\\']], []⟩ :=
  parseSearchQuery_userSearch ['a', '"', '\\'] ['h', 'i'] [' '] ['\n'] ['y', 'o'] rfl rfl
    (List.forall_mem_singleton.mpr (by decide)) (List.forall_mem_singleton.mpr (by decide))
    (by decide) (by decide)

end RemoteTerm
