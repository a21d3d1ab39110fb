import RemoteTerm.Library.Text

/-!
# Percent encoding

`encodeURIComponent` writes the UTF-8 octets of a character as escapes unless it
is unreserved. `decodeURIComponent` reads escapes back and fails where an escape
is broken off, is no hexadecimal number, or does not continue the octets of a
character. It succeeds on just the texts that are characters and escaped
characters side by side.
-/

namespace Library

/-- The characters that `encodeURIComponent` keeps. -/
def isUnreserved (c : Char) : Bool := c.isAlphanum || "-_.!~*'()".toList.contains c

/-- The escape of an octet. -/
def percentOctet (b : UInt8) : Text := '%' :: upper (hexOfByte b)

/-- `encodeURIComponent`. -/
def encodeURIComponent (s : Text) : Text :=
  s.flatMap fun c =>
    if isUnreserved c then [c] else (String.utf8EncodeChar c).flatMap percentOctet

/-- How many octets a character has whose first octet is known. -/
def octetCount (first : UInt8) : Option Nat :=
  if first.toNat < 0x80 then some 1
  else if first.toNat < 0xC0 then none
  else if first.toNat < 0xE0 then some 2
  else if first.toNat < 0xF0 then some 3
  else if first.toNat < 0xF8 then some 4
  else none

/-- The character with these octets. -/
def charOfOctets (octets : List UInt8) : Option Char :=
  (octets.toByteArray.utf8DecodeChar? 0).filter fun c => String.utf8EncodeChar c = octets

/-- Read one escape. -/
def readOctet : Text → Option (UInt8 × Text)
  | '%' :: high :: low :: rest =>
      match hexValue high, hexValue low with
      | some h, some l => some (UInt8.ofNat (16 * h + l), rest)
      | _, _ => none
  | _ => none

/-- Read a number of escapes. -/
def readOctets : Nat → Text → Option (List UInt8 × Text)
  | 0, s => some ([], s)
  | n + 1, s => do
      let (b, rest) ← readOctet s
      let (bs, rest) ← readOctets n rest
      return (b :: bs, rest)

/-- Read a character or the escapes of one. -/
def readChar : Text → Option (Char × Text)
  | [] => none
  | c :: rest =>
      if c = '%' then do
        let (first, _) ← readOctet (c :: rest)
        let n ← octetCount first
        let (octets, rest) ← readOctets n (c :: rest)
        let decoded ← charOfOctets octets
        return (decoded, rest)
      else some (c, rest)

/-- The loop of `decodeURIComponent`; each turn reads at least one character. -/
def decodeLoop : Nat → Text → Option Text
  | _, [] => some []
  | 0, _ :: _ => none
  | fuel + 1, s => do
      let (c, rest) ← readChar s
      let decoded ← decodeLoop fuel rest
      return c :: decoded

/-- `decodeURIComponent`, with `none` for a `URIError`. -/
def decodeURIComponent (s : Text) : Option Text := decodeLoop s.length s

/-- The escapes of some octets, with digits in any letter case. -/
inductive Octets : List UInt8 → Text → Prop
  | nil : Octets [] []
  | cons {b : UInt8} {bs : List UInt8} {high low : Char} {rest : Text}
      (hhigh : hexValue high = some (b.toNat / 16)) (hlow : hexValue low = some (b.toNat % 16))
      (h : Octets bs rest) : Octets (b :: bs) ('%' :: high :: low :: rest)

/-- A character as itself, or as the escapes of its octets. -/
inductive EscapedChar (c : Char) : Text → Prop
  | plain (hc : c ≠ '%') : EscapedChar c [c]
  | octets {piece : Text} (h : Octets (String.utf8EncodeChar c) piece) : EscapedChar c piece

/-- A text and one of its escaped forms. -/
inductive Escaped : Text → Text → Prop
  | nil : Escaped [] []
  | cons {c : Char} {s piece rest : Text} (hc : EscapedChar c piece) (h : Escaped s rest) :
      Escaped (c :: s) (piece ++ rest)

/-- Characters and escaped characters side by side. -/
def WellEscaped (escaped : Text) : Prop := ∃ s, Escaped s escaped

section Octets

variable {b : UInt8} {bs : List UInt8} {s rest piece : Text}

theorem hexValue_lt {c : Char} {n : Nat} (h : hexValue c = some n) : n < 16 := by
  unfold hexValue at h
  split at h
  · cases h
    omega
  · split at h
    · cases h
      omega
    · split at h
      · cases h
        omega
      · cases h

theorem readOctet_eq_some_iff :
    readOctet s = some (b, rest) ↔ ∃ high low, hexValue high = some (b.toNat / 16) ∧
      hexValue low = some (b.toNat % 16) ∧ s = '%' :: high :: low :: rest := by
  constructor
  · intro h
    unfold readOctet at h
    split at h
    next high low tail =>
      split at h
      next x y hx hy =>
        have hx' := hexValue_lt hx
        have hy' := hexValue_lt hy
        cases h
        have hbyte : (UInt8.ofNat (16 * x + y)).toNat = 16 * x + y := by
          rw [UInt8.toNat_ofNat', Nat.mod_eq_of_lt (by omega)]
        refine ⟨high, low, ?_, ?_, rfl⟩
        · rw [hbyte, hx]
          congr 1
          omega
        · rw [hbyte, hy]
          congr 1
          omega
      next => cases h
    next => cases h
  · rintro ⟨high, low, hhigh, hlow, rfl⟩
    have hbyte : UInt8.ofNat (16 * (b.toNat / 16) + b.toNat % 16) = b := by
      rw [Nat.div_add_mod, UInt8.ofNat_toNat]
    simp only [readOctet, hhigh, hlow, hbyte]

theorem readOctets_eq_some_iff {n : Nat} :
    readOctets n s = some (bs, rest) ↔
      bs.length = n ∧ ∃ piece, Octets bs piece ∧ s = piece ++ rest := by
  induction n generalizing s bs with
  | zero =>
      simp only [readOctets, Option.some.injEq, Prod.mk.injEq]
      constructor
      · rintro ⟨rfl, rfl⟩
        exact ⟨rfl, [], .nil, rfl⟩
      · rintro ⟨hlength, piece, hpiece, rfl⟩
        obtain rfl := List.length_eq_zero_iff.mp hlength
        cases hpiece
        exact ⟨rfl, rfl⟩
  | succ n ih =>
      simp only [readOctets, Option.bind_eq_bind, Option.bind_eq_some_iff, Option.pure_def,
        Prod.exists, Option.some.injEq, Prod.mk.injEq, readOctet_eq_some_iff]
      constructor
      · rintro ⟨b, tail, ⟨high, low, hhigh, hlow, rfl⟩, bs', rest', htail, rfl, rfl⟩
        obtain ⟨hlength, piece, hpiece, rfl⟩ := ih.mp htail
        exact ⟨congrArg (· + 1) hlength, '%' :: high :: low :: piece, .cons hhigh hlow hpiece, rfl⟩
      · rintro ⟨hlength, piece, hpiece, rfl⟩
        cases hpiece with
        | nil => cases hlength
        | cons hhigh hlow hpiece =>
            exact ⟨_, _, ⟨_, _, hhigh, hlow, rfl⟩, _, _,
              ih.mpr ⟨Nat.succ.inj hlength, _, hpiece, rfl⟩, rfl, rfl⟩

/-- The octets of a character are read as the character, and no others are. -/
theorem charOfOctets_eq_some_iff {c : Char} :
    charOfOctets bs = some c ↔ String.utf8EncodeChar c = bs := by
  unfold charOfOctets
  rw [Option.filter_eq_some_iff, decide_eq_true_eq]
  refine ⟨And.right, ?_⟩
  rintro rfl
  refine ⟨?_, rfl⟩
  have hdecode := ByteArray.utf8DecodeChar?_utf8EncodeChar_append (b := ByteArray.empty) (c := c)
  rwa [ByteArray.append_empty] at hdecode

theorem octetCount_ofNat {n : Nat} (h : n < 256) :
    octetCount (UInt8.ofNat n) =
      if n < 0x80 then some 1
      else if n < 0xC0 then none
      else if n < 0xE0 then some 2
      else if n < 0xF0 then some 3
      else if n < 0xF8 then some 4
      else none := by
  rw [octetCount, UInt8.toNat_ofNat', Nat.mod_eq_of_lt h]

/-- The first octet of a character tells how many there are. -/
theorem octetCount_utf8EncodeChar {c : Char} (h : String.utf8EncodeChar c = b :: bs) :
    octetCount b = some (bs.length + 1) := by
  unfold String.utf8EncodeChar at h
  dsimp only at h
  generalize c.val.toNat = v at h
  split at h
  · cases h
    rw [octetCount_ofNat (by omega), if_pos (by omega)]
    rfl
  · split at h
    · cases h
      rw [octetCount_ofNat (by omega), if_neg (by omega), if_neg (by omega), if_pos (by omega)]
      rfl
    · split at h
      · cases h
        rw [octetCount_ofNat (by omega), if_neg (by omega), if_neg (by omega), if_neg (by omega),
          if_pos (by omega)]
        rfl
      · cases h
        rw [octetCount_ofNat (by omega), if_neg (by omega), if_neg (by omega), if_neg (by omega),
          if_neg (by omega), if_pos (by omega)]
        rfl

/-- A read character stands in front as itself or escaped. -/
theorem readChar_eq_some_iff {c : Char} :
    readChar s = some (c, rest) ↔ ∃ piece, EscapedChar c piece ∧ s = piece ++ rest := by
  constructor
  · intro h
    cases s with
    | nil => cases h
    | cons d tail =>
        unfold readChar at h
        dsimp only at h
        by_cases hd : d = '%'
        · rw [if_pos hd] at h
          simp only [Option.bind_eq_bind, Option.bind_eq_some_iff, Option.pure_def, Prod.exists,
            Option.some.injEq, Prod.mk.injEq] at h
          obtain ⟨first, -, -, n, -, octets, rest', hread, decoded, hdecoded, rfl, rfl⟩ := h
          obtain ⟨-, piece, hpiece, hs⟩ := readOctets_eq_some_iff.mp hread
          exact ⟨piece, .octets (charOfOctets_eq_some_iff.mp hdecoded ▸ hpiece), hs⟩
        · rw [if_neg hd] at h
          cases h
          exact ⟨[c], .plain hd, rfl⟩
  · rintro ⟨piece, hc, rfl⟩
    cases hc with
    | plain hplain => simp [readChar, hplain]
    | octets hpiece =>
        cases hoctets : String.utf8EncodeChar c with
        | nil => exact absurd hoctets String.utf8EncodeChar_ne_nil
        | cons b bs =>
            have hcount := octetCount_utf8EncodeChar hoctets
            have hread : readOctets (bs.length + 1) (piece ++ rest) = some (b :: bs, rest) :=
              readOctets_eq_some_iff.mpr ⟨rfl, piece, hoctets ▸ hpiece, rfl⟩
            rw [hoctets] at hpiece
            cases hpiece with
            | @cons _ _ high low tail hhigh hlow h =>
                have hfirst : readOctet ('%' :: high :: low :: (tail ++ rest)) =
                    some (b, tail ++ rest) :=
                  readOctet_eq_some_iff.mpr ⟨high, low, hhigh, hlow, rfl⟩
                simp only [List.cons_append] at hread ⊢
                simp only [readChar, if_true, hfirst, hcount, hread,
                  charOfOctets_eq_some_iff.mpr hoctets, Option.bind_eq_bind, Option.bind_some,
                  Option.pure_def]

theorem EscapedChar.ne_nil {c : Char} (h : EscapedChar c piece) : piece ≠ [] := by
  cases h with
  | plain => simp
  | octets hoctets =>
      rintro rfl
      generalize hbytes : String.utf8EncodeChar c = bytes at hoctets
      cases hoctets
      exact String.utf8EncodeChar_ne_nil hbytes

end Octets

section Texts

variable {s escaped : Text}

/-- The empty text is the escape of itself alone. -/
theorem escaped_nil_iff : Escaped s [] ↔ s = [] := by
  constructor
  · intro h
    generalize hnil : ([] : Text) = e at h
    cases h with
    | nil => rfl
    | cons hc h => exact absurd (List.append_eq_nil_iff.mp hnil.symm).1 hc.ne_nil
  · rintro rfl
    exact .nil

/-- With a turn for each character the loop reads all of the text. -/
theorem decodeLoop_eq_some_iff {fuel : Nat} (hfuel : escaped.length ≤ fuel) :
    decodeLoop fuel escaped = some s ↔ Escaped s escaped := by
  induction fuel generalizing escaped s with
  | zero =>
      obtain rfl := List.length_eq_zero_iff.mp (Nat.le_zero.mp hfuel)
      rw [escaped_nil_iff, decodeLoop, Option.some.injEq]
      exact eq_comm
  | succ fuel ih =>
      cases escaped with
      | nil =>
          rw [escaped_nil_iff, decodeLoop, Option.some.injEq]
          exact eq_comm
      | cons d tail =>
          simp only [decodeLoop, Option.bind_eq_bind, Option.bind_eq_some_iff, Option.pure_def,
            Prod.exists, Option.some.injEq, readChar_eq_some_iff]
          constructor
          · rintro ⟨c, rest, ⟨piece, hc, hsplit⟩, decoded, hrest, rfl⟩
            have hpos := List.length_pos_of_ne_nil hc.ne_nil
            have hlength := congrArg List.length hsplit
            rw [List.length_append] at hlength
            rw [hsplit]
            exact .cons hc ((ih (by omega)).mp hrest)
          · intro h
            generalize hsplit : d :: tail = e at h
            cases h with
            | nil => cases hsplit
            | @cons c s piece rest hc h =>
                have hpos := List.length_pos_of_ne_nil hc.ne_nil
                have hlength := congrArg List.length hsplit
                rw [List.length_append] at hlength
                exact ⟨c, rest, ⟨piece, hc, rfl⟩, s, (ih (by omega)).mpr h, rfl⟩

/-- **What is decoded** is the text that the given one is an escaped form of. -/
theorem decodeURIComponent_eq_some_iff :
    decodeURIComponent escaped = some s ↔ Escaped s escaped :=
  decodeLoop_eq_some_iff (le_refl _)

/-- Decoding fails on just the texts that are not well escaped. -/
theorem decodeURIComponent_isSome_iff :
    (decodeURIComponent escaped).isSome ↔ WellEscaped escaped := by
  simp only [Option.isSome_iff_exists, decodeURIComponent_eq_some_iff]
  rfl

theorem hexValue_upper_hexDigit {n : Nat} (h : n < 16) :
    hexValue (upperChar (hexDigit n)) = some n := by
  have hall : ∀ n < 16, hexValue (upperChar (hexDigit n)) = some n := by decide
  exact hall n h

theorem octets_percentOctet (bs : List UInt8) : Octets bs (bs.flatMap percentOctet) := by
  induction bs with
  | nil => exact .nil
  | cons b bs ih =>
      have hb := b.toNat_lt
      exact .cons (hexValue_upper_hexDigit (by omega)) (hexValue_upper_hexDigit (by omega)) ih

/-- The encoded form is an escaped form. -/
theorem escaped_encodeURIComponent (s : Text) : Escaped s (encodeURIComponent s) := by
  induction s with
  | nil => exact .nil
  | cons c rest ih =>
      refine .cons ?_ ih
      dsimp only
      split
      next hkeep =>
        refine .plain ?_
        rintro rfl
        revert hkeep
        decide
      next => exact .octets (octets_percentOctet _)

/-- **Encoding is undone by decoding.** -/
theorem decodeURIComponent_encodeURIComponent (s : Text) :
    decodeURIComponent (encodeURIComponent s) = some s :=
  decodeURIComponent_eq_some_iff.mpr (escaped_encodeURIComponent s)

end Texts

end Library
