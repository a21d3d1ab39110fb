import Mathlib.Data.List.Infix

/-!
# Hexadecimal text, letter case and SQL patterns

Byte strings are lists of `UInt8`. Hexadecimal input skips ASCII white space
between bytes and accepts both letter cases; output is lower case. `like` is
the SQL operator with its two wildcards, blind to the case of ASCII letters.
-/

namespace Library

/-- A Python string: its code points. -/
abbrev Text := List Char

instance : LawfulBEq Text := inferInstance

/-- The upper-case form of an ASCII letter; other characters are unchanged. -/
def upperChar (c : Char) : Char :=
  if 97 ≤ c.toNat ∧ c.toNat ≤ 122 then Char.ofNat (c.toNat - 32) else c

/-- The lower-case form of an ASCII letter; other characters are unchanged. -/
def lowerChar (c : Char) : Char :=
  if 65 ≤ c.toNat ∧ c.toNat ≤ 90 then Char.ofNat (c.toNat + 32) else c

/-- `str.upper` on ASCII text. -/
def upper (s : Text) : Text := s.map upperChar

/-- `str.lower` on ASCII text. -/
def lower (s : Text) : Text := s.map lowerChar

theorem toNat_ofNat {n : Nat} (h : n.isValidChar) : (Char.ofNat n).toNat = n := by
  rw [Char.ofNat, dif_pos h]
  rfl

theorem upperChar_toNat (c : Char) :
    (upperChar c).toNat = if 97 ≤ c.toNat ∧ c.toNat ≤ 122 then c.toNat - 32 else c.toNat := by
  simp only [upperChar]
  split
  next h =>
    exact toNat_ofNat (Or.inl (by omega))
  next => rfl

theorem lowerChar_toNat (c : Char) :
    (lowerChar c).toNat = if 65 ≤ c.toNat ∧ c.toNat ≤ 90 then c.toNat + 32 else c.toNat := by
  simp only [lowerChar]
  split
  next h =>
    exact toNat_ofNat (Or.inl (by omega))
  next => rfl

@[simp] theorem lower_length (s : Text) : (lower s).length = s.length := by
  simp [lower]

theorem upperChar_idem (c : Char) : upperChar (upperChar c) = upperChar c := by
  have h := upperChar_toNat c
  rw [upperChar.eq_def (upperChar c), if_neg]
  split at h <;> omega

theorem lowerChar_idem (c : Char) : lowerChar (lowerChar c) = lowerChar c := by
  have h := lowerChar_toNat c
  rw [lowerChar.eq_def (lowerChar c), if_neg]
  split at h <;> omega

/-- Upper case is a normal form. -/
@[simp] theorem upper_idem (s : Text) : upper (upper s) = upper s := by
  simp [upper, Function.comp_def, upperChar_idem]

/-- Lower case is a normal form. -/
@[simp] theorem lower_idem (s : Text) : lower (lower s) = lower s := by
  simp [lower, Function.comp_def, lowerChar_idem]

/-- The value of a hexadecimal digit. -/
def hexValue (c : Char) : Option Nat :=
  if 48 ≤ c.toNat ∧ c.toNat ≤ 57 then some (c.toNat - 48)
  else if 97 ≤ c.toNat ∧ c.toNat ≤ 102 then some (c.toNat - 87)
  else if 65 ≤ c.toNat ∧ c.toNat ≤ 70 then some (c.toNat - 55)
  else none

/-- ASCII white space. -/
def isSpace (c : Char) : Bool := c.toNat = 32 ∨ 9 ≤ c.toNat ∧ c.toNat ≤ 13

/-- The byte denoted by two hexadecimal digits. -/
def hexByte (c d : Char) : Option UInt8 :=
  match hexValue c, hexValue d with
  | some hi, some lo => some (UInt8.ofNat (16 * hi + lo))
  | _, _ => none

/-- `bytes.fromhex`, with `none` for a `ValueError`: pairs of digits, with white
space allowed before each pair. -/
def bytesOfHex : Text → Option (List UInt8)
  | [] => some []
  | [c] => if isSpace c then some [] else none
  | c :: d :: rest =>
      if isSpace c then bytesOfHex (d :: rest)
      else (hexByte c d).bind fun b => (bytesOfHex rest).map (b :: ·)

/-- The lower-case hexadecimal digit of a value below sixteen. -/
def hexDigit (n : Nat) : Char := if n < 10 then Char.ofNat (48 + n) else Char.ofNat (87 + n)

/-- `format(b, "02x")`. -/
def hexOfByte (b : UInt8) : Text := [hexDigit (b.toNat / 16), hexDigit (b.toNat % 16)]

/-- `bytes.hex()`. -/
def hexOfBytes (bs : List UInt8) : Text := bs.flatMap hexOfByte

theorem hexValue_hexDigit {n : Nat} (h : n < 16) : hexValue (hexDigit n) = some n := by
  have hall : ∀ n < 16, hexValue (hexDigit n) = some n := by decide
  exact hall n h

theorem lowerChar_hexDigit {n : Nat} (h : n < 16) : lowerChar (hexDigit n) = hexDigit n := by
  have hall : ∀ n < 16, lowerChar (hexDigit n) = hexDigit n := by decide
  exact hall n h

theorem isSpace_hexDigit {n : Nat} (h : n < 16) : isSpace (hexDigit n) = false := by
  have hall : ∀ n < 16, isSpace (hexDigit n) = false := by decide
  exact hall n h

theorem hexByte_hexDigit (b : UInt8) :
    hexByte (hexDigit (b.toNat / 16)) (hexDigit (b.toNat % 16)) = some b := by
  have hlt := b.toNat_lt
  have hhi : b.toNat / 16 < 16 := by omega
  have hlo : b.toNat % 16 < 16 := by omega
  have hsum : 16 * (b.toNat / 16) + b.toNat % 16 = b.toNat := by omega
  simp [hexByte, hexValue_hexDigit hhi, hexValue_hexDigit hlo, hsum]

/-- The two digits of a byte are read back as that byte. -/
theorem bytesOfHex_hexOfByte_append (b : UInt8) (s : Text) :
    bytesOfHex (hexOfByte b ++ s) = (bytesOfHex s).map (b :: ·) := by
  have hlt := b.toNat_lt
  have hhi : b.toNat / 16 < 16 := by omega
  simp [hexOfByte, bytesOfHex, isSpace_hexDigit hhi, hexByte_hexDigit]

theorem hexOfBytes_cons (b : UInt8) (bs : List UInt8) :
    hexOfBytes (b :: bs) = hexOfByte b ++ hexOfBytes bs := rfl

@[simp] theorem length_hexOfBytes (bs : List UInt8) : (hexOfBytes bs).length = 2 * bs.length := by
  induction bs with
  | nil => rfl
  | cons b bs ih =>
      rw [hexOfBytes_cons, List.length_append, ih, List.length_cons]
      change 2 + 2 * bs.length = _
      omega

theorem hexOfBytes_singleton (b : UInt8) : hexOfBytes [b] = hexOfByte b := by
  simp [hexOfBytes]

/-- Hexadecimal text is read back as the bytes it was written from. -/
@[simp] theorem bytesOfHex_hexOfBytes (bs : List UInt8) : bytesOfHex (hexOfBytes bs) = some bs := by
  induction bs with
  | nil => rfl
  | cons b bs ih => simp [hexOfBytes_cons, bytesOfHex_hexOfByte_append, ih]

@[simp] theorem lower_hexOfByte (b : UInt8) : lower (hexOfByte b) = hexOfByte b := by
  have hlt := b.toNat_lt
  have hhi : b.toNat / 16 < 16 := by omega
  have hlo : b.toNat % 16 < 16 := by omega
  simp [lower, hexOfByte, lowerChar_hexDigit hhi, lowerChar_hexDigit hlo]

/-- Bytes are written in lower case. -/
@[simp] theorem lower_hexOfBytes (bs : List UInt8) : lower (hexOfBytes bs) = hexOfBytes bs := by
  induction bs with
  | nil => rfl
  | cons b bs ih =>
      have happend : lower (hexOfByte b ++ hexOfBytes bs) =
          lower (hexOfByte b) ++ lower (hexOfBytes bs) := List.map_append
      rw [hexOfBytes_cons, happend, lower_hexOfByte, ih]

/-- Text whose first two characters are the digits of a byte denotes bytes that start with it. -/
theorem head_of_bytesOfHex {s : Text} {b : UInt8} {bs : List UInt8} (h : bytesOfHex s = some bs)
    (htake : s.take 2 = hexOfByte b) : bs.head? = some b := by
  have hs : s = hexOfByte b ++ s.drop 2 := by rw [← htake, List.take_append_drop]
  rw [hs, bytesOfHex_hexOfByte_append, Option.map_eq_some_iff] at h
  obtain ⟨rest, -, rfl⟩ := h
  rfl

theorem hexOfByte_inj {a b : UInt8} (h : hexOfByte a = hexOfByte b) : a = b := by
  have hread := bytesOfHex_hexOfBytes [a]
  rw [hexOfBytes_singleton, h, ← hexOfBytes_singleton, bytesOfHex_hexOfBytes] at hread
  exact (List.singleton_injective (Option.some.inj hread)).symm

theorem hexValue_upperChar (c : Char) : hexValue (upperChar c) = hexValue c := by
  have h := upperChar_toNat c
  by_cases hl : 97 ≤ c.toNat ∧ c.toNat ≤ 122
  · rw [if_pos hl] at h
    by_cases hf : c.toNat ≤ 102
    · have h₁ : ¬ (48 ≤ (upperChar c).toNat ∧ (upperChar c).toNat ≤ 57) := by omega
      have h₂ : ¬ (97 ≤ (upperChar c).toNat ∧ (upperChar c).toNat ≤ 102) := by omega
      have h₃ : 65 ≤ (upperChar c).toNat ∧ (upperChar c).toNat ≤ 70 := by omega
      have h₄ : ¬ (48 ≤ c.toNat ∧ c.toNat ≤ 57) := by omega
      have h₅ : c.toNat - 32 - 55 = c.toNat - 87 := by omega
      rw [hexValue, if_neg h₁, if_neg h₂, if_pos h₃, hexValue, if_neg h₄, if_pos ⟨hl.1, hf⟩, h, h₅]
    · rw [hexValue, if_neg (by omega), if_neg (by omega), if_neg (by omega), hexValue,
        if_neg (by omega), if_neg (by omega), if_neg (by omega)]
  · simp only [upperChar, if_neg hl]

theorem isSpace_upperChar (c : Char) : isSpace (upperChar c) = isSpace c := by
  have h := upperChar_toNat c
  simp only [isSpace, decide_eq_decide]
  split at h <;> omega

/-- The letter case of hexadecimal text does not change the bytes it denotes. -/
@[simp] theorem bytesOfHex_upper (s : Text) : bytesOfHex (upper s) = bytesOfHex s := by
  unfold upper
  induction s using bytesOfHex.induct with
  | case1 => rfl
  | case2 c hc => simp [bytesOfHex, isSpace_upperChar]
  | case3 c hc => simp [bytesOfHex, isSpace_upperChar]
  | case4 c d rest hc ih =>
      simp only [List.map_cons, bytesOfHex, isSpace_upperChar, hc, if_true]
      exact ih
  | case5 c d rest hc ih =>
      simp only [List.map_cons, bytesOfHex, isSpace_upperChar, if_neg hc, hexByte,
        hexValue_upperChar, ih]

/-- `text LIKE pattern`. -/
def like : Text → Text → Bool
  | [], text => text.isEmpty
  | p :: pattern, text =>
      if p = '%' then text.tails.any (like pattern)
      else
        match text with
        | [] => false
        | c :: rest => (p = '_' ∨ lowerChar c = lowerChar p) && like pattern rest

/-- The text is hexadecimal, so no SQL wildcard stands in it. -/
def isHex (s : Text) : Bool := s.all fun c => (hexValue c).isSome

@[simp] theorem isHex_cons {c : Char} {s : Text} :
    isHex (c :: s) = true ↔ (hexValue c).isSome = true ∧ isHex s = true := by
  simp [isHex]

/-- A hexadecimal text followed by `%` matches what starts with it, in any letter case. -/
theorem like_hex_iff {s t : Text} (hs : isHex s) :
    like (s ++ ['%']) t = true ↔ lower s <+: lower t := by
  induction s generalizing t with
  | nil =>
      simp only [List.nil_append, like, if_true, List.any_eq_true]
      exact iff_of_true ⟨[], by simp⟩ List.nil_prefix
  | cons c s ih =>
      obtain ⟨hc, hs⟩ := isHex_cons.mp hs
      have hany : c ≠ '%' := by
        rintro rfl
        exact absurd hc (by decide)
      have hone : c ≠ '_' := by
        rintro rfl
        exact absurd hc (by decide)
      cases t with
      | nil => simp [like, hany, lower]
      | cons d t =>
          have hih : like (s ++ ['%']) t = true ↔ List.map lowerChar s <+: List.map lowerChar t :=
            ih hs
          simp only [List.cons_append, like, hany, hone, if_false, false_or, lower, List.map_cons,
            List.cons_prefix_cons, Bool.and_eq_true, decide_eq_true_eq, hih]
          rw [eq_comm]

/-- A prefix of a prefix is a prefix. -/
theorem like_hex_trans {s t u : Text} (hs : isHex s) (ht : isHex t)
    (hst : like (s ++ ['%']) t) (htu : like (t ++ ['%']) u) : like (s ++ ['%']) u := by
  rw [like_hex_iff hs] at hst ⊢
  exact hst.trans ((like_hex_iff ht).mp htu)

end Library
