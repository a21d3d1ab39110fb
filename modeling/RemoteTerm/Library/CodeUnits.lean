import Mathlib.Data.List.Lex
import Mathlib.Order.Lattice
import RemoteTerm.Library.Text

/-!
# Code units

Scripting languages of the browser compare texts by their UTF-16 code units.
Different texts have different code units, so the order is total.
-/

namespace Library

/-- The code units of a character: itself, or a surrogate pair. -/
def charUnits (c : Char) : List Nat :=
  if c.toNat < 0x10000 then [c.toNat]
  else [0xD800 + (c.toNat - 0x10000) / 1024, 0xDC00 + (c.toNat - 0x10000) % 1024]

/-- The code units of a text. -/
def codeUnits (s : Text) : List Nat := s.flatMap charUnits

/-- A character is not a surrogate. -/
theorem toNat_not_surrogate (c : Char) : c.toNat < 0xD800 ∨ 0xDFFF < c.toNat := by
  have hvalid := c.valid
  simp only [UInt32.isValidChar, Nat.isValidChar] at hvalid
  change c.val.toNat < 0xD800 ∨ 0xDFFF < c.val.toNat
  omega

theorem toNat_lt (c : Char) : c.toNat < 0x110000 := by
  have hvalid := c.valid
  simp only [UInt32.isValidChar, Nat.isValidChar] at hvalid
  change c.val.toNat < 0x110000
  omega

/-- The first character can be read off the code units. -/
theorem charUnits_append_inj {c d : Char} {r s : List Nat}
    (h : charUnits c ++ r = charUnits d ++ s) : c = d ∧ r = s := by
  have hc := toNat_not_surrogate c
  have hd := toNat_not_surrogate d
  have hc' := toNat_lt c
  have hd' := toNat_lt d
  have hnat : c.toNat = d.toNat ∧ r = s := by
    unfold charUnits at h
    split at h <;> split at h
    · simpa using h
    · simp only [List.cons_append, List.nil_append, List.cons.injEq] at h
      omega
    · simp only [List.cons_append, List.nil_append, List.cons.injEq] at h
      omega
    · simp only [List.cons_append, List.nil_append, List.cons.injEq] at h
      exact ⟨by omega, h.2.2⟩
  exact ⟨Char.toNat_inj.mp hnat.1, hnat.2⟩

theorem charUnits_ne_nil (c : Char) : charUnits c ≠ [] := by
  unfold charUnits
  split <;> simp

/-- Different texts have different code units. -/
theorem codeUnits_inj {s t : Text} (h : codeUnits s = codeUnits t) : s = t := by
  induction s generalizing t with
  | nil =>
      cases t with
      | nil => rfl
      | cons d t => exact absurd h.symm (by simp [codeUnits, charUnits_ne_nil])
  | cons c s ih =>
      cases t with
      | nil => exact absurd h (by simp [codeUnits, charUnits_ne_nil])
      | cons d t =>
          obtain ⟨rfl, htail⟩ := charUnits_append_inj (show
            charUnits c ++ codeUnits s = charUnits d ++ codeUnits t from h)
          rw [ih htail]

/-- `[a, b].sort()`. -/
def sortPair (a b : Text) : Text × Text := if codeUnits b < codeUnits a then (b, a) else (a, b)

/-- Sorting forgets in which order two texts were given. -/
theorem sortPair_comm (a b : Text) : sortPair a b = sortPair b a := by
  unfold sortPair
  rcases lt_trichotomy (codeUnits a) (codeUnits b) with h | h | h
  · rw [if_neg (lt_asymm h), if_pos h]
  · rw [codeUnits_inj h]
  · rw [if_pos h, if_neg (lt_asymm h)]

theorem sortPair_eq_or (a b : Text) : sortPair a b = (a, b) ∨ sortPair a b = (b, a) := by
  unfold sortPair
  split
  · exact .inr rfl
  · exact .inl rfl

end Library
