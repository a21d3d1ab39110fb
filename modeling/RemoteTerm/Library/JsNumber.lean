import Mathlib

/-!
# Integer arithmetic of a scripting language

A number is a double, and a sum is rounded to the nearest one. The bit operators
reduce their operands to 32 bits; their results are signed, except for the
unsigned shift to the right.

## Implementation notes

A computation keeps the exact sums that it rounds, so that a statement can speak
of every one of them. The numbers are the integers among the doubles; a sum
beyond their finite range is rounded here as if the exponent had no bound.
-/

namespace Library

namespace JsNumber

/-! ### Doubles -/

/-- An integer that is a double: a significand of 53 bits and an exponent. -/
def IsDouble (n : Int) : Prop :=
  ∃ (m : Int) (e : Nat), m.natAbs < 2 ^ 53 ∧ e ≤ 971 ∧ n = m * 2 ^ e

/-- The number of low bits that a significand of 53 bits has no place for. -/
def excess (n : Int) : Nat := n.natAbs.size - 53

/-- The nearest double; of two nearest ones, the one with the even significand. -/
def roundDouble (n : Int) : Int :=
  let ulp : Int := 2 ^ excess n
  let q := n / ulp
  let r := n % ulp
  if 2 * r < ulp ∨ 2 * r = ulp ∧ q % 2 = 0 then q * ulp else (q + 1) * ulp

theorem isDouble_of_natAbs_lt {n : Int} (h : n.natAbs < 2 ^ 53) : IsDouble n :=
  ⟨n, 0, h, by omega, by simp⟩

theorem excess_le_of_significand {m : Int} {e : Nat} (hm : m.natAbs < 2 ^ 53) :
    excess (m * 2 ^ e) ≤ e := by
  have habs : (m * 2 ^ e).natAbs = m.natAbs * 2 ^ e := by
    rw [Int.natAbs_mul, Int.natAbs_pow]
    rfl
  have hlt : m.natAbs * 2 ^ e < 2 ^ (53 + e) := by
    rw [Nat.pow_add]
    exact Nat.mul_lt_mul_of_pos_right hm (Nat.two_pow_pos e)
  have hsize : (m * 2 ^ e).natAbs.size ≤ 53 + e := by
    rw [habs]
    exact Nat.size_le.mpr hlt
  unfold excess
  omega

/-- A double rounds to itself. -/
theorem roundDouble_of_isDouble {n : Int} (h : IsDouble n) : roundDouble n = n := by
  obtain ⟨m, e, hm, -, rfl⟩ := h
  have hdvd : (2 : Int) ^ excess (m * 2 ^ e) ∣ m * 2 ^ e :=
    Dvd.dvd.mul_left (pow_dvd_pow 2 (excess_le_of_significand hm)) m
  have hzero : m * 2 ^ e % 2 ^ excess (m * 2 ^ e) = 0 := Int.emod_eq_zero_of_dvd hdvd
  have hpos : (0 : Int) < 2 ^ excess (m * 2 ^ e) := by positivity
  simp only [roundDouble, hzero, mul_zero]
  rw [if_pos (Or.inl hpos)]
  exact Int.ediv_mul_cancel hdvd

/-! ### The operators of 32 bits -/

/-- The 32 bits of a number. -/
def toInt32 (n : Int) : BitVec 32 := BitVec.ofInt 32 n

/-- `a << k`. -/
def shl (a : Int) (k : Nat) : Int := (toInt32 a <<< (k % 32)).toInt

/-- `a >>> k`. -/
def ushr (a : Int) (k : Nat) : Int := (toInt32 a >>> (k % 32)).toNat

/-- `a ^ b`. -/
def bitXor (a b : Int) : Int := (toInt32 a ^^^ toInt32 b).toInt

/-- `a & b`. -/
def bitAnd (a b : Int) : Int := (toInt32 a &&& toInt32 b).toInt

@[simp] theorem toInt32_toNat (h : BitVec 32) : toInt32 h.toNat = h := by
  simp [toInt32]

@[simp] theorem toInt32_toInt (h : BitVec 32) : toInt32 h.toInt = h := BitVec.ofInt_toInt

theorem toInt32_add (a b : Int) : toInt32 (a + b) = toInt32 a + toInt32 b :=
  BitVec.ofInt_add a b

theorem toInt32_natCast (n : Nat) : toInt32 n = BitVec.ofNat 32 n := BitVec.ofInt_natCast 32 n

theorem shl_toNat (h : BitVec 32) (k : Nat) : shl h.toNat k = (h <<< (k % 32)).toInt := by
  simp only [shl, toInt32_toNat]

theorem ushr_toNat (h : BitVec 32) (k : Nat) : ushr h.toNat k = (h >>> (k % 32)).toNat := by
  simp only [ushr, toInt32_toNat]

/-- `a >>> 0` is the number of the bits. -/
theorem ushr_zero (a : Int) : ushr a 0 = (toInt32 a).toNat := by
  simp only [ushr, Nat.zero_mod, BitVec.ushiftRight_zero]

theorem ushr_zero_bitXor (h g : BitVec 32) : ushr (bitXor h.toNat g.toNat) 0 = (h ^^^ g).toNat := by
  simp only [ushr_zero, bitXor, toInt32_toNat, toInt32_toInt]

/-- The sum of an unsigned and a signed number of 32 bits, reduced to 32 bits. -/
theorem ushr_zero_add_toInt (h g : BitVec 32) :
    ushr ((h.toNat : Int) + g.toInt) 0 = (h + g).toNat := by
  rw [ushr_zero, toInt32_add, toInt32_toNat, toInt32_toInt]

theorem ushr_zero_add_natCast (h : BitVec 32) (n : Nat) :
    ushr ((h.toNat : Int) + n) 0 = (h + BitVec.ofNat 32 n).toNat := by
  rw [ushr_zero, toInt32_add, toInt32_toNat, toInt32_natCast]

/-- A mask without the sign bit gives an unsigned number. -/
theorem bitAnd_toNat {h mask : BitVec 32} (hmask : mask.msb = false) :
    bitAnd h.toNat mask.toNat = (h &&& mask).toNat := by
  have hmsb : (h &&& mask).msb = false := by
    rw [BitVec.msb_and, hmask, Bool.and_false]
  simp only [bitAnd, toInt32_toNat]
  exact BitVec.toInt_eq_toNat_of_msb hmsb

/-! ### Computations with sums -/

/-- A computation that keeps the exact sums behind its additions. -/
abbrev Js := StateM (List Int)

/-- `a + b`. -/
def add (a b : Int) : Js Int := do
  modify (· ++ [a + b])
  return roundDouble (a + b)

variable {α β σ : Type}

/-- A computation gives `v`, and each of its sums is a double. -/
def Computes (c : Js α) (v : α) : Prop :=
  ∀ sums, ∃ new, (∀ n ∈ new, IsDouble n) ∧ c.run sums = (v, sums ++ new)

theorem Computes.pure (v : α) : Computes (Pure.pure v : Js α) v :=
  fun sums => ⟨[], by simp, by rw [List.append_nil]; rfl⟩

theorem Computes.bind {c : Js α} {f : α → Js β} {v : α} {w : β} (hc : Computes c v)
    (hf : Computes (f v) w) : Computes (c >>= f) w := by
  intro sums
  obtain ⟨first, hfirst, hrun⟩ := hc sums
  obtain ⟨second, hsecond, hrun'⟩ := hf (sums ++ first)
  refine ⟨first ++ second, ?_, ?_⟩
  · intro n hn
    exact (List.mem_append.mp hn).elim (hfirst n) (hsecond n)
  · rw [StateT.run_bind, hrun, ← List.append_assoc]
    exact hrun'

/-- An addition of two small numbers is exact. -/
theorem computes_add {a b : Int} (h : (a + b).natAbs < 2 ^ 53) : Computes (add a b) (a + b) := by
  have hdouble := isDouble_of_natAbs_lt h
  intro sums
  refine ⟨[a + b], by simpa using hdouble, ?_⟩
  have hround := roundDouble_of_isDouble hdouble
  simp [add, hround]
  rfl

/-- A loop computes what the loop over the represented states gives. -/
theorem Computes.foldlM {f : β → α → Js β} {g : σ → α → σ} {repr : σ → β}
    (hstep : ∀ s x, Computes (f (repr s) x) (repr (g s x))) (xs : List α) (s : σ) :
    Computes (xs.foldlM f (repr s)) (repr (xs.foldl g s)) := by
  induction xs generalizing s with
  | nil => exact Computes.pure _
  | cons x xs ih =>
      rw [List.foldlM_cons, List.foldl_cons]
      exact Computes.bind (hstep s x) (ih (g s x))

theorem Computes.value {c : Js α} {v : α} (h : Computes c v) : (c.run []).1 = v := by
  obtain ⟨new, -, hrun⟩ := h []
  rw [hrun]

theorem Computes.isDouble_of_mem {c : Js α} {v : α} (h : Computes c v) :
    ∀ n ∈ (c.run []).2, IsDouble n := by
  obtain ⟨new, hnew, hrun⟩ := h []
  rw [hrun]
  simpa using hnew

end JsNumber

end Library
