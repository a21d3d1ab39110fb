import RemoteTerm.Frontend.Reactions
import RemoteTerm.Library.JsNumber

/-!
# The hash of the reaction target

The hash of another runtime, one-at-a-time over the UTF-16 units of a text, is
computed here with numbers that are doubles. A shift to the left may give a negative
number, which is added to an unsigned one before the sum is cut to 32 bits.

## Implementation notes

The unsigned words of the one-at-a-time hash represent the numbers between two
statements of the code: each statement takes such a number to such a number.
-/

namespace RemoteTerm

open Library JsNumber

/-! ### One-at-a-time -/

namespace OneAtATime

/-- Mix a unit into a hash. -/
def mix (hash : BitVec 32) (unit : UInt16) : BitVec 32 :=
  let hash := hash + BitVec.ofNat 32 unit.toNat
  let hash := hash + hash <<< 10
  hash ^^^ hash >>> 6

/-- The final avalanche. -/
def avalanche (hash : BitVec 32) : BitVec 32 :=
  let hash := hash + hash <<< 3
  let hash := hash ^^^ hash >>> 11
  hash + hash <<< 15

/-- The one-at-a-time hash of a sequence of units. -/
def hash (units : List UInt16) : BitVec 32 := avalanche (units.foldl mix 0)

/-- The lower 30 bits of a hash, with `0` replaced by `1`. -/
def nonzero30 (hash : BitVec 32) : BitVec 32 :=
  let masked := hash &&& 0x3fffffff
  if masked = 0 then 1 else masked

end OneAtATime

namespace DartHash

/-! ### The computation -/

/-- The body of the loop of `dartStringHash`. -/
def mixUnit (hash : Int) (unit : UInt16) : Js Int := do
  let hash := ushr (← add hash unit.toNat) 0
  let hash := ushr (← add hash (shl hash 10)) 0
  return ushr (bitXor hash (ushr hash 6)) 0

/-- `dartStringHash`, on the units of a string. -/
def dartStringHash (s : List UInt16) : Js Int := do
  let hash ← s.foldlM mixUnit 0
  let hash := ushr (← add hash (shl hash 3)) 0
  let hash := ushr (bitXor hash (ushr hash 11)) 0
  let hash := ushr (← add hash (shl hash 15)) 0
  let hash := bitAnd hash 0x3fffffff
  return if hash = 0 then 1 else hash

/-! ### Sums of 32-bit numbers are exact -/

theorem computes_add_unit (h : BitVec 32) (unit : UInt16) :
    Computes (add h.toNat unit.toNat) (h.toNat + unit.toNat) := by
  apply computes_add
  have hh := h.isLt
  have hunit := unit.toNat_lt
  omega

theorem computes_add_shl (h : BitVec 32) (k : Nat) :
    Computes (add h.toNat (shl h.toNat k)) (h.toNat + (h <<< (k % 32)).toInt) := by
  rw [shl_toNat]
  apply computes_add
  have hh := h.isLt
  have hlow := BitVec.le_toInt (h <<< (k % 32))
  have hhigh := BitVec.toInt_lt (x := h <<< (k % 32))
  omega

/-- `hash = (hash ^ (hash >>> k)) >>> 0`. -/
theorem ushr_zero_bitXor_ushr (h : BitVec 32) (k : Nat) :
    ushr (bitXor h.toNat (ushr h.toNat k)) 0 = (h ^^^ h >>> (k % 32)).toNat := by
  rw [ushr_toNat, ushr_zero_bitXor]

/-! ### The steps of the hash -/

theorem computes_mixUnit (h : BitVec 32) (unit : UInt16) :
    Computes (mixUnit h.toNat unit) (OneAtATime.mix h unit).toNat := by
  apply Computes.bind (computes_add_unit h unit)
  rw [ushr_zero_add_natCast]
  apply Computes.bind (computes_add_shl _ 10)
  simp only [ushr_zero_add_toInt, ushr_zero_bitXor_ushr]
  exact Computes.pure _

/-- The masked word of an unsigned number, with `0` replaced by `1`. -/
theorem nonzero30_toNat (h : BitVec 32) :
    (if bitAnd h.toNat 0x3fffffff = 0 then 1 else bitAnd h.toNat 0x3fffffff) =
      ((OneAtATime.nonzero30 h).toNat : Int) := by
  have hmsb : (0x3fffffff : BitVec 32).msb = false := by decide
  have hmask : bitAnd h.toNat 0x3fffffff = ((h &&& 0x3fffffff).toNat : Int) :=
    bitAnd_toNat hmsb
  rw [hmask, OneAtATime.nonzero30]
  generalize h &&& 0x3fffffff = masked
  by_cases hzero : masked = 0
  · subst hzero
    rfl
  · have hnat : (masked.toNat : Int) ≠ 0 := by
      intro hcontra
      apply hzero
      apply BitVec.eq_of_toNat_eq
      exact_mod_cast hcontra
    simp only [hzero, hnat, if_false]

theorem computes_dartStringHash (s : List UInt16) :
    Computes (dartStringHash s) (OneAtATime.nonzero30 (OneAtATime.hash s)).toNat := by
  have hloop : Computes (s.foldlM mixUnit 0) ((s.foldl OneAtATime.mix 0).toNat : Int) :=
    Computes.foldlM computes_mixUnit s 0
  apply Computes.bind hloop
  apply Computes.bind (computes_add_shl _ 3)
  simp only [ushr_zero_add_toInt, ushr_zero_bitXor_ushr]
  apply Computes.bind (computes_add_shl _ 15)
  rw [ushr_zero_add_toInt, nonzero30_toNat]
  exact Computes.pure _

/-- The double computation gives the 32-bit one-at-a-time hash, and each of its sums is a
double. -/
theorem dartStringHash_eq_oneAtATime (s : List UInt16) :
    ((dartStringHash s).run []).1 = (OneAtATime.nonzero30 (OneAtATime.hash s)).toNat ∧
      ∀ sum ∈ ((dartStringHash s).run []).2, IsDouble sum :=
  ⟨(computes_dartStringHash s).value, (computes_dartStringHash s).isDouble_of_mem⟩

/-! ### The hash of a reaction -/

/-- The words of a reaction's hash are mixed one at a time. -/
theorem reactions_foldl_toBitVec (s : List UInt16) :
    ((s.map UInt16.toNat).foldl (fun hash unit =>
      let hash := hash + UInt32.ofNat unit
      let hash := hash + hash <<< 10
      hash ^^^ hash >>> 6) 0).toBitVec = s.foldl OneAtATime.mix 0 := by
  rw [List.foldl_map]
  symm
  apply List.foldl_hom UInt32.toBitVec
  intro hash unit
  have hunit : (UInt32.ofNat unit.toNat).toBitVec = BitVec.ofNat 32 unit.toNat := rfl
  simp only [OneAtATime.mix, ← hunit]
  simp

theorem nonzero30_toBitVec (h : UInt32) :
    (if h &&& 0x3fffffff = 0 then 1 else h &&& 0x3fffffff).toBitVec =
      OneAtATime.nonzero30 h.toBitVec := by
  simp only [OneAtATime.nonzero30, apply_ite UInt32.toBitVec, ← UInt32.toBitVec_inj]
  rfl

/-- The word hash that a reaction uses is the computed one. -/
theorem reactions_dartStringHash_toNat (s : List UInt16) :
    ((Reactions.dartStringHash (s.map UInt16.toNat)).toNat : Int) =
      ((dartStringHash s).run []).1 := by
  have hword : (Reactions.dartStringHash (s.map UInt16.toNat)).toBitVec =
      OneAtATime.nonzero30 (OneAtATime.hash s) := by
    rw [OneAtATime.hash, ← reactions_foldl_toBitVec]
    unfold Reactions.dartStringHash
    simp only
    rw [nonzero30_toBitVec]
    simp [OneAtATime.avalanche]
  rw [(computes_dartStringHash s).value, ← hword]
  rfl

end DartHash

end RemoteTerm
