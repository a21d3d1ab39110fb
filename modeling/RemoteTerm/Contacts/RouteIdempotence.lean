import Mathlib
import RemoteTerm.Contacts.Routes
import RemoteTerm.Decoder.PacketGrammar
import RemoteTerm.Decoder.PathPayload

/-!
# Normalizing a route again

Routes are normalized when they are written, read and pushed. A normalized route
stays as it is, unless its length was a byte with the reserved hash mode; such a
length is kept, and a long path lowers it to a hop count that may read as a packed
byte of another mode.
-/

namespace RemoteTerm

open Library

namespace ContactRoute

/-- The route after one more normalization. -/
def renormalized (r : ContactRoute) : ContactRoute :=
  normalizeContactRoute (some r.path) (some r.pathLen) (some r.pathHashMode)

end ContactRoute

/-- A length that is out of range as a hop count. -/
def OutOfRange (pathLen : Int) : Prop := pathLen < -1 ∨ 63 < pathLen

/-- A length that reads as a packed byte with the reserved hash mode. -/
def ReservedLength (pathLen : Int) : Prop :=
  OutOfRange pathLen ∧ pathLen % 256 ≠ 255 ∧ pathLen % 256 / 64 = 3

section Unpacked

variable {pathLen len : Int} {pathHashMode mode : Option Int}

theorem unpackPathLength_of_range (h : ¬ OutOfRange pathLen) :
    unpackPathLength pathLen pathHashMode = some (pathLen, pathHashMode) := by
  exact if_neg h

theorem unpackPathLength_of_reserved (h : ReservedLength pathLen) :
    unpackPathLength pathLen pathHashMode = some (pathLen, pathHashMode) := by
  obtain ⟨hout, hflood, hmode⟩ := h
  unfold unpackPathLength
  rw [if_pos (show pathLen < -1 ∨ pathLen > 63 from hout)]
  dsimp only
  rw [if_neg hflood, if_neg (not_not.mpr hmode)]

/-- A length behind the unpacking is in range, or it is the given one with the reserved mode. -/
theorem unpackPathLength_cases (h : unpackPathLength pathLen pathHashMode = some (len, mode)) :
    ¬ OutOfRange len ∨ len = pathLen ∧ ReservedLength pathLen := by
  unfold unpackPathLength at h
  split at h
  next hout =>
    dsimp only at h
    split at h
    next => cases h
    next hflood =>
      split at h
      next hmode =>
        rw [Option.some.injEq, Prod.mk.injEq] at h
        rw [← h.1]
        unfold OutOfRange
        omega
      next hmode =>
        rw [Option.some.injEq, Prod.mk.injEq] at h
        exact Or.inr ⟨h.1.symm, hout, hflood, not_not.mp hmode⟩
  next hin =>
    rw [Option.some.injEq, Prod.mk.injEq] at h
    rw [← h.1]
    exact Or.inl hin

/-- Such a length is unpacked as it is. -/
theorem unpackPathLength_again (h : unpackPathLength pathLen pathHashMode = some (len, mode))
    (again : Option Int) : unpackPathLength len again = some (len, again) := by
  rcases unpackPathLength_cases h with hin | ⟨rfl, hreserved⟩
  · exact unpackPathLength_of_range hin
  · exact unpackPathLength_of_reserved hreserved

end Unpacked

section Trimmed

variable {path : Text} {pathLen mode : Int}

@[simp] theorem trimRoute_pathHashMode (path : Text) (pathLen mode : Int) :
    (trimRoute path pathLen mode).pathHashMode = mode := by
  unfold trimRoute
  dsimp only
  split_ifs <;> rfl

/-- The length after the trimming: the whole hops of a path that is too short. -/
theorem trimRoute_pathLen (hmode : 0 ≤ mode) :
    (trimRoute path pathLen mode).pathLen =
      if path ≠ [] ∧ ((path.length / 2 : Nat) : Int) < pathLen * (mode + 1) ∧
          ((path.length / 2 : Nat) : Int) % (mode + 1) = 0 then
        ((path.length / 2 : Nat) : Int) / (mode + 1)
      else pathLen := by
  unfold trimRoute
  dsimp only
  split_ifs <;> first | rfl | omega | grind

/-- A path with the announced number of bytes is left as it is. -/
theorem trimRoute_of_exact (h : ((path.length / 2 : Nat) : Int) = pathLen * (mode + 1)) :
    trimRoute path pathLen mode = ⟨path, pathLen, mode⟩ := by
  unfold trimRoute
  dsimp only
  rw [h]
  split
  next => rfl
  next =>
    rw [if_neg fun hcut => lt_irrefl _ hcut.1, if_neg fun hwhole => lt_irrefl _ hwhole.1]

/-- A trimmed route is trimmed. -/
theorem trimRoute_again (path : Text) (pathLen mode : Int) :
    trimRoute (trimRoute path pathLen mode).path (trimRoute path pathLen mode).pathLen mode =
      trimRoute path pathLen mode := by
  rw [trimRoute.eq_def path]
  dsimp only
  split
  next hpath => rw [trimRoute, if_pos hpath]
  next hpath =>
    split
    next hcut =>
      refine trimRoute_of_exact ?_
      dsimp only
      rw [List.length_take]
      omega
    next hcut =>
      split
      next hwhole =>
        exact trimRoute_of_exact (Int.ediv_mul_cancel_of_emod_eq_zero hwhole.2.2).symm
      next hwhole => rw [trimRoute, if_neg hpath, if_neg hcut, if_neg hwhole]

end Trimmed

/-- A length with the reserved mode is lowered to the hops of the path, more than 63 of them, and
the next pass unpacks their number as a byte of another mode. -/
def UnpackedAgain (pathHex : Option Text) (pathLen pathHashMode : Option Int) : Prop :=
  let bytesPerHop := effectiveHashMode pathHashMode + 1
  let actualBytes : Int := ((pathHex.getD []).length / 2 : Nat)
  ReservedLength (pathLen.getD (-1)) ∧ actualBytes < pathLen.getD (-1) * bytesPerHop ∧
    actualBytes % bytesPerHop = 0 ∧ 63 < actualBytes / bytesPerHop ∧
      ¬ ReservedLength (actualBytes / bytesPerHop)

section Again

variable {pathHex : Option Text} {pathLen pathHashMode mode : Option Int} {len : Int}

/-- The whole hops of a path. -/
theorem wholeHops_nonneg (path : Text) (hmode : 0 ≤ effectiveHashMode mode) :
    0 ≤ ((path.length / 2 : Nat) : Int) / (effectiveHashMode mode + 1) :=
  Int.ediv_nonneg (Int.natCast_nonneg _) (by omega)

/-- The trimming does not make a route a flood route. -/
theorem trimRoute_pathLen_ne (mode : Option Int) (path : Text) (hlen : len ≠ -1) :
    (trimRoute path len (effectiveHashMode mode)).pathLen ≠ -1 := by
  have hmode := (effectiveHashMode_range mode).1
  have hnonneg := wholeHops_nonneg path hmode
  rw [trimRoute_pathLen hmode]
  split
  next => omega
  next => exact hlen

/-- The trimmed length is unpacked as it is. -/
theorem unpackPathLength_trimmed (h : ¬ UnpackedAgain pathHex pathLen pathHashMode)
    (hunpack : unpackPathLength (pathLen.getD (-1)) pathHashMode = some (len, mode))
    (again : Option Int) :
    unpackPathLength (trimRoute (pathHex.getD []) len (effectiveHashMode mode)).pathLen again =
      some ((trimRoute (pathHex.getD []) len (effectiveHashMode mode)).pathLen, again) := by
  have hmode := (effectiveHashMode_range mode).1
  have hnonneg := wholeHops_nonneg (pathHex.getD []) hmode
  rw [trimRoute_pathLen hmode]
  split
  next hlower =>
    obtain ⟨-, hshort, hwhole⟩ := hlower
    by_cases hfew :
        (((pathHex.getD []).length / 2 : Nat) : Int) / (effectiveHashMode mode + 1) ≤ 63
    · apply unpackPathLength_of_range
      unfold OutOfRange
      omega
    · apply unpackPathLength_of_reserved
      rcases unpackPathLength_cases hunpack with hin | ⟨rfl, hreserved⟩
      · have hlt := Int.ediv_lt_of_lt_mul (by omega) hshort
        unfold OutOfRange at hin
        omega
      · rw [unpackPathLength_of_reserved hreserved, Option.some.injEq, Prod.mk.injEq] at hunpack
        rw [← hunpack.2] at hshort hwhole hfew ⊢
        by_contra hother
        exact h ⟨hreserved, hshort, hwhole, Int.not_le.mp hfew, hother⟩
  next => exact unpackPathLength_again hunpack again

/-- Without the reserved mode the normalized hop count is in range. -/
theorem normalizeContactRoute_pathLen_le (h : ¬ ReservedLength len) :
    (normalizeContactRoute pathHex (some len) mode).pathLen ≤ 63 := by
  rw [normalizeContactRoute, Option.getD_some]
  cases hunpack : unpackPathLength len mode with
  | none => exact show (-1 : Int) ≤ 63 by decide
  | some p =>
      obtain ⟨kept, keptMode⟩ := p
      have hin : ¬ OutOfRange kept := (unpackPathLength_cases hunpack).resolve_right (h ·.2)
      have hmode := (effectiveHashMode_range keptMode).1
      unfold OutOfRange at hin
      dsimp only
      split
      next => exact show (-1 : Int) ≤ 63 by decide
      next =>
        rw [trimRoute_pathLen hmode]
        split
        next hlower =>
          have hlt := Int.ediv_lt_of_lt_mul (by omega) hlower.2.1
          omega
        next => omega

end Again

/-- A normalized route stays as it is. -/
theorem renormalized_eq {pathHex : Option Text} {pathLen pathHashMode : Option Int}
    (h : ¬ UnpackedAgain pathHex pathLen pathHashMode) :
    (normalizeContactRoute pathHex pathLen pathHashMode).renormalized =
      normalizeContactRoute pathHex pathLen pathHashMode := by
  rw [normalizeContactRoute]
  cases hunpack : unpackPathLength (pathLen.getD (-1)) pathHashMode with
  | none => rfl
  | some p =>
      obtain ⟨len, mode⟩ := p
      dsimp only
      split
      next => rfl
      next hlen =>
        have hne := trimRoute_pathLen_ne mode (pathHex.getD []) hlen
        have hagain := unpackPathLength_trimmed h hunpack (some (effectiveHashMode mode))
        rw [ContactRoute.renormalized, normalizeContactRoute, trimRoute_pathHashMode,
          Option.getD_some, hagain]
        dsimp only
        rw [if_neg hne, effectiveHashMode_of_range (effectiveHashMode_range mode)]
        exact trimRoute_again (pathHex.getD []) len (effectiveHashMode mode)

/-- A hop count that the next pass unpacks does not stay. -/
theorem renormalized_ne {pathHex : Option Text} {pathLen pathHashMode : Option Int}
    (h : UnpackedAgain pathHex pathLen pathHashMode) :
    (normalizeContactRoute pathHex pathLen pathHashMode).renormalized ≠
      normalizeContactRoute pathHex pathLen pathHashMode := by
  obtain ⟨hreserved, hshort, hwhole, hmany, hother⟩ := h
  have hmode := (effectiveHashMode_range pathHashMode).1
  have hpath : pathHex.getD [] ≠ [] := by
    intro hnil
    rw [hnil] at hmany
    norm_num at hmany
  have hne : pathLen.getD (-1) ≠ -1 := fun hflood => hreserved.2.1 (by rw [hflood]; rfl)
  have hlen : (normalizeContactRoute pathHex pathLen pathHashMode).pathLen =
      (((pathHex.getD []).length / 2 : Nat) : Int) / (effectiveHashMode pathHashMode + 1) := by
    rw [normalizeContactRoute, unpackPathLength_of_reserved hreserved]
    dsimp only
    rw [if_neg hne, trimRoute_pathLen hmode, if_pos ⟨hpath, hshort, hwhole⟩]
  intro hsame
  have hle : (normalizeContactRoute pathHex pathLen pathHashMode).renormalized.pathLen ≤ 63 :=
    normalizeContactRoute_pathLen_le (hlen ▸ hother)
  rw [hsame, hlen] at hle
  omega

/-- A byte, as an unsigned or as a signed integer. -/
def StandsForByte (pathLen : Int) (b : Nat) : Prop := b < 256 ∧ (pathLen = b ∨ pathLen = b - 256)

/-- A packed length byte is unpacked as `decode_path_byte` does. -/
theorem unpackPathLength_packed {pathLen : Int} {b hops size : Nat}
    (hbyte : StandsForByte pathLen b) (hout : OutOfRange pathLen)
    (hdecode : decodePathByte b = some (hops, size)) (pathHashMode : Option Int) :
    unpackPathLength pathLen pathHashMode = some ((hops : Int), some ((size : Int) - 1)) := by
  obtain ⟨hlt, hlen⟩ := hbyte
  have hpacked : pathLen % 256 = b := by omega
  unfold decodePathByte at hdecode
  rw [upperBits_of_lt hlt, and_sixtyThree] at hdecode
  dsimp only at hdecode
  split at hdecode
  next => cases hdecode
  next hmode =>
    rw [Option.some.injEq, Prod.mk.injEq] at hdecode
    obtain ⟨rfl, rfl⟩ := hdecode
    unfold unpackPathLength
    rw [if_pos (show pathLen < -1 ∨ pathLen > 63 from hout)]
    dsimp only
    rw [hpacked, if_neg (by omega), if_pos (by omega)]
    push_cast
    rw [add_sub_cancel_right]

/-- A path that is not empty consists of whole hops, fewer than announced. -/
def HasFewerHops (path : Text) (hops size : Nat) : Prop :=
  path ≠ [] ∧ path.length / 2 < hops * size ∧ path.length / 2 % size = 0

instance (path : Text) (hops size : Nat) : Decidable (HasFewerHops path hops size) :=
  inferInstanceAs (Decidable (_ ∧ _))

/-- **When normalization is stable.** A normalized route stays as it is when it is normalized again
unless the next pass unpacks its hop count. A packed length byte is unpacked as `decode_path_byte`
does, with the hash mode in every case and with the hop count unless the path has fewer whole hops,
which are counted then. -/
theorem normalization_stable_iff (pathHex : Option Text) (pathLen pathHashMode : Option Int) :
    ((normalizeContactRoute pathHex pathLen pathHashMode).renormalized =
        normalizeContactRoute pathHex pathLen pathHashMode ↔
      ¬ UnpackedAgain pathHex pathLen pathHashMode) ∧
    ∀ packed b hops size, pathLen = some packed → StandsForByte packed b → OutOfRange packed →
      decodePathByte b = some (hops, size) →
      (normalizeContactRoute pathHex pathLen pathHashMode).pathHashMode = (size : Int) - 1 ∧
      ((normalizeContactRoute pathHex pathLen pathHashMode).pathLen = hops ↔
        ¬ HasFewerHops (pathHex.getD []) hops size) ∧
      (HasFewerHops (pathHex.getD []) hops size →
        (normalizeContactRoute pathHex pathLen pathHashMode).pathLen =
          (((pathHex.getD []).length / 2 / size : Nat) : Int)) := by
  refine ⟨⟨fun hsame hagain => renormalized_ne hagain hsame, renormalized_eq⟩, ?_⟩
  rintro packed b hops size rfl hbyte hout hdecode
  have hsize := (decodePathByte_range hdecode).2
  have hmode : effectiveHashMode (some ((size : Int) - 1)) = (size : Int) - 1 :=
    effectiveHashMode_of_range (by omega)
  rw [normalizeContactRoute, Option.getD_some, unpackPathLength_packed hbyte hout hdecode]
  dsimp only
  rw [if_neg (by omega), hmode, trimRoute_pathHashMode, trimRoute_pathLen (by omega),
    sub_add_cancel]
  norm_cast
  change _ ∧ ((if HasFewerHops (pathHex.getD []) hops size then _ else _) = _ ↔ _) ∧ _
  refine ⟨rfl, ?_, fun hfewer => if_pos hfewer⟩
  by_cases hfewer : HasFewerHops (pathHex.getD []) hops size
  · have hlt : (pathHex.getD []).length / 2 / size < hops :=
      Nat.div_lt_of_lt_mul (Nat.mul_comm hops size ▸ hfewer.2.1)
    rw [if_pos hfewer]
    exact iff_of_false hlt.ne (not_not.mpr hfewer)
  · rw [if_neg hfewer]
    exact iff_of_true rfl hfewer

theorem normalization_stable_one_hop :
    (normalizeContactRoute (some ['a', 'a', 'b', 'b']) (some 0x41) none).renormalized =
        ⟨['a', 'a', 'b', 'b'], 1, 1⟩ ∧
      (normalizeContactRoute (some ['a', 'a', 'b', 'b']) (some 0x41) none).pathLen = 1 :=
  have hstable := normalization_stable_iff (some ['a', 'a', 'b', 'b']) (some 0x41) none
  ⟨(hstable.1.mpr (fun h => absurd h.1.2.2 (by decide))).trans (by decide),
    ((hstable.2 0x41 0x41 1 2 rfl ⟨by decide, Or.inl rfl⟩ (Or.inr (by decide))
      (by decide)).2.1.mpr (by decide)).trans (by decide)⟩

/-- A length with the reserved mode is lowered to 64 hops, which the next normalization unpacks. -/
theorem normalization_not_stable :
    (normalizeContactRoute (some (List.replicate 128 'a')) (some 0xC8) none).renormalized ≠
      normalizeContactRoute (some (List.replicate 128 'a')) (some 0xC8) none := by
  intro h
  exact absurd (congrArg ContactRoute.pathLen h) (by decide +kernel)

end RemoteTerm
