import Mathlib
import RemoteTerm.Decoder.Region

/-!
# Splitting a message

Replies of bots that are too long for one message are cut into chunks, at spaces
where possible. The loop ends exactly when every character that is not white
space fits into a chunk; then no character is lost.

## Implementation notes

A text is a list of characters, each of which has a UTF-8 encoding, and the
number of its bytes is that of `str.encode`. The loop has fuel; `none` means that
it has not ended.
-/

namespace RemoteTerm

open Library

/-- `TEXT_BYTE_LIMIT`. -/
def textByteLimit : Nat := 156

/-- `len(text.encode())`. -/
def byteLength (text : Text) : Nat := (text.map Char.utf8Size).sum

/-- `max_text_bytes`. -/
def maxTextBytes (radioName : Option Text) : Nat :=
  match radioName with
  | none => textByteLimit
  | some radioName => max 1 (textByteLimit - byteLength radioName - 2)

/-- `str.lstrip()`. -/
def lstrip (s : Text) : Text := s.dropWhile isWhitespace

/-- `str.rstrip()`. -/
def rstrip (s : Text) : Text := s.rdropWhile isWhitespace

/-- `len(text.encode()[:limit].decode(errors="ignore"))`: the number of characters whose encoding
is in the first bytes. -/
def decodedLength (limit : Nat) : Text → Nat
  | [] => 0
  | c :: rest => if c.utf8Size ≤ limit then decodedLength (limit - c.utf8Size) rest + 1 else 0

/-- `text.rfind(" ", 0, stop)`. -/
def rfindSpace : Text → Nat → Option Nat
  | [], _ => none
  | _ :: _, 0 => none
  | c :: rest, stop + 1 =>
      match rfindSpace rest stop with
      | some i => some (i + 1)
      | none => if c = ' ' then some 0 else none

/-- Where the text is cut: at the last space within the limit, or at the limit. -/
def cutPosition (limit : Nat) (rest : Text) : Nat :=
  let cut := decodedLength limit rest
  let space := (rfindSpace rest (cut + 1)).getD 0
  if space > 0 then space else cut

/-- The loop of `split_text`. -/
def splitLoop (limit : Nat) : Nat → Text → Option (List Text)
  | 0, _ => none
  | fuel + 1, rest =>
      if byteLength rest > limit then
        let cut := cutPosition limit rest
        (splitLoop limit fuel (lstrip (rest.drop cut))).map (rstrip (rest.take cut) :: ·)
      else some (if rest = [] then [] else [rest])

/-- `split_text`. -/
def splitText (fuel : Nat) (text : Text) (limit : Nat) : Option (List Text) :=
  splitLoop limit fuel (strip text)

/-- White space only. -/
def Blank (s : Text) : Prop := ∀ c ∈ s, isWhitespace c = true

/-- The chunks stand in the text in order, with only white space before, between and behind them. -/
def CutFrom : List Text → Text → Prop
  | [], text => Blank text
  | chunk :: chunks, text =>
      ∃ gap rest, text = gap ++ (chunk ++ rest) ∧ Blank gap ∧ CutFrom chunks rest

/-- The chunks can be sent, and nothing is lost. -/
structure SplitsInto (limit : Nat) (text : Text) (chunks : List Text) : Prop where
  nonempty : ∀ chunk ∈ chunks, chunk ≠ []
  fits : ∀ chunk ∈ chunks, byteLength chunk ≤ limit
  cut : CutFrom chunks text

section Pieces

theorem byteLength_append (s t : Text) : byteLength (s ++ t) = byteLength s + byteLength t := by
  rw [byteLength, List.map_append, List.sum_append, byteLength, byteLength]

theorem byteLength_cons (c : Char) (s : Text) :
    byteLength (c :: s) = c.utf8Size + byteLength s := by
  rw [byteLength, List.map_cons, List.sum_cons, byteLength]

theorem byteLength_le_of_isInitial {s t : Text} (h : s <+: t) : byteLength s ≤ byteLength t := by
  obtain ⟨rest, rfl⟩ := h
  rw [byteLength_append]
  exact Nat.le_add_right _ _

theorem utf8Size_le_byteLength {c : Char} {s : Text} (h : c ∈ s) : c.utf8Size ≤ byteLength s :=
  List.single_le_sum (fun _ _ => Nat.zero_le _) _ (List.mem_map_of_mem h)

theorem rstrip_append_blank (s : Text) : ∃ blank, s = rstrip s ++ blank ∧ Blank blank :=
  ⟨s.rtakeWhile isWhitespace, List.rdropWhile_append_rtakeWhile.symm,
    fun _ hc => List.mem_rtakeWhile_imp hc⟩

theorem blank_append_lstrip (s : Text) : ∃ blank, s = blank ++ lstrip s ∧ Blank blank :=
  ⟨s.takeWhile isWhitespace, List.takeWhile_append_dropWhile.symm,
    fun _ hc => List.mem_takeWhile_imp hc⟩

/-- A text is a stripped one with white space around it. -/
theorem strip_spec (s : Text) :
    ∃ before after, s = before ++ strip s ++ after ∧ Blank before ∧ Blank after := by
  obtain ⟨before, hbefore, hblank⟩ := blank_append_lstrip s
  obtain ⟨after, hafter, hblank'⟩ := rstrip_append_blank (lstrip s)
  refine ⟨before, after, ?_, hblank, hblank'⟩
  calc s = before ++ lstrip s := hbefore
    _ = before ++ (rstrip (lstrip s) ++ after) := by rw [← hafter]
    _ = before ++ strip s ++ after := (List.append_assoc _ _ _).symm

theorem blank_nil : Blank [] := fun _ hc => absurd hc List.not_mem_nil

theorem Blank.append {s t : Text} (hs : Blank s) (ht : Blank t) : Blank (s ++ t) := by
  intro c hc
  exact (List.mem_append.mp hc).elim (hs c) (ht c)

/-- White space may stand in front of the chunks. -/
theorem CutFrom.blank_append {chunks : List Text} {text gap : Text} (hgap : Blank gap)
    (h : CutFrom chunks text) : CutFrom chunks (gap ++ text) := by
  cases chunks with
  | nil => exact hgap.append h
  | cons chunk chunks =>
      obtain ⟨gap', rest, rfl, hgap', hrest⟩ := h
      exact ⟨gap ++ gap', rest, (List.append_assoc _ _ _).symm, hgap.append hgap', hrest⟩

/-- White space may stand behind the chunks. -/
theorem CutFrom.append_blank {chunks : List Text} {text gap : Text} (hgap : Blank gap)
    (h : CutFrom chunks text) : CutFrom chunks (text ++ gap) := by
  induction chunks generalizing text with
  | nil => exact Blank.append h hgap
  | cons chunk chunks ih =>
      obtain ⟨gap', rest, rfl, hgap', hrest⟩ := h
      refine ⟨gap', rest ++ gap, ?_, hgap', ih hrest⟩
      rw [List.append_assoc, List.append_assoc]

/-- Every character that is not white space is in a chunk. -/
theorem CutFrom.mem_chunk {chunks : List Text} {text : Text} (h : CutFrom chunks text) {c : Char}
    (hc : c ∈ text) (hspace : isWhitespace c = false) : ∃ chunk ∈ chunks, c ∈ chunk := by
  induction chunks generalizing text with
  | nil => exact absurd (h c hc) (by rw [hspace]; decide)
  | cons chunk chunks ih =>
      obtain ⟨gap, rest, rfl, hgap, hrest⟩ := h
      rcases List.mem_append.mp hc with hc | hc
      · exact absurd (hgap c hc) (by rw [hspace]; decide)
      · rcases List.mem_append.mp hc with hc | hc
        · exact ⟨chunk, List.mem_cons_self, hc⟩
        · obtain ⟨chunk', hmem, hin⟩ := ih hrest hc
          exact ⟨chunk', List.mem_cons_of_mem _ hmem, hin⟩

end Pieces

section Cut

/-- What is decoded fits. -/
theorem byteLength_take_decodedLength (limit : Nat) (s : Text) :
    byteLength (s.take (decodedLength limit s)) ≤ limit := by
  induction s generalizing limit with
  | nil => exact Nat.zero_le _
  | cons c s ih =>
      rw [decodedLength]
      split
      next hfits =>
        have htail := ih (limit - c.utf8Size)
        rw [List.take_succ_cons, byteLength_cons]
        omega
      next => exact Nat.zero_le _

/-- A character that fits is decoded. -/
theorem decodedLength_pos {limit : Nat} {c : Char} {s : Text} (h : c.utf8Size ≤ limit) :
    0 < decodedLength limit (c :: s) := by
  rw [decodedLength, if_pos h]
  exact Nat.succ_pos _

theorem rfindSpace_lt {s : Text} {stop i : Nat} (h : rfindSpace s stop = some i) : i < stop := by
  induction s generalizing stop i with
  | nil => cases h
  | cons c s ih =>
      cases stop with
      | zero => cases h
      | succ stop =>
          rw [rfindSpace] at h
          cases hrest : rfindSpace s stop with
          | some j =>
              rw [hrest] at h
              have hlt := ih hrest
              have heq : j + 1 = i := Option.some.inj h
              omega
          | none =>
              rw [hrest] at h
              dsimp only at h
              split at h
              next => rw [← Option.some.inj h]; exact Nat.succ_pos _
              next => cases h

/-- The cut is within the limit, and behind the first character when that fits. -/
theorem cutPosition_spec (limit : Nat) (rest : Text) :
    cutPosition limit rest ≤ decodedLength limit rest ∧
      (0 < decodedLength limit rest → 0 < cutPosition limit rest) := by
  unfold cutPosition
  dsimp only
  split
  next hspace =>
    refine ⟨?_, fun _ => hspace⟩
    cases hfind : rfindSpace rest (decodedLength limit rest + 1) with
    | none => rw [hfind] at hspace; exact absurd hspace (lt_irrefl 0)
    | some i => exact Nat.le_of_lt_succ (rfindSpace_lt hfind)
  next => exact ⟨le_rfl, id⟩

theorem byteLength_take_cutPosition (limit : Nat) (rest : Text) :
    byteLength (rest.take (cutPosition limit rest)) ≤ limit :=
  (byteLength_le_of_isInitial (List.take_prefix_take_left (cutPosition_spec limit rest).1)).trans
    (byteLength_take_decodedLength limit rest)

end Cut

/-- Every character that is not white space can be put into a chunk. -/
def Splittable (limit : Nat) (text : Text) : Prop :=
  ∀ c ∈ text, isWhitespace c = false → c.utf8Size ≤ limit

/-- What is left of the text: it does not start with white space, and its characters fit. -/
structure Remainder (limit : Nat) (rest : Text) : Prop where
  stripped : ∀ c ∈ rest.head?, isWhitespace c = false
  splittable : Splittable limit rest

theorem lstrip_head (s : Text) : ∀ c ∈ (lstrip s).head?, isWhitespace c = false := by
  intro c hc
  have h := List.head?_dropWhile_not isWhitespace s
  rw [lstrip] at hc
  rw [hc] at h
  simpa using h

theorem Remainder.lstrip {limit : Nat} {s : Text} (h : Splittable limit s) :
    Remainder limit (lstrip s) :=
  ⟨lstrip_head s, fun c hc hspace => h c ((List.dropWhile_sublist _).subset hc) hspace⟩

/-- One turn of the loop: the chunk can be sent, less text is left, and only white space is
dropped between the two. -/
theorem Remainder.turn {limit : Nat} {rest : Text} (h : Remainder limit rest)
    (hlong : byteLength rest > limit) :
    rstrip (rest.take (cutPosition limit rest)) ≠ [] ∧
      byteLength (rstrip (rest.take (cutPosition limit rest))) ≤ limit ∧
      (RemoteTerm.lstrip (rest.drop (cutPosition limit rest))).length < rest.length ∧
      ∃ gap, rest = rstrip (rest.take (cutPosition limit rest)) ++
        (gap ++ RemoteTerm.lstrip (rest.drop (cutPosition limit rest))) ∧ Blank gap := by
  obtain ⟨c, tail, rfl⟩ : ∃ c tail, rest = c :: tail := by
    cases rest with
    | nil => exact absurd hlong (Nat.not_lt_zero _)
    | cons c tail => exact ⟨c, tail, rfl⟩
  have hspace : isWhitespace c = false := h.stripped c rfl
  have hfits : c.utf8Size ≤ limit := h.splittable c List.mem_cons_self hspace
  obtain ⟨cut, hcut⟩ := Nat.exists_eq_succ_of_ne_zero
    ((cutPosition_spec limit (c :: tail)).2 (decodedLength_pos hfits)).ne'
  have hbytes := byteLength_take_cutPosition limit (c :: tail)
  rw [hcut, Nat.succ_eq_add_one] at hbytes ⊢
  refine ⟨?_, ?_, ?_, ?_⟩
  · intro hnil
    have hblank := List.rdropWhile_eq_nil_iff.mp hnil c (by rw [List.take_succ_cons]; simp)
    rw [hspace] at hblank
    cases hblank
  · exact (byteLength_le_of_isInitial (List.rdropWhile_prefix _ _)).trans hbytes
  · have hle : (RemoteTerm.lstrip ((c :: tail).drop (cut + 1))).length ≤
        ((c :: tail).drop (cut + 1)).length := (List.dropWhile_sublist _).length_le
    rw [List.length_drop] at hle
    rw [List.length_cons] at hle ⊢
    omega
  · obtain ⟨behind, hbehind, hblank⟩ := rstrip_append_blank ((c :: tail).take (cut + 1))
    obtain ⟨front, hfront, hblank'⟩ := blank_append_lstrip ((c :: tail).drop (cut + 1))
    refine ⟨behind ++ front, ?_, hblank.append hblank'⟩
    rw [List.append_assoc, ← hfront, ← List.append_assoc, ← hbehind, List.take_append_drop]

/-- **The loop ends**, and its chunks can be sent and lose nothing. -/
theorem splitLoop_splits {limit : Nat} (fuel : Nat) {rest : Text} (h : Remainder limit rest)
    (hfuel : rest.length < fuel) :
    ∃ chunks, splitLoop limit fuel rest = some chunks ∧ SplitsInto limit rest chunks := by
  induction fuel generalizing rest with
  | zero => exact absurd hfuel (Nat.not_lt_zero _)
  | succ fuel ih =>
      rw [splitLoop]
      dsimp only
      split
      next hlong =>
        obtain ⟨hnonempty, hfits, hless, gap, hcut, hgap⟩ := h.turn hlong
        have hnext : Splittable limit (rest.drop (cutPosition limit rest)) :=
          fun c hc => h.splittable c (List.mem_of_mem_drop hc)
        obtain ⟨chunks, hloop, hsplits⟩ := ih (Remainder.lstrip hnext) (by omega)
        refine ⟨_, by rw [hloop]; rfl, ?_, ?_, ?_⟩
        · exact List.forall_mem_cons.mpr ⟨hnonempty, hsplits.nonempty⟩
        · exact List.forall_mem_cons.mpr ⟨hfits, hsplits.fits⟩
        · exact ⟨[], _, hcut, blank_nil, hsplits.cut.blank_append hgap⟩
      next hshort =>
        refine ⟨_, rfl, ?_⟩
        split
        next hnil =>
          subst hnil
          exact ⟨List.forall_mem_nil _, List.forall_mem_nil _, blank_nil⟩
        next hne =>
          refine ⟨?_, ?_, [], [], ?_, ?_, ?_⟩
          · exact List.forall_mem_singleton.mpr hne
          · exact List.forall_mem_singleton.mpr (not_lt.mp hshort)
          · rw [List.append_nil, List.nil_append]
          · exact blank_nil
          · exact blank_nil

/-- **Splitting ends with chunks that can be sent and lose nothing** exactly when every character
that is not white space has at most as many bytes as a chunk. -/
theorem splitText_splits_iff (text : Text) (limit : Nat) :
    (∃ fuel chunks, splitText fuel text limit = some chunks ∧ SplitsInto limit text chunks) ↔
      ∀ c ∈ text, isWhitespace c = false → c.utf8Size ≤ limit := by
  constructor
  · rintro ⟨fuel, chunks, -, hsplits⟩ c hc hspace
    obtain ⟨chunk, hmem, hin⟩ := hsplits.cut.mem_chunk hc hspace
    exact (utf8Size_le_byteLength hin).trans (hsplits.fits chunk hmem)
  · intro h
    obtain ⟨before, after, htext, hbefore, hafter⟩ := strip_spec text
    have hsubset : ∀ c ∈ strip text, c ∈ text := by
      intro c hc
      rw [htext]
      exact List.mem_append_left _ (List.mem_append_right _ hc)
    have hrest : Remainder limit (strip text) := by
      refine ⟨fun c hc => lstrip_head text c ?_, fun c hc => h c (hsubset c hc)⟩
      obtain ⟨blank, hblank, -⟩ := rstrip_append_blank (lstrip text)
      rw [hblank]
      exact List.mem_head?_append_of_mem_head? hc
    obtain ⟨chunks, hloop, hsplits⟩ := splitLoop_splits ((strip text).length + 1) hrest (by omega)
    refine ⟨_, chunks, hloop, hsplits.nonempty, hsplits.fits, ?_⟩
    rw [htext]
    exact (hsplits.cut.blank_append hbefore).append_blank hafter

/-- With the one byte that a long radio name leaves, a letter of two bytes is cut into empty chunks
forever. -/
theorem splitText_stuck :
    maxTextBytes (some (List.replicate 154 'a')) = 1 ∧
      ∀ fuel, splitText fuel ['é'] (maxTextBytes (some (List.replicate 154 'a'))) = none := by
  have hlimit : maxTextBytes (some (List.replicate 154 'a')) = 1 := by decide +kernel
  refine ⟨hlimit, fun fuel => ?_⟩
  rw [hlimit]
  change splitLoop 1 fuel ['é'] = none
  induction fuel with
  | zero => rfl
  | succ fuel ih =>
      have hcut : lstrip (['é'].drop (cutPosition 1 ['é'])) = ['é'] := by decide
      rw [splitLoop, if_pos (by decide)]
      dsimp only
      rw [hcut, ih]
      rfl

end RemoteTerm
