import Mathlib
import RemoteTerm.Decoder.PacketGrammar
import RemoteTerm.Library.Text

/-!
# Packet framing in the browser

`pathUtils` cuts the hexadecimal text of a packet and of a path on its own. It
accepts the packets that the server accepts, cuts them at the same offsets, and
splits a path into the same hops.

## Implementation notes

The texts are hexadecimal, so `parseInt` meets neither a sign nor a blank nor
`0x`; a text without a digit is `NaN`, which the bit operations take for 0. The
quotient of a length and a hop count is a rational number: the lengths of texts
are far below 2^53, where a double that is an even integer is the exact quotient.
-/

namespace RemoteTerm

open Library

/-- `path_hex[i : i + width]` for each `i` of `range(0, len(path_hex), width)`. -/
def rangeChunks (width : Nat) (s : Text) : List Text :=
  (List.range ((s.length + width - 1) / width)).map fun i => (s.drop (i * width)).take width

/-- `split_path_hex`. -/
def splitPathHex (pathHex : Text) (hopCount : Int) : List Text :=
  if pathHex = [] ∨ hopCount ≤ 0 then []
  else
    let charsPerHop := (pathHex.length : Int) / hopCount
    if charsPerHop < 2 ∨ charsPerHop % 2 ≠ 0 ∨ charsPerHop * hopCount ≠ pathHex.length then
      rangeChunks 2 pathHex
    else rangeChunks charsPerHop.toNat pathHex

namespace Frontend

/-- `MAX_PATH_BYTES`. -/
def maxPathBytes : Nat := 64

/-- `text.slice(start, end)`. -/
def slice (s : Text) (start stop : Nat) : Text := (s.take stop).drop start

/-- `parseInt(text, 16)`. -/
def parseHexInt (s : Text) : Nat :=
  (s.takeWhile fun c => (hexValue c).isSome).foldl (fun n c => 16 * n + (hexValue c).getD 0) 0

/-- The width that the hop count tells, else one byte. -/
def charsPerHop (length : Nat) (hopCount : Option Int) : Nat :=
  match hopCount with
  | none => 2
  | some hopCount =>
      if hopCount ≠ 0 ∧ hopCount > 0 then
        let derived : ℚ := length / hopCount
        if derived ≥ 2 ∧ derived - 2 * ⌊derived / 2⌋ = 0 ∧ derived * hopCount = length then
          ⌊derived⌋.toNat
        else 2
      else 2

/-- `parsePathHops`. The loop ends before a hop that is cut short. -/
def parsePathHops (path : Option Text) (hopCount : Option Int) : List Text :=
  match path with
  | none | some [] => []
  | some path =>
      let normalized := upper path
      let width := charsPerHop normalized.length hopCount
      (List.range (normalized.length / width)).map fun i =>
        slice normalized (i * width) (i * width + width)

/-- The text behind the path whose path byte starts at an offset. -/
def payloadBehindPath (normalized : Text) (offset : Nat) : Option Text :=
  let pathByte := parseHexInt (slice normalized offset (offset + 2))
  let offset := offset + 2
  let hashMode := (pathByte >>> 6) &&& 0x03
  if hashMode = 0x03 then none
  else
    let hopCount := pathByte &&& 0x3F
    let hashSize := hashMode + 1
    let pathByteLen := hopCount * hashSize
    if pathByteLen > maxPathBytes then none
    else
      let pathHexChars := pathByteLen * 2
      if normalized.length < offset + pathHexChars then none
      else
        let offset := offset + pathHexChars
        if offset ≥ normalized.length then none else some (normalized.drop offset)

/-- `extractPacketPayloadHex`. -/
def extractPacketPayloadHex (packetHex : Text) : Option Text :=
  if packetHex.length < 4 then none
  else
    let normalized := upper packetHex
    let header := parseHexInt (slice normalized 0 2)
    let routeType := header &&& 0x03
    if (routeType = 0x00 ∨ routeType = 0x03) ∧ normalized.length < 2 + 8 then none
    else
      let offset := if routeType = 0x00 ∨ routeType = 0x03 then 2 + 8 else 2
      if normalized.length < offset + 2 then none else payloadBehindPath normalized offset

section Hex

theorem parseHexInt_hexOfByte (b : UInt8) : parseHexInt (upper (hexOfByte b)) = b.toNat := by
  have hlt := b.toNat_lt
  have hdigit : ∀ n < 16, hexValue (upperChar (hexDigit n)) = some n := by
    intro n hn
    rw [hexValue_upperChar, hexValue_hexDigit hn]
  have hhi := hdigit (b.toNat / 16) (by omega)
  have hlo := hdigit (b.toNat % 16) (by omega)
  simp only [upper, hexOfByte, List.map_cons, List.map_nil, parseHexInt, List.takeWhile_cons, hhi,
    hlo, Option.isSome_some, if_true, List.takeWhile_nil, List.foldl_cons, List.foldl_nil,
    Option.getD_some]
  omega

theorem hexOfBytes_append (xs ys : Bytes) :
    hexOfBytes (xs ++ ys) = hexOfBytes xs ++ hexOfBytes ys := List.flatMap_append

theorem upper_append (s t : Text) : upper (s ++ t) = upper s ++ upper t := List.map_append

theorem upper_length (s : Text) : (upper s).length = s.length := List.length_map _

/-- The upper-case hexadecimal text of bytes. -/
def packetText (bs : Bytes) : Text := upper (hexOfBytes bs)

@[simp] theorem packetText_length (bs : Bytes) : (packetText bs).length = 2 * bs.length := by
  rw [packetText, upper_length, length_hexOfBytes]

theorem packetText_append (xs ys : Bytes) :
    packetText (xs ++ ys) = packetText xs ++ packetText ys := by
  rw [packetText, hexOfBytes_append, upper_append, packetText, packetText]

/-- The byte behind a prefix is read from its two digits. -/
theorem parseHexInt_slice (xs ys : Bytes) (b : UInt8) {n : Nat} (hn : n = 2 * xs.length) :
    parseHexInt (slice (packetText (xs ++ b :: ys)) n (n + 2)) = b.toNat := by
  subst hn
  have hcut : slice (packetText (xs ++ b :: ys)) (2 * xs.length) (2 * xs.length + 2) =
      upper (hexOfByte b) := by
    have hsplit : packetText (xs ++ b :: ys) =
        (packetText xs ++ upper (hexOfByte b)) ++ packetText ys := by
      rw [← List.singleton_append, ← List.append_assoc, packetText_append, packetText_append,
        packetText, packetText, packetText, hexOfBytes_singleton]
    rw [slice, hsplit, List.take_left' (by simp [upper_length, hexOfByte]),
      List.drop_left' (packetText_length xs)]
  rw [hcut, parseHexInt_hexOfByte]

/-- Whole bytes are dropped from a text by twice their number. -/
theorem packetText_drop (xs ys : Bytes) {n : Nat} (hn : n = 2 * xs.length) :
    (packetText (xs ++ ys)).drop n = packetText ys := by
  rw [packetText_append]
  exact List.drop_left' ((packetText_length xs).trans hn.symm)

end Hex

/-- What follows the transport bytes is cut as the server cuts it. -/
theorem payloadBehindPath_eq (pre body : Bytes) (pathByte : UInt8) {n : Nat}
    (hn : n = 2 * pre.length) :
    payloadBehindPath (packetText (pre ++ pathByte :: body)) n =
      (validatePathByte pathByte.toNat).bind fun v =>
        if body.length ≤ v.2.2 then none else some (packetText (body.drop v.2.2)) := by
  unfold payloadBehindPath
  dsimp only
  rw [parseHexInt_slice pre body pathByte hn, packetText_length]
  unfold validatePathByte decodePathByte pathWireLen
  dsimp only
  have hlength : (pre ++ pathByte :: body).length = pre.length + (body.length + 1) := by
    rw [List.length_append, List.length_cons]
  by_cases hreserved : (pathByte.toNat >>> 6) &&& 0x03 = 3
  · rw [if_pos hreserved, if_pos hreserved]
    rfl
  · rw [if_neg hreserved, if_neg hreserved]
    dsimp only
    generalize (pathByte.toNat &&& 0x3F) * (((pathByte.toNat >>> 6) &&& 0x03) + 1) = len
    by_cases hlong : len > maxPathBytes
    · rw [if_pos hlong, if_pos (show len > maxPathSize from hlong)]
      rfl
    · rw [if_neg hlong, if_neg (show ¬ len > maxPathSize from hlong), Option.bind_some]
      dsimp only
      rw [hlength]
      by_cases hshort : body.length ≤ len
      · rw [if_pos hshort, if_pos (show n + 2 + len * 2 ≥ 2 * (pre.length + (body.length + 1)) by
          omega), ite_self]
      · have hcut : pre ++ pathByte :: body =
            (pre ++ pathByte :: body.take len) ++ body.drop len := by
          rw [List.append_assoc, List.cons_append, List.take_append_drop]
        rw [if_neg hshort, if_neg (by omega), if_neg (by omega), hcut, packetText_drop]
        rw [List.length_append, List.length_cons, List.length_take]
        omega

/-- The payload of an accepted packet, as the server cuts it. -/
theorem parsePacketEnvelope_payload (first : UInt8) (rest : Bytes) (hrest : rest ≠ [])
    (codes : Option (Nat × Nat)) {pathByte : UInt8} {body : Bytes}
    (hcodes : readTransportCodes (first.toNat &&& 0x03) rest = some (codes, pathByte :: body)) :
    ((parsePacketEnvelope (first :: rest)).map fun e => packetText e.payload) =
      (validatePathByte pathByte.toNat).bind fun v =>
        if body.length ≤ v.2.2 then none else some (packetText (body.drop v.2.2)) := by
  rw [parsePacketEnvelope]
  · rw [hcodes]
    dsimp only
    cases validatePathByte pathByte.toNat with
    | none => rfl
    | some v =>
        dsimp only
        rw [Option.bind_some]
        split <;> rfl
  · intro h
    exact hrest h

/-- The browser extracts the payload that the server extracts. -/
theorem extractPacketPayloadHex_eq (raw : Bytes) {packetHex : Text}
    (h : upper packetHex = packetText raw) :
    extractPacketPayloadHex packetHex =
      (parsePacketEnvelope raw).map fun e => packetText e.payload := by
  have hlength : packetHex.length = 2 * raw.length := by
    rw [← upper_length, h, packetText_length]
  unfold extractPacketPayloadHex
  rw [h, hlength]
  rcases raw with - | ⟨first, - | ⟨second, rest⟩⟩
  · rfl
  · rfl
  · have hheader : parseHexInt (slice (packetText (first :: second :: rest)) 0 2) =
        first.toNat := parseHexInt_slice [] (second :: rest) first rfl
    rw [if_neg (by simp only [List.length_cons]; omega)]
    dsimp only
    rw [hheader, packetText_length]
    by_cases hscoped : first.toNat &&& 0x03 = 0x00 ∨ first.toNat &&& 0x03 = 0x03
    · rw [if_pos hscoped]
      by_cases hshort : (second :: rest).length < 4
      · rw [if_pos ⟨hscoped, by simp only [List.length_cons] at hshort ⊢; omega⟩,
          parsePacketEnvelope, readTransportCodes, if_pos hscoped, if_pos hshort]
        · rfl
        · simp
      · rcases rest with - | ⟨b, - | ⟨c, - | ⟨d, behind⟩⟩⟩
        · simp at hshort
        · simp at hshort
        · simp at hshort
        · rcases behind with - | ⟨pathByte, body⟩
          · rw [if_neg (by simp), if_pos (by simp), parsePacketEnvelope, readTransportCodes,
              if_pos hscoped, if_neg (by simp)]
            · rfl
            · simp
          · rw [if_neg (by simp only [List.length_cons]; omega),
              if_neg (by simp only [List.length_cons]; omega)]
            refine Eq.trans (payloadBehindPath_eq [first, second, b, c, d] body pathByte rfl) ?_
            refine (parsePacketEnvelope_payload first _ (by simp)
              (some (littleEndian [second, b], littleEndian [c, d])) ?_).symm
            rw [readTransportCodes, if_pos hscoped, if_neg (by simp)]
            rfl
    · rw [if_neg (fun hand => hscoped hand.1), if_neg hscoped,
        if_neg (by simp only [List.length_cons]; omega)]
      refine Eq.trans (payloadBehindPath_eq [first] rest second rfl) ?_
      refine (parsePacketEnvelope_payload first _ (by simp) none ?_).symm
      rw [readTransportCodes, if_neg hscoped]

section Hops

/-- The browser's width is the server's. -/
theorem charsPerHop_eq (length : Nat) {hopCount : Int} (hpos : 1 ≤ hopCount) :
    (charsPerHop length (some hopCount) : Int) =
      if (length : Int) / hopCount < 2 ∨ (length : Int) / hopCount % 2 ≠ 0 ∨
          (length : Int) / hopCount * hopCount ≠ length then 2
      else (length : Int) / hopCount := by
  have hne : (hopCount : ℚ) ≠ 0 := by
    have : hopCount ≠ 0 := by omega
    exact_mod_cast this
  unfold charsPerHop
  dsimp only
  rw [if_pos ⟨by omega, by omega⟩]
  by_cases hdvd : (length : Int) / hopCount * hopCount = length
  · -- the quotient is exact
    have hquot : (length : ℚ) / hopCount = ((length : Int) / hopCount : Int) := by
      rw [div_eq_iff hne]
      exact_mod_cast hdvd.symm
    have hhalf : ⌊(((length : Int) / hopCount : Int) : ℚ) / 2⌋ = (length : Int) / hopCount / 2 := by
      exact_mod_cast Rat.floor_intCast_div_natCast ((length : Int) / hopCount) 2
    have hback : (((length : Int) / hopCount : Int) : ℚ) * hopCount = length := by
      exact_mod_cast hdvd
    rw [hquot, hhalf, Int.floor_intCast]
    generalize (length : Int) / hopCount = q at hdvd hback ⊢
    have hwide : ((q : ℚ) ≥ 2) ↔ 2 ≤ q := by
      rw [ge_iff_le]
      exact_mod_cast Iff.rfl
    have heven : ((q : ℚ) - 2 * ((q / 2 : Int) : ℚ) = 0) ↔ q % 2 = 0 := by
      rw [show (q : ℚ) - 2 * ((q / 2 : Int) : ℚ) = ((q - 2 * (q / 2) : Int) : ℚ) by push_cast; ring,
        Int.cast_eq_zero]
      omega
    simp only [hwide, heven, hback, hdvd, and_true, ne_eq, not_true_eq_false, or_false]
    split_ifs <;> omega
  · -- the quotient is no integer
    rw [if_neg, if_pos (Or.inr (Or.inr hdvd))]
    · rfl
    · rintro ⟨-, heven, -⟩
      apply hdvd
      have hquot : (length : ℚ) / hopCount = ((2 * ⌊(length : ℚ) / hopCount / 2⌋ : Int) : ℚ) := by
        push_cast
        linarith
      have hmul : (length : Int) = 2 * ⌊(length : ℚ) / hopCount / 2⌋ * hopCount := by
        rw [div_eq_iff hne] at hquot
        exact_mod_cast hquot
      exact Int.ediv_mul_cancel ⟨_, hmul.trans (mul_comm _ _)⟩

/-- A path of whole hops is cut into the same hops. -/
theorem chunks_eq {width : Nat} {s : Text} (hpos : 0 < width) (hdvd : width ∣ s.length) :
    ((List.range ((upper s).length / width)).map fun i =>
        slice (upper s) (i * width) (i * width + width)) =
      (rangeChunks width s).map upper := by
  have hcount : (s.length + width - 1) / width = s.length / width := by
    obtain ⟨k, hk⟩ := hdvd
    rw [hk, Nat.mul_div_cancel_left k hpos, Nat.add_sub_assoc hpos, Nat.mul_add_div hpos,
      Nat.div_eq_of_lt (by omega), Nat.add_zero]
  rw [upper_length, rangeChunks, List.map_map, hcount]
  refine List.map_congr_left fun i _ => ?_
  rw [slice, List.drop_take, Nat.add_sub_cancel_left, Function.comp_apply, upper, ← List.map_drop,
    ← List.map_take, upper]

/-- The hops of a path of whole bytes are the server's, in upper case. -/
theorem parsePathHops_eq {path : Text} {hopCount : Int} (heven : Even path.length)
    (hpos : 1 ≤ hopCount) :
    parsePathHops (some path) (some hopCount) = (splitPathHex path hopCount).map upper := by
  by_cases hpath : path = []
  · subst hpath
    rw [splitPathHex, if_pos (Or.inl rfl)]
    rfl
  · have hhops : parsePathHops (some path) (some hopCount) =
        (List.range ((upper path).length / charsPerHop path.length (some hopCount))).map fun i =>
          slice (upper path) (i * charsPerHop path.length (some hopCount))
            (i * charsPerHop path.length (some hopCount) +
              charsPerHop path.length (some hopCount)) := by
      rw [parsePathHops]
      · rw [upper_length]
      · exact hpath
    have hwidth := charsPerHop_eq path.length hpos
    rw [hhops, splitPathHex, if_neg (by rintro (h | h); exacts [hpath h, by omega])]
    dsimp only
    split_ifs at hwidth ⊢ with hodd
    · have htwo : charsPerHop path.length (some hopCount) = 2 := by exact_mod_cast hwidth
      rw [htwo]
      exact chunks_eq (by omega) heven.two_dvd
    · obtain ⟨hwide, -, hwhole⟩ := not_or.mp hodd |>.imp id not_or.mp
      rw [← hwidth] at hwide hwhole ⊢
      rw [Int.toNat_natCast]
      refine chunks_eq (by omega) ?_
      exact_mod_cast Dvd.intro _ (not_not.mp hwhole)

end Hops

/-- **The browser and the server agree on framing.** A packet has a payload for both or for
neither, and it is the same; a path of whole bytes has the same hops. -/
theorem framing_agrees :
    (∀ raw packetHex, upper packetHex = upper (hexOfBytes raw) →
      extractPacketPayloadHex packetHex =
        (parsePacketEnvelope raw).map fun e => upper (hexOfBytes e.payload)) ∧
    ∀ path hopCount, Even path.length → 1 ≤ hopCount →
      parsePathHops (some path) (some hopCount) = (splitPathHex path hopCount).map upper :=
  ⟨fun raw _ h => extractPacketPayloadHex_eq raw h, fun _ _ heven hpos =>
    parsePathHops_eq heven hpos⟩

theorem framing_agrees_flood :
    extractPacketPayloadHex ['1', '5', '0', '1', 'a', 'b', 'c', 'd'] = some ['C', 'D'] ∧
      parsePathHops (some ['a', 'b', 'c', 'd']) (some 1) = [['A', 'B', 'C', 'D']] :=
  ⟨(framing_agrees.1 [0x15, 0x01, 0xAB, 0xCD] _ (by decide)).trans (by decide),
    (framing_agrees.2 ['a', 'b', 'c', 'd'] 1 (by decide) (by decide)).trans (by decide)⟩

end Frontend

end RemoteTerm
