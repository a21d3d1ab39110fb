import RemoteTerm.Send.ChannelMessage

/-!
# Echoes of our own channel messages

The firmware puts `name: text` on air under the channel's key. What the decoder
and the fallback event make of that text is filed under the index entry of the
row that the send stored, so the echo is recognised.

## Implementation notes

The cipher and its MAC are parameters; the decoder relies on decryption to
invert encryption under the channel's key and on the lengths of the outputs.
-/

namespace RemoteTerm

open Library

/-- What the firmware puts on air for a text sent under a name. -/
def onAirText (name text : Text) : Text := name ++ [':', ' '] ++ text

/-- `str.encode()`. -/
def encodeUtf8 (text : Text) : Bytes := (String.ofList text).toUTF8.data.toList

/-- The plaintext of a channel message, padded to the block size of the cipher. -/
def groupTextPlaintext (timestamp : Nat) (flags : UInt8) (text : Text) : Bytes :=
  let plaintext := littleEndianBytes 4 timestamp ++ flags :: encodeUtf8 text
  plaintext ++ List.replicate ((16 - plaintext.length % 16) % 16) 0

/-- The payload of a channel message on air: the channel hash, the MAC and the ciphertext. -/
def groupTextPayload (crypto : Crypto) (encrypt : Bytes → Bytes → Bytes) (channelKey : Bytes)
    (timestamp : Nat) (flags : UInt8) (text : Text) : Bytes :=
  let ciphertext := encrypt channelKey (groupTextPlaintext timestamp flags text)
  (crypto.sha256 channelKey).take 1 ++
    ((crypto.hmacSha256 (channelKey ++ List.replicate 16 0) ciphertext).take 2 ++ ciphertext)

/-- What the decoder relies on: encryption in blocks that decryption inverts, and digests of
their usual length. -/
structure Seals (crypto : Crypto) (encrypt : Bytes → Bytes → Bytes) (channelKey : Bytes) : Prop where
  decrypts : ∀ plaintext, plaintext.length % 16 = 0 →
    crypto.aesEcbDecrypt channelKey (encrypt channelKey plaintext) = some plaintext
  length : ∀ plaintext, plaintext.length % 16 = 0 →
    (encrypt channelKey plaintext).length = plaintext.length
  sha256 : ∀ data, (crypto.sha256 data).length = 32
  hmacSha256 : ∀ key data, (crypto.hmacSha256 key data).length = 32

/-- `text.find(": ")`, with `none` for -1. -/
def findColon : Text → Option Nat
  | [] => none
  | c :: rest =>
      if c = ':' ∧ rest.head? = some ' ' then some 0 else (findColon rest).map (· + 1)

/-- `_split_channel_sender_and_text`. -/
def splitChannelSenderAndText (text : Text) : Option Text × Text :=
  match findColon text with
  | none => (none, text)
  | some colonIdx =>
      let potentialSender := text.take colonIdx
      if 0 < colonIdx ∧ colonIdx < 50 ∧
          ¬ potentialSender.any fun c => [':', '[', ']', '\x00'].contains c then
        (some potentialSender, text.drop (colonIdx + 2))
      else (none, text)

section Text

theorem splitAtColon_eq {text front after : Text} (h : splitAtColon text = some (front, after)) :
    text = front ++ [':', ' '] ++ after := by
  fun_induction splitAtColon text generalizing front after with
  | case1 => simp at h
  | case2 rest =>
      simp only [Option.some.injEq, Prod.mk.injEq] at h
      obtain ⟨rfl, rfl⟩ := h
      rfl
  | case3 c rest _ ih =>
      obtain ⟨⟨front', after'⟩, hrest, hpair⟩ := Option.map_eq_some_iff.mp h
      simp only [Prod.mk.injEq] at hpair
      obtain ⟨rfl, rfl⟩ := hpair
      rw [ih hrest]
      rfl

/-- Splitting off the sender and putting the parts together gives the text back. -/
theorem channelText_parseSender (text : Text) :
    channelText (parseSender text).1 (parseSender text).2 = text := by
  unfold parseSender
  cases hsplit : splitAtColon text with
  | none => rfl
  | some parts =>
      obtain ⟨front, after⟩ := parts
      dsimp only
      split
      next hvalid =>
        have hne : front ≠ [] := List.ne_nil_of_length_pos hvalid.1
        rw [splitAtColon_eq hsplit]
        cases front with
        | nil => exact absurd rfl hne
        | cons c front => rfl
      next => rfl

theorem findColon_lt {text : Text} {i : Nat} (h : findColon text = some i) : i < text.length := by
  fun_induction findColon text generalizing i with
  | case1 => cases h
  | case2 =>
      obtain rfl := Option.some.inj h
      exact Nat.zero_lt_succ _
  | case3 c rest _ ih =>
      obtain ⟨j, hj, rfl⟩ := Option.map_eq_some_iff.mp h
      simpa using ih hj

/-- The index that `find` gives is where the decoder splits. -/
theorem splitAtColon_eq_findColon (text : Text) :
    splitAtColon text = (findColon text).map fun i => (text.take i, text.drop (i + 2)) := by
  fun_induction splitAtColon text with
  | case1 => rfl
  | case2 after => simp [findColon]
  | case3 c rest hno ih =>
      have hhead : ¬ (c = ':' ∧ rest.head? = some ' ') := by
        rintro ⟨rfl, hhead⟩
        obtain ⟨after, rfl⟩ := List.head?_eq_some_iff.mp hhead
        exact hno after rfl rfl
      rw [findColon, if_neg hhead, ih, Option.map_map, Option.map_map]
      rfl

/-- The fallback event and the decoder split a text alike. -/
theorem splitChannelSenderAndText_eq (text : Text) :
    splitChannelSenderAndText text = parseSender text := by
  have hinvalid : (fun c => [':', '[', ']', '\x00'].contains c) = isInvalidInSender := by
    funext c
    simp [isInvalidInSender]
  rw [splitChannelSenderAndText, parseSender, splitAtColon_eq_findColon, hinvalid]
  cases hfind : findColon text with
  | none => rfl
  | some i => simp [List.length_take, Nat.min_eq_left (findColon_lt hfind).le]

theorem beforeNull_append {text : Text} (h : '\x00' ∉ text) (n : Nat) :
    beforeNull (text ++ List.replicate n '\x00') = text := by
  unfold beforeNull
  rw [List.takeWhile_append_of_pos]
  · cases n <;> simp
  · intro c hc
    simp only [decide_eq_true_eq]
    rintro rfl
    exact h hc

end Text

section Bytes

theorem encodeUtf8_append (s t : Text) : encodeUtf8 (s ++ t) = encodeUtf8 s ++ encodeUtf8 t := by
  simp [encodeUtf8, String.toUTF8]

theorem encodeUtf8_nulls (n : Nat) : encodeUtf8 (List.replicate n '\x00') = List.replicate n 0 := by
  induction n with
  | zero => rfl
  | succ n ih =>
      have hone : encodeUtf8 ['\x00'] = [0] := by decide +kernel
      calc encodeUtf8 (List.replicate (n + 1) '\x00')
          = encodeUtf8 (['\x00'] ++ List.replicate n '\x00') := rfl
        _ = encodeUtf8 ['\x00'] ++ encodeUtf8 (List.replicate n '\x00') := encodeUtf8_append _ _
        _ = List.replicate (n + 1) 0 := by
            rw [hone, ih]
            rfl

theorem decodeUtf8_encodeUtf8 (text : Text) : decodeUtf8 (encodeUtf8 text) = some text := by
  have hbytes : (encodeUtf8 text).toByteArray = text.utf8Encode := by
    apply ByteArray.ext
    simp [encodeUtf8, String.toUTF8, List.data_toByteArray]
  have hvalid : text.utf8Encode.IsValidUTF8 := ByteArray.isValidUTF8_utf8Encode
  have hstring : String.fromUTF8 text.utf8Encode hvalid = String.ofList text := rfl
  simp [decodeUtf8, hbytes, String.fromUTF8?, hvalid, hstring]

@[simp] theorem length_littleEndianBytes (width n : Nat) :
    (littleEndianBytes width n).length = width := by
  induction width generalizing n with
  | zero => rfl
  | succ width ih => simp [littleEndianBytes, ih]

theorem littleEndian_littleEndianBytes {width n : Nat} (h : n < 256 ^ width) :
    littleEndian (littleEndianBytes width n) = n := by
  induction width generalizing n with
  | zero =>
      rw [Nat.pow_zero] at h
      simp only [littleEndianBytes, littleEndian]
      omega
  | succ width ih =>
      have hdiv : n / 256 < 256 ^ width := by
        rw [Nat.div_lt_iff_lt_mul (by decide)]
        rwa [Nat.pow_succ] at h
      have hbyte : (UInt8.ofNat (n % 256)).toNat = n % 256 := by
        rw [UInt8.toNat_ofNat']
        omega
      rw [littleEndianBytes, littleEndian, ih hdiv, hbyte]
      omega

theorem length_groupTextPlaintext (timestamp : Nat) (flags : UInt8) (text : Text) :
    (groupTextPlaintext timestamp flags text).length % 16 = 0 := by
  simp only [groupTextPlaintext, List.length_append, List.length_replicate]
  omega

/-- The padding is a run of null characters behind the text. -/
theorem groupTextPlaintext_eq (timestamp : Nat) (flags : UInt8) (text : Text) :
    ∃ n, groupTextPlaintext timestamp flags text =
      littleEndianBytes 4 timestamp ++ flags :: encodeUtf8 (text ++ List.replicate n '\x00') := by
  refine ⟨(16 - (littleEndianBytes 4 timestamp ++ flags :: encodeUtf8 text).length % 16) % 16, ?_⟩
  rw [groupTextPlaintext, encodeUtf8_append, encodeUtf8_nulls, List.append_assoc,
    List.cons_append]

end Bytes

section Echo

variable {crypto : Crypto} {encrypt : Bytes → Bytes → Bytes} {channelKey : Bytes}

/-- The decoder reads a channel message on air back: its timestamp and the two parts of its
text. -/
theorem decryptGroupText_onAir (h : Seals crypto encrypt channelKey) {timestamp : Nat}
    (htimestamp : timestamp < 2 ^ 32) (flags : UInt8) {text : Text} (hnull : '\x00' ∉ text) :
    ∃ d, decryptGroupText crypto (groupTextPayload crypto encrypt channelKey timestamp flags text)
        channelKey = some d ∧ d.timestamp = timestamp ∧ d.sender = (parseSender text).1 ∧
      d.message = (parseSender text).2 := by
  have hblocks := length_groupTextPlaintext timestamp flags text
  obtain ⟨n, hplaintext⟩ := groupTextPlaintext_eq timestamp flags text
  obtain ⟨ciphertext, hciphertext⟩ :
      ∃ c, encrypt channelKey (groupTextPlaintext timestamp flags text) = c := ⟨_, rfl⟩
  have hlength : ciphertext.length = (groupTextPlaintext timestamp flags text).length :=
    hciphertext ▸ h.length _ hblocks
  have hdecrypt : crypto.aesEcbDecrypt channelKey ciphertext =
      some (groupTextPlaintext timestamp flags text) :=
    hciphertext ▸ h.decrypts _ hblocks
  have hfour := length_littleEndianBytes 4 timestamp
  have hfive : 5 ≤ (groupTextPlaintext timestamp flags text).length := by
    rw [hplaintext, List.length_append, List.length_cons, hfour]
    omega
  obtain ⟨hash, hhash⟩ : ∃ hash, (crypto.sha256 channelKey).take 1 = [hash] := by
    apply List.length_eq_one_iff.mp
    rw [List.length_take, h.sha256]
    rfl
  obtain ⟨mac₁, mac₂, hmac⟩ : ∃ mac₁ mac₂, (crypto.hmacSha256
      (channelKey ++ List.replicate 16 0) ciphertext).take 2 = [mac₁, mac₂] := by
    apply List.length_eq_two.mp
    rw [List.length_take, h.hmacSha256]
    rfl
  have hverified : verifiedCiphertext crypto (channelKey ++ List.replicate 16 0) [mac₁, mac₂]
      ciphertext = some ciphertext := by
    rw [verifiedCiphertext, if_neg (by omega), if_neg (not_not_intro hmac)]
  have htake : (groupTextPlaintext timestamp flags text).take 4 = littleEndianBytes 4 timestamp := by
    rw [hplaintext, List.take_append_of_le_length hfour.ge, List.take_of_length_le hfour.le]
  have hdrop : (groupTextPlaintext timestamp flags text).drop 5 =
      encodeUtf8 (text ++ List.replicate n '\x00') := by
    rw [hplaintext, List.drop_append, hfour, List.drop_of_length_le (by omega)]
    rfl
  have hvalue : littleEndian (littleEndianBytes 4 timestamp) = timestamp :=
    littleEndian_littleEndianBytes (by omega)
  refine ⟨⟨timestamp, ((groupTextPlaintext timestamp flags text).getD 4 0).toNat,
    (parseSender text).1, (parseSender text).2, hexOfBytes [hash]⟩, ?_, rfl, rfl, rfl⟩
  rw [groupTextPayload, hciphertext, hhash, hmac]
  simp only [decryptGroupText, List.cons_append, List.nil_append, List.length_cons,
    List.drop_succ_cons, List.drop_zero, List.take_succ_cons, List.take_zero]
  rw [if_neg (by omega)]
  simp only [hverified, hdecrypt, htake, hdrop, hvalue, decodeUtf8_encodeUtf8,
    beforeNull_append hnull, Option.bind_eq_bind, Option.bind_some, Option.pure_def]
  rw [if_neg (by omega)]

/-- The echo of a message that was sent under a known name, and the fallback event for it, are
filed under the index entry of the row that the send stored. -/
theorem channel_echo_identity (h : Seals crypto encrypt channelKey) (c : ChannelSend)
    (hname : c.radioName ≠ []) (hnull : '\x00' ∉ onAirText c.radioName c.text) {timestamp : Nat}
    (htimestamp : timestamp < 2 ^ 32) (flags : UInt8) :
    ∃ d, decryptGroupText crypto
          (groupTextPayload crypto encrypt channelKey timestamp flags
            (onAirText c.radioName c.text)) channelKey = some d ∧
      channelText d.sender d.message = onAirText c.radioName c.text ∧
      c.textWithSender = onAirText c.radioName c.text ∧
      (let parts := splitChannelSenderAndText (onAirText c.radioName c.text)
       channelText parts.1 parts.2 = onAirText c.radioName c.text) ∧
      ∀ (echo : DecryptedChannelMessage) (fallback : FallbackChannelMessage)
        (echoKey fallbackKey : Option Text),
        upper echo.channelKey = c.channelKey → echo.sender = d.sender →
        echo.messageText = d.message → echo.timestamp = d.timestamp →
        upper fallback.conversationKey = c.channelKey →
        (fallback.senderName, fallback.messageText) =
          splitChannelSenderAndText (onAirText c.radioName c.text) →
        fallback.senderTimestamp = timestamp →
        (echo.newMessage echoKey).dedupKey = (c.outgoing timestamp).newMessage.dedupKey ∧
          (fallback.newMessage fallbackKey).dedupKey =
            (c.outgoing timestamp).newMessage.dedupKey := by
  obtain ⟨d, hd, hts, hsender, hmessage⟩ := decryptGroupText_onAir h htimestamp flags hnull
  have hstored : c.textWithSender = onAirText c.radioName c.text := by
    rw [ChannelSend.textWithSender, if_pos hname, onAirText]
  have htext : channelText d.sender d.message = onAirText c.radioName c.text := by
    rw [hsender, hmessage, channelText_parseSender]
  have hsplit : channelText (splitChannelSenderAndText (onAirText c.radioName c.text)).1
      (splitChannelSenderAndText (onAirText c.radioName c.text)).2 =
      onAirText c.radioName c.text := by
    rw [splitChannelSenderAndText_eq, channelText_parseSender]
  refine ⟨d, hd, htext, hstored, hsplit, ?_⟩
  intro echo fallback echoKey fallbackKey hkey hechoSender hechoText hechoTs hfkey hparts hfts
  have hfsender := congrArg Prod.fst hparts
  have hftext := congrArg Prod.snd hparts
  dsimp only at hfsender hftext
  constructor
  · change some (DedupKey.channel (upper echo.channelKey)
      (channelText echo.sender echo.messageText) echo.timestamp) =
      some (DedupKey.channel c.channelKey c.textWithSender timestamp)
    rw [hkey, hechoSender, hechoText, htext, hechoTs, hts, hstored]
  · change some (DedupKey.channel (upper fallback.conversationKey)
      (channelText fallback.senderName fallback.messageText) fallback.senderTimestamp) =
      some (DedupKey.channel c.channelKey c.textWithSender timestamp)
    rw [hfkey, hfsender, hftext, hfts, hstored]
    exact congrArg (fun t => some (DedupKey.channel c.channelKey t timestamp)) hsplit

end Echo

section Sample

/-- A send under a name, with a text that itself looks like `sender: message`. -/
def namedSend : ChannelSend where
  channelKey := "AB".toList
  radioName := "Al ".toList
  text := " [x]: hi ".toList
  sentAt := 7

/-- A cipher that leaves its input as it is. -/
def clearCrypto : Crypto where
  sha256 := fun _ => List.replicate 32 0
  hmacSha256 := fun _ _ => List.replicate 32 0
  aesEcbDecrypt := fun _ b => some b
  deriveSharedSecret := fun _ _ => none
  derivePublicKey := id

theorem seals_clear : Seals clearCrypto (fun _ b => b) [] :=
  ⟨fun _ _ => rfl, fun _ _ => rfl, fun _ => rfl, fun _ _ => rfl⟩

/-- The echo of a message whose text holds colons, brackets and outer blanks is recognised. -/
theorem channel_echo_identity_named :
    ∃ d, decryptGroupText clearCrypto
          (groupTextPayload clearCrypto (fun _ b => b) [] 7 0
            (onAirText namedSend.radioName namedSend.text)) [] = some d ∧
      channelText d.sender d.message = "Al :  [x]: hi ".toList := by
  obtain ⟨d, hd, htext, -⟩ := channel_echo_identity seals_clear namedSend (by decide)
    (by decide) (by decide : 7 < 2 ^ 32) 0
  exact ⟨d, hd, htext⟩

/-- A send while the radio's name is empty. -/
def unnamedSend : ChannelSend := { namedSend with radioName := [] }

/-- With an empty name the stored text lacks the separator that is on air, and the echo is filed
elsewhere. -/
theorem unnamed_echo_differs :
    unnamedSend.textWithSender ≠ onAirText unnamedSend.radioName unnamedSend.text ∧
      ∀ (echo : DecryptedChannelMessage) (echoKey : Option Text),
        echo.sender = (parseSender (onAirText unnamedSend.radioName unnamedSend.text)).1 →
        echo.messageText = (parseSender (onAirText unnamedSend.radioName unnamedSend.text)).2 →
        (echo.newMessage echoKey).dedupKey ≠ (unnamedSend.outgoing 7).newMessage.dedupKey := by
  refine ⟨by decide, fun echo echoKey hsender htext hsame => ?_⟩
  have hentry : some (DedupKey.channel (upper echo.channelKey)
      (channelText echo.sender echo.messageText) echo.timestamp) =
      some (.channel unnamedSend.channelKey unnamedSend.textWithSender 7) := hsame
  rw [hsender, htext, channelText_parseSender] at hentry
  simp only [Option.some.injEq, DedupKey.channel.injEq] at hentry
  exact absurd hentry.2.1 (by decide)

end Sample

end RemoteTerm
