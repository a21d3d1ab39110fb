import RemoteTerm.Frontend.PacketNetwork
import RemoteTerm.Frontend.SenderSplit
import RemoteTerm.Repository.Messages

/-!
# Reactions

A reaction names its target by a hash over the timestamp, the sender's name on a
channel, and the first characters of the text. The picker hashes the stored text,
which on a channel starts with the sender, where the other clients hash the text
behind it.

## Implementation notes

A timestamp is printed in decimal, as the numbers that are stored all are.
-/

namespace RemoteTerm

open Library

namespace Reactions

/-! ### The table of emojis -/

/-- `QUICK_EMOJIS`. -/
def quickEmojis : List Text :=
  ["👍", "❤️", "😂", "🎉", "👏", "🔥"].map String.toList

/-- `SMILEYS`. -/
def smileys : List Text :=
  ["😀", "😃", "😄", "😁", "😅", "😂", "🤣", "😊", "😇", "🙂",
   "🙃", "😉", "😌", "😍", "🥰", "😘", "😗", "😙", "😚", "😋",
   "😛", "😝", "😜", "🤪", "🤨", "🧐", "🤓", "😎", "🥸", "🤩",
   "🥳", "😏", "😒", "😞", "😔", "😟", "😕", "🙁", "😣", "😖",
   "😫", "😩", "🥺", "😢", "😭", "😤", "😠", "😡", "🤬", "🤯",
   "😳", "🥵", "🥶", "😱", "😨", "😰", "😥", "😓", "🤗", "🤔",
   "🤭", "🤫", "🤥", "😶"].map String.toList

/-- `GESTURES`. -/
def gestures : List Text :=
  ["👍", "👎", "👊", "✊", "🤛", "🤜", "🤞", "✌️", "🤟", "🤘",
   "👌", "🤌", "🤏", "👈", "👉", "👆", "👇", "☝️", "👋", "🤚",
   "🖐️", "✋", "🖖", "👏", "🙌", "👐", "🤲", "🤝", "🙏", "✍️",
   "💅", "🤳", "💪"].map String.toList

/-- `HEARTS`. -/
def hearts : List Text :=
  ["❤️", "🧡", "💛", "💚", "💙", "💜", "🖤", "🤍", "🤎", "💔",
   "❤️‍🔥", "❤️‍🩹", "💕", "💞", "💓", "💗", "💖", "💘", "💝", "💟",
   "💌", "💢", "💥", "💫", "💦", "💨", "🕳️", "💬", "👁️‍🗨️", "🗨️",
   "🗯️", "💭"].map String.toList

/-- `OBJECTS`. -/
def objects : List Text :=
  ["🎉", "🎊", "🎈", "🎁", "🎀", "🪅", "🪆", "🏆", "🥇", "🥈",
   "🥉", "⚽", "⚾", "🥎", "🏀", "🏐", "🏈", "🏉", "🎾", "🥏",
   "🎳", "🏏", "🏑", "🏒", "🥍", "🏓", "🏸", "🥊", "🥋", "🥅",
   "⛳", "🔥", "⭐", "🌟", "✨", "⚡", "💡", "🔦", "🏮", "🪔",
   "📱", "💻", "⌚", "📷", "📺", "📻", "🎵", "🎶", "🚀"].map String.toList

/-- `REACTION_EMOJIS`. -/
def reactionEmojis : List Text := quickEmojis ++ smileys ++ gestures ++ hearts ++ objects

/-! ### Hashing and encoding -/

/-- `dartStringHash`. -/
def dartStringHash (units : List Nat) : UInt32 :=
  let hash : UInt32 := units.foldl (fun hash unit =>
    let hash := hash + UInt32.ofNat unit
    let hash := hash + hash <<< 10
    hash ^^^ hash >>> 6) 0
  let hash := hash + hash <<< 3
  let hash := hash ^^^ hash >>> 11
  let hash := hash + hash <<< 15
  let hash := hash &&& 0x3fffffff
  if hash = 0 then 1 else hash

/-- `n.toString(16).padStart(width, '0')` of a number that fits. -/
def hexPadded : Nat → Nat → Text
  | 0, _ => []
  | width + 1, n => hexPadded width (n / 16) ++ [hexDigit (n % 16)]

/-- What is hashed: the timestamp, the name, and the first code units of the text. -/
def hashInput (timestampSeconds : Int) (senderName : Option Text) (text : Text) : List Nat :=
  codeUnits (toString timestampSeconds).toList ++
    (codeUnits (senderName.getD []) ++ (codeUnits text).take 5)

/-- The bits of the hash that a reaction carries. -/
def hashBits (units : List Nat) : Nat := (dartStringHash units &&& 0xffff).toNat

/-- `computeReactionHash`. -/
def computeReactionHash (timestampSeconds : Int) (senderName : Option Text) (text : Text) : Text :=
  hexPadded 4 (hashBits (hashInput timestampSeconds senderName text))

/-- `encodeReaction`. -/
def encodeReaction (emoji : Text) (timestampSeconds : Int) (senderName : Option Text)
    (text : Text) : Option Text :=
  let index := reactionEmojis.idxOf emoji
  if index < reactionEmojis.length then
    some ("r:".toList ++ computeReactionHash timestampSeconds senderName text ++ ':' ::
      hexPadded 2 index)
  else none

/-- `ParsedReaction`. -/
structure ParsedReaction where
  emoji : Text
  targetHash : Text
deriving DecidableEq

/-- `[0-9a-f]`. -/
def isLowerHex (c : Char) : Bool := '0' ≤ c ∧ c ≤ '9' ∨ 'a' ≤ c ∧ c ≤ 'f'

/-- `parseReaction`. -/
def parseReaction (text : Text) : Option ParsedReaction :=
  match PacketNetwork.trim text with
  | ['r', ':', a, b, c, d, ':', high, low] =>
      if [a, b, c, d, high, low].all isLowerHex then
        let index := 16 * (hexValue high).getD 0 + (hexValue low).getD 0
        reactionEmojis[index]?.map fun emoji => { emoji, targetHash := [a, b, c, d] }
      else none
  | _ => none

/-- The name that `ReactionPicker` hashes. -/
def pickedSender (message : MessageRow) (radioName : Option Text) : Option Text :=
  if message.type = .chan then message.senderName.or radioName else none

/-- The payload that `ReactionPicker` sends; it is shown for messages with a timestamp. -/
def reactionPayload (message : MessageRow) (radioName : Option Text) (emoji : Text) :
    Option Text :=
  encodeReaction emoji (message.senderTimestamp.getD 0) (pickedSender message radioName)
    message.text

/-- The sender and the body behind a stored message: a direct message has no name; the text of a
channel message is the body behind the sender, whose name is stored unless the message is our
own. -/
inductive StoredAs (message : MessageRow) : Option Text → Text → Prop
  | direct (htype : message.type = .priv) : StoredAs message none message.text
  | channel {sender : Option Text} {body : Text} (htype : message.type = .chan)
      (htext : message.text = channelText sender body)
      (hname : message.senderName = sender ∨ message.outgoing = true ∧ message.senderName = none) :
      StoredAs message sender body

/-- The message is direct, or the name that is stored or else ours, followed by the first code units
of the body behind its sender, is the sender's name followed by those of the body. -/
def ReadsSame (message : MessageRow) (radioName sender : Option Text) (body : Text) : Prop :=
  message.type = .priv ∨
    codeUnits ((message.senderName.or radioName).getD []) ++
        (codeUnits (channelText sender body)).take 5 =
      codeUnits (sender.getD []) ++ (codeUnits body).take 5

/-! ### A payload is read back -/

section Hex

variable {n : Nat}

theorem isLowerHex_hexDigit (h : n < 16) : isLowerHex (hexDigit n) = true := by
  have hall : ∀ n < 16, isLowerHex (hexDigit n) = true := by decide
  exact hall n h

theorem isBlank_hexDigit (h : n < 16) : PacketNetwork.isBlank (hexDigit n) = false := by
  have hall : ∀ n < 16, PacketNetwork.isBlank (hexDigit n) = false := by decide
  exact hall n h

end Hex

/-- A payload with the index of an emoji is parsed to the emoji and the hash. -/
theorem parseReaction_encoded {hash index : Nat} {emoji : Text}
    (hindex : reactionEmojis[index]? = some emoji) (hbyte : index < 256) :
    parseReaction ("r:".toList ++ hexPadded 4 hash ++ ':' :: hexPadded 2 index) =
      some ⟨emoji, hexPadded 4 hash⟩ := by
  have htrim : PacketNetwork.trim ("r:".toList ++ hexPadded 4 hash ++ ':' :: hexPadded 2 index) =
      ['r', ':', hexDigit (hash / 16 / 16 / 16 % 16), hexDigit (hash / 16 / 16 % 16),
        hexDigit (hash / 16 % 16), hexDigit (hash % 16), ':', hexDigit (index / 16 % 16),
        hexDigit (index % 16)] := by
    have hr : PacketNetwork.isBlank 'r' = false := by decide
    have hlast := isBlank_hexDigit (Nat.mod_lt index (by decide : 0 < 16))
    simp [PacketNetwork.trim, hexPadded, hr, hlast]
  have hvalue : 16 * (hexValue (hexDigit (index / 16 % 16))).getD 0 +
      (hexValue (hexDigit (index % 16))).getD 0 = index := by
    rw [hexValue_hexDigit (by omega), hexValue_hexDigit (by omega)]
    simp only [Option.getD_some]
    omega
  have hlower : ∀ k, isLowerHex (hexDigit (k % 16)) = true := fun k =>
    isLowerHex_hexDigit (Nat.mod_lt k (by decide))
  unfold parseReaction
  rw [htrim]
  simp only [List.all_cons, List.all_nil, hlower, Bool.and_true, if_true, hvalue, hindex,
    Option.map_some]
  rfl

theorem length_reactionEmojis : reactionEmojis.length = 184 := by
  simp only [reactionEmojis, List.length_append, quickEmojis, smileys, gestures, hearts, objects,
    List.length_map, List.length_cons, List.length_nil]

/-- What is sent for an emoji of the table is parsed to it and the hash. -/
theorem parseReaction_encodeReaction {emoji : Text} (hemoji : emoji ∈ reactionEmojis)
    (timestamp : Int) (senderName : Option Text) (text : Text) :
    (encodeReaction emoji timestamp senderName text).bind parseReaction =
      some ⟨emoji, computeReactionHash timestamp senderName text⟩ := by
  have hlt := List.idxOf_lt_length_of_mem hemoji
  have hindex : reactionEmojis[reactionEmojis.idxOf emoji]? = some emoji := by
    rw [List.getElem?_eq_getElem hlt, List.getElem_idxOf hlt]
  have hbyte : reactionEmojis.idxOf emoji < 256 := by
    rw [length_reactionEmojis] at hlt
    omega
  unfold encodeReaction
  dsimp only
  rw [if_pos hlt, Option.bind_some]
  exact parseReaction_encoded hindex hbyte

theorem mem_reactionEmojis {emoji : Text} (h : emoji ∈ quickEmojis) : emoji ∈ reactionEmojis := by
  simp [reactionEmojis, h]

/-- When the picker hashes what the other clients hash. -/
theorem readsSame_iff {message : MessageRow} {sender : Option Text} {body : Text}
    (h : StoredAs message sender body) (timestamp : Int) (radioName : Option Text) :
    ReadsSame message radioName sender body ↔
      hashInput timestamp (pickedSender message radioName) message.text =
        hashInput timestamp sender body := by
  cases h with
  | direct htype =>
      have hname : pickedSender message radioName = none := by simp [pickedSender, htype]
      rw [hname]
      exact iff_of_true (.inl htype) rfl
  | channel htype htext hname =>
      have hpicked : pickedSender message radioName = message.senderName.or radioName :=
        if_pos htype
      unfold ReadsSame hashInput
      rw [hpicked, htext, List.append_right_inj, htype, or_iff_right (by decide)]

/-- **A reaction addresses its message** when the picker hashes the same name and first code units
as the other clients; in every other case it hashes something else than they do, so that the
hashes could agree by a collision only. -/
theorem reaction_addresses_of_readsSame {message : MessageRow} {sender : Option Text}
    {body : Text} (hstored : StoredAs message sender body) {timestamp : Int}
    (htimestamp : message.senderTimestamp = some timestamp) (radioName : Option Text)
    {emoji : Text} (hemoji : emoji ∈ quickEmojis) :
    (ReadsSame message radioName sender body →
        (reactionPayload message radioName emoji).bind parseReaction =
          some ⟨emoji, computeReactionHash timestamp sender body⟩) ∧
      (¬ ReadsSame message radioName sender body →
        hashInput timestamp (pickedSender message radioName) message.text ≠
          hashInput timestamp sender body) := by
  refine ⟨fun hsame => ?_, fun hother heq => ?_⟩
  · unfold reactionPayload
    rw [htimestamp, Option.getD_some, parseReaction_encodeReaction (mem_reactionEmojis hemoji)]
    unfold computeReactionHash
    rw [(readsSame_iff hstored timestamp radioName).mp hsame]
  · exact hother ((readsSame_iff hstored timestamp radioName).mpr heq)

/-- A channel message as it is stored when it is received. -/
def bobMessage : MessageRow where
  id := 1
  type := .chan
  conversationKey := "AB".toList
  text := "Bob: hello".toList
  senderTimestamp := some 1700000000
  receivedAt := 1700000001
  paths := none
  txtType := 0
  signature := none
  outgoing := false
  acked := 0
  senderName := some "Bob".toList
  senderKey := none
  transportCode := none
  region := none

/-- A direct message addresses itself. -/
theorem reaction_addresses_direct :
    (reactionPayload { bobMessage with type := .priv } none "👍".toList).bind parseReaction =
      some ⟨"👍".toList, computeReactionHash 1700000000 none bobMessage.text⟩ :=
  have hdirect : StoredAs { bobMessage with type := .priv } none bobMessage.text := .direct rfl
  (reaction_addresses_of_readsSame hdirect rfl none List.mem_cons_self).1 (.inl rfl)

/-- The picker hashes the sender's prefix of a channel message. -/
theorem channel_reaction_misses :
    StoredAs bobMessage (some "Bob".toList) "hello".toList ∧ "👍".toList ∈ quickEmojis ∧
      (reactionPayload bobMessage none "👍".toList).bind parseReaction ≠
        some ⟨"👍".toList, computeReactionHash 1700000000 (some "Bob".toList) "hello".toList⟩ := by
  refine ⟨.channel rfl rfl (.inl rfl), List.mem_cons_self, ?_⟩
  unfold reactionPayload
  rw [parseReaction_encodeReaction (mem_reactionEmojis List.mem_cons_self), ne_eq,
    Option.some.injEq, ParsedReaction.mk.injEq, and_iff_right rfl]
  decide +kernel

example : computeReactionHash 1700000000 (some "AlphaNode".toList) "hello world".toList =
    "738c".toList := by
  decide +kernel

end Reactions

end RemoteTerm
