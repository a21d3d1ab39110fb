import RemoteTerm.Decoder.Decoder

/-!
# PATH payloads

`decrypt_path_payload` and `try_decrypt_path`: the route that a contact returns,
and the reply that is bundled with it.
-/

namespace RemoteTerm

open Library

/-- `DecryptedPathPayload`. -/
structure DecryptedPathPayload where
  destHash : Text
  srcHash : Text
  returnedPath : Bytes
  returnedPathLen : Nat
  returnedPathHashMode : Nat
  extraType : Nat
  extra : Bytes
  deriving DecidableEq

/-- The route and the bundled reply of a decrypted PATH payload. -/
def readPathPayload (payload decrypted : Bytes) : Option DecryptedPathPayload := do
  let (returnedPathLen, hashSize) ← decodePathByte (decrypted.getD 0 0).toNat
  let pathByteLen := returnedPathLen * hashSize
  if decrypted.length < 1 + pathByteLen + 1 then none
  return {
    destHash := hexOfBytes (payload.take 1)
    srcHash := hexOfBytes ((payload.drop 1).take 1)
    returnedPath := (decrypted.drop 1).take pathByteLen
    returnedPathLen := returnedPathLen
    returnedPathHashMode := hashSize - 1
    extraType := (decrypted.getD (1 + pathByteLen) 0).toNat &&& 0x0F
    extra := decrypted.drop (1 + pathByteLen + 1) }

/-- `decrypt_path_payload`. -/
def decryptPathPayload (crypto : Crypto) (payload sharedSecret : Bytes) :
    Option DecryptedPathPayload := do
  if payload.length < 4 then none
  let ciphertext ← verifiedCiphertext crypto sharedSecret ((payload.drop 2).take 2)
    (payload.drop 4)
  let decrypted ← crypto.aesEcbDecrypt (sharedSecret.take 16) ciphertext
  if decrypted.length < 2 then none
  readPathPayload payload decrypted

/-- `try_decrypt_path`. -/
def tryDecryptPath (crypto : Crypto) (rawPacket ourPrivateKey theirPublicKey ourPublicKey : Bytes) :
    Option DecryptedPathPayload := do
  let packetInfo ← parsePacket rawPacket
  if packetInfo.payloadType ≠ .path then none
  if packetInfo.payload.length < 4 then none
  if packetInfo.payload.getD 0 0 ≠ ourPublicKey.getD 0 0 ∨
      packetInfo.payload.getD 1 0 ≠ theirPublicKey.getD 0 0 then none
  let sharedSecret ← crypto.deriveSharedSecret ourPrivateKey theirPublicKey
  decryptPathPayload crypto packetInfo.payload sharedSecret

theorem decodePathByte_range {pathByte hops size : Nat}
    (h : decodePathByte pathByte = some (hops, size)) : hops ≤ 63 ∧ 1 ≤ size ∧ size ≤ 3 := by
  simp only [decodePathByte, Option.ite_none_left_eq_some, Option.some.injEq, Prod.mk.injEq] at h
  obtain ⟨hne, rfl, rfl⟩ := h
  have hmode : (pathByte >>> 6) &&& 0x03 ≤ 3 := Nat.and_le_right
  have hhops : pathByte &&& 0x3F ≤ 63 := Nat.and_le_right
  omega

theorem readPathPayload_route {payload decrypted : Bytes} {p : DecryptedPathPayload}
    (h : readPathPayload payload decrypted = some p) :
    p.returnedPathLen ≤ 63 ∧ p.returnedPathHashMode ≤ 2 ∧
      p.returnedPath.length = p.returnedPathLen * (p.returnedPathHashMode + 1) := by
  simp only [readPathPayload, Option.bind_eq_bind, Option.bind_eq_some_iff] at h
  obtain ⟨⟨hops, size⟩, hdecode, h⟩ := h
  obtain ⟨hhops, hone, hsize⟩ := decodePathByte_range hdecode
  simp only [Option.bind_none, Option.ite_none_left_eq_some, Option.pure_def, Option.some.injEq,
    not_lt] at h
  obtain ⟨hlen, rfl⟩ := h
  have hback : size - 1 + 1 = size := by omega
  refine ⟨hhops, by simp only; omega, ?_⟩
  simp only [List.length_take, List.length_drop, hback]
  omega

/-- A decrypted route has at most 63 hops of one to three bytes, and its announced length. -/
theorem decryptPathPayload_route {crypto : Crypto} {payload secret : Bytes}
    {p : DecryptedPathPayload} (h : decryptPathPayload crypto payload secret = some p) :
    p.returnedPathLen ≤ 63 ∧ p.returnedPathHashMode ≤ 2 ∧
      p.returnedPath.length = p.returnedPathLen * (p.returnedPathHashMode + 1) := by
  simp only [decryptPathPayload, Option.bind_eq_bind, Option.bind_none,
    Option.ite_none_left_eq_some, Option.bind_eq_some_iff] at h
  obtain ⟨-, ciphertext, -, decrypted, -, -, hread⟩ := h
  exact readPathPayload_route hread

end RemoteTerm
