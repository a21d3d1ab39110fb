import RemoteTerm.Library.Machine
import RemoteTerm.Radio.KeysCleared

/-!
# The stored key pair

The keystore keeps a private key and the public key that was derived from it. The
private key is stored first, so a key that has no public key leaves the public key
of the one before.

## Implementation notes

The derivation is a call of a library that may fail. An export stores the key that
the radio sends; every other reply leaves the keystore as it is.
-/

namespace RemoteTerm

open Library

/-- A call of the keystore. -/
inductive KeystoreCall where
  | setPrivateKey (key : Bytes)
  | exportAndStorePrivateKey (reply : ExportReply)
  | clearKeys

namespace KeystoreCall

variable (derivePublicKey : Bytes → Option Bytes)

/-- What a call reports, and the keystore after it; the calls that store no key report nothing. -/
def perform (s : LinkState) : KeystoreCall → Option KeyStored × LinkState
  | .setPrivateKey key =>
      let (reported, s') := RemoteTerm.setPrivateKey derivePublicKey key s
      (some reported, s')
  | .exportAndStorePrivateKey (.privateKey key) =>
      let (reported, s') := RemoteTerm.setPrivateKey derivePublicKey key s
      (some reported, s')
  | .exportAndStorePrivateKey _ => (none, s)
  | .clearKeys => (none, RemoteTerm.clearKeys s)

/-- The keystore after a call. -/
def apply (s : LinkState) (call : KeystoreCall) : LinkState := (call.perform derivePublicKey s).2

/-- The key that a call stores. -/
def key? : KeystoreCall → Option Bytes
  | .setPrivateKey key => some key
  | .exportAndStorePrivateKey (.privateKey key) => some key
  | _ => none

/-- A key of the right length that the call stores has a public key. -/
def Derivable (call : KeystoreCall) : Prop :=
  ∀ key ∈ call.key?, key.length = 64 → ∃ publicKey, derivePublicKey key = some publicKey

/-- `set_private_key` raised in the call. -/
def Raises (s : LinkState) (call : KeystoreCall) : Prop :=
  (call.perform derivePublicKey s).1 = some .refused ∨
    (call.perform derivePublicKey s).1 = some .raised

end KeystoreCall

/-- Both keys are absent, or the public key is the one of the private key. -/
def LinkState.KeysMatch (derivePublicKey : Bytes → Option Bytes) (s : LinkState) : Prop :=
  s.NoKeys ∨ ∃ key publicKey, s.privateKey = some key ∧ s.publicKey = some publicKey ∧
    derivePublicKey key = some publicKey

section Calls

variable {derivePublicKey : Bytes → Option Bytes} {s : LinkState} {key : Bytes}

/-- What storing a key does: a key of another length is refused, one with a public key is stored
with it, and one without replaces the private key only. -/
theorem setPrivateKey_cases (derivePublicKey : Bytes → Option Bytes) (key : Bytes)
    (s : LinkState) :
    (key.length ≠ 64 ∧ setPrivateKey derivePublicKey key s = (.refused, s)) ∨
    (∃ publicKey, key.length = 64 ∧ derivePublicKey key = some publicKey ∧
      setPrivateKey derivePublicKey key s =
        (.stored, { s with privateKey := some key, publicKey := some publicKey })) ∨
    (key.length = 64 ∧ derivePublicKey key = none ∧
      setPrivateKey derivePublicKey key s = (.raised, { s with privateKey := some key })) := by
  unfold setPrivateKey
  by_cases hlength : key.length = 64
  · rw [if_neg (by simpa using hlength)]
    cases hderive : derivePublicKey key with
    | some publicKey => exact Or.inr (Or.inl ⟨publicKey, hlength, rfl, rfl⟩)
    | none => exact Or.inr (Or.inr ⟨hlength, rfl, rfl⟩)
  · rw [if_pos hlength]
    exact Or.inl ⟨hlength, rfl⟩

/-- A key that can be stored leaves a pair. -/
theorem keysMatch_setPrivateKey (h : s.KeysMatch derivePublicKey)
    (hderivable : key.length = 64 → ∃ publicKey, derivePublicKey key = some publicKey) :
    (setPrivateKey derivePublicKey key s).2.KeysMatch derivePublicKey := by
  rcases setPrivateKey_cases derivePublicKey key s with ⟨-, heq⟩ | ⟨publicKey, -, hderive, heq⟩ |
    ⟨hlength, hnone, -⟩
  · rw [heq]
    exact h
  · rw [heq]
    exact Or.inr ⟨key, publicKey, rfl, rfl, hderive⟩
  · obtain ⟨publicKey, hderive⟩ := hderivable hlength
    rw [hnone] at hderive
    cases hderive

/-- A key that can be stored is refused with the pair as it was, or stored. -/
theorem setPrivateKey_raises
    (hderivable : key.length = 64 → ∃ publicKey, derivePublicKey key = some publicKey)
    (hraises : (setPrivateKey derivePublicKey key s).1 ≠ .stored) :
    (setPrivateKey derivePublicKey key s).2 = s := by
  rcases setPrivateKey_cases derivePublicKey key s with ⟨-, heq⟩ | ⟨publicKey, -, -, heq⟩ |
    ⟨hlength, hnone, -⟩
  · rw [heq]
  · rw [heq] at hraises
    exact absurd rfl hraises
  · obtain ⟨publicKey, hderive⟩ := hderivable hlength
    rw [hnone] at hderive
    cases hderive

/-- A key without a public key does not leave a pair. -/
theorem not_keysMatch_setPrivateKey (hlength : key.length = 64)
    (hnone : derivePublicKey key = none) :
    ¬ (setPrivateKey derivePublicKey key s).2.KeysMatch derivePublicKey := by
  rcases setPrivateKey_cases derivePublicKey key s with ⟨hne, -⟩ | ⟨publicKey, -, hderive, -⟩ |
    ⟨-, -, heq⟩
  · exact absurd hlength hne
  · rw [hnone] at hderive
    cases hderive
  · rw [heq]
    rintro (⟨hprivate, -⟩ | ⟨stored, publicKey, hstored, -, hderive⟩)
    · cases hprivate
    · obtain rfl : key = stored := Option.some.inj hstored
      rw [hnone] at hderive
      cases hderive

end Calls

namespace KeystoreCall

variable {derivePublicKey : Bytes → Option Bytes} {s : LinkState} {call : KeystoreCall}

/-- A call stores its key, or it stores none. -/
theorem perform_cases (derivePublicKey : Bytes → Option Bytes) (s : LinkState)
    (call : KeystoreCall) :
    (∃ key, call.key? = some key ∧ call.perform derivePublicKey s =
      (some (RemoteTerm.setPrivateKey derivePublicKey key s).1,
        (RemoteTerm.setPrivateKey derivePublicKey key s).2)) ∨
    (call.key? = none ∧ (call.perform derivePublicKey s = (none, s) ∨
      call.perform derivePublicKey s = (none, RemoteTerm.clearKeys s))) := by
  cases call with
  | setPrivateKey key => exact Or.inl ⟨key, rfl, rfl⟩
  | exportAndStorePrivateKey reply =>
      cases reply with
      | privateKey key => exact Or.inl ⟨key, rfl, rfl⟩
      | _ => exact Or.inr ⟨rfl, Or.inl rfl⟩
  | clearKeys => exact Or.inr ⟨rfl, Or.inr rfl⟩

/-- Every call keeps the pair, when the key that it stores has a public key. -/
theorem keysMatch_apply (hderivable : call.Derivable derivePublicKey)
    (h : s.KeysMatch derivePublicKey) :
    (apply derivePublicKey s call).KeysMatch derivePublicKey := by
  unfold apply
  rcases perform_cases derivePublicKey s call with ⟨key, hkey, heq⟩ | ⟨-, heq | heq⟩
  · rw [heq]
    exact keysMatch_setPrivateKey h (hderivable key hkey)
  · rw [heq]
    exact h
  · rw [heq]
    exact Or.inl ⟨rfl, rfl⟩

/-- A call that raises leaves the pair, when the key that it stores has a public key. -/
theorem apply_of_raises (hderivable : call.Derivable derivePublicKey)
    (hraises : call.Raises derivePublicKey s) : apply derivePublicKey s call = s := by
  unfold apply
  unfold Raises at hraises
  rcases perform_cases derivePublicKey s call with ⟨key, hkey, heq⟩ | ⟨-, heq | heq⟩
  · rw [heq] at hraises ⊢
    refine setPrivateKey_raises (hderivable key hkey) fun hstored => ?_
    rw [hstored] at hraises
    rcases hraises with hraises | hraises <;> cases hraises
  · rw [heq]
  · rw [heq] at hraises
    rcases hraises with hraises | hraises <;> cases hraises

/-- A call with a key that has no public key does not leave a pair. -/
theorem not_keysMatch_apply (hderivable : ¬ call.Derivable derivePublicKey) :
    ¬ (apply derivePublicKey s call).KeysMatch derivePublicKey := by
  unfold Derivable at hderivable
  push Not at hderivable
  obtain ⟨key, hkey, hlength, hnone⟩ := hderivable
  have hnone : derivePublicKey key = none := by
    cases hderive : derivePublicKey key with
    | none => rfl
    | some publicKey => exact absurd hderive (hnone publicKey)
  unfold apply
  rcases perform_cases derivePublicKey s call with ⟨key', hkey', heq⟩ | ⟨hno, -⟩
  · rw [hkey] at hkey'
    cases hkey'
    rw [heq]
    exact not_keysMatch_setPrivateKey hlength hnone
  · rw [hno] at hkey
    cases hkey

/-- A run of calls under a condition. -/
abbrev Run (derivePublicKey : Bytes → Option Bytes) (ok : LinkState → KeystoreCall → Prop) :
    LinkState → LinkState → Prop :=
  Machine (apply derivePublicKey) ok

end KeystoreCall

/-- **The stored keys are a pair** in every run whose keys all have a public key, and a call that
raises leaves the pair as it was. A call with another key of 64 bytes never leaves a pair. -/
theorem stored_keys_match (derivePublicKey : Bytes → Option Bytes) (s : LinkState) :
    (KeystoreCall.Run derivePublicKey (fun _ call => call.Derivable derivePublicKey) {} s →
      s.KeysMatch derivePublicKey ∧
        ∀ call : KeystoreCall, call.Derivable derivePublicKey → call.Raises derivePublicKey s →
          call.apply derivePublicKey s = s) ∧
    ∀ call : KeystoreCall, ¬ call.Derivable derivePublicKey →
      ¬ (call.apply derivePublicKey s).KeysMatch derivePublicKey := by
  refine ⟨fun run => ⟨?_, fun call => KeystoreCall.apply_of_raises⟩,
    fun call => KeystoreCall.not_keysMatch_apply⟩
  exact run.invariant (P := LinkState.KeysMatch derivePublicKey)
    (fun _ _ hok h => KeystoreCall.keysMatch_apply hok h) (Or.inl ⟨rfl, rfl⟩)

section Example

/-- A derivation that fails for the scalar zero, as the library's does. -/
def deriveNonzero (key : Bytes) : Option Bytes :=
  if (key.take 32).all (· = 0) then none else some (key.take 32)

theorem stored_keys_match_import :
    ((KeystoreCall.setPrivateKey (List.replicate 64 1)).apply deriveNonzero {}).KeysMatch
      deriveNonzero := by
  refine ((stored_keys_match deriveNonzero _).1 (Machine.single _ ?_)).1
  intro key hkey _
  obtain rfl : List.replicate 64 1 = key := Option.some.inj hkey
  exact ⟨List.replicate 32 1, by decide⟩

/-- A key is stored, and then one whose scalar is zero: the keys are those of two imports. -/
theorem key_pair_torn :
    ∃ s : LinkState, KeystoreCall.Run deriveNonzero (fun _ _ => True) {} s ∧
      s.privateKey = some (List.replicate 64 0) ∧ s.publicKey = some (List.replicate 32 1) ∧
      ¬ s.KeysMatch deriveNonzero :=
  ⟨_, Machine.foldl (KeystoreCall.apply deriveNonzero) {}
      [.setPrivateKey (List.replicate 64 1), .setPrivateKey (List.replicate 64 0)],
    by decide, by decide, KeystoreCall.not_keysMatch_apply (by
      intro hderivable
      obtain ⟨publicKey, hderive⟩ := hderivable (List.replicate 64 0) rfl rfl
      cases hderive)⟩

end Example

end RemoteTerm
