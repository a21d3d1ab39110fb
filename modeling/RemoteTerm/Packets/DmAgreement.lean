import RemoteTerm.Packets.Historical
import RemoteTerm.Services.DmContents

/-!
# The two pipelines of a direct message packet

A direct message packet is resolved on live arrival, by a lookup of every
contact it may concern, or in a scan of stored packets for one contact. The scan
reads the direction off the two hash bytes alone: it accepts a packet that is
addressed to somebody else, and it takes our own packet for an incoming one when
our first byte is the contact's.
-/

namespace RemoteTerm

open Library MessageRepository ContactRepository

section Decoder

variable {crypto : Crypto} {rawBytes privateKey key : Bytes} {ourKey : Option Bytes}
  {info : PacketInfo} {m : DecryptedDirectMessage}

/-- What decrypting a packet says about its header. -/
theorem tryDecryptDm_spec (hinfo : parsePacket rawBytes = some info)
    (h : tryDecryptDm crypto rawBytes privateKey key ourKey = some m) :
    4 ≤ info.payload.length ∧
      (info.payload.getD 1 0 = key.getD 0 0 ∨
        ∃ k ∈ ourKey, info.payload.getD 1 0 = k.getD 0 0 ∧ info.payload.getD 0 0 = key.getD 0 0) ∧
      m.destHash = hexOfBytes (info.payload.take 1) ∧
      m.srcHash = hexOfBytes ((info.payload.drop 1).take 1) := by
  simp only [tryDecryptDm, hinfo, Option.bind_eq_bind, Option.bind_some] at h
  split at h
  · simp at h
  split at h
  · simp at h
  next hlen =>
    split at h
    · simp at h
    next hhash =>
      simp only [Option.bind_eq_some_iff] at h
      obtain ⟨secret, -, h⟩ := h
      refine ⟨by omega, ?_, ?_⟩
      · by_contra hne
        rw [not_or] at hne
        exact hhash hne
      · simp only [decryptDirectMessage, Option.bind_eq_bind] at h
        split at h
        · simp at h
        simp only [Option.pure_def, Option.bind_eq_some_iff] at h
        obtain ⟨_, -, decrypted, -, h⟩ := h
        split at h
        · simp at h
        simp only [Option.bind_eq_some_iff] at h
        obtain ⟨_, -, _, -, h⟩ := h
        obtain rfl := Option.some.inj h
        exact ⟨rfl, rfl⟩

/-- A packet from the contact is decrypted with or without our public key. -/
theorem tryDecryptDm_of_inbound (hinfo : parsePacket rawBytes = some info)
    (h : info.payload.getD 1 0 = key.getD 0 0) :
    tryDecryptDm crypto rawBytes privateKey key ourKey =
      tryDecryptDm crypto rawBytes privateKey key none := by
  simp only [tryDecryptDm, hinfo, Option.bind_eq_bind, Option.bind_some, h, not_true_eq_false,
    false_and, if_false]

/-- Without our public key only packets from the contact are decrypted. -/
theorem tryDecryptDm_of_ne (hinfo : parsePacket rawBytes = some info)
    (h : info.payload.getD 1 0 ≠ key.getD 0 0) :
    tryDecryptDm crypto rawBytes privateKey key none = none := by
  cases hm : tryDecryptDm crypto rawBytes privateKey key none with
  | none => rfl
  | some m =>
      obtain ⟨-, hhash | ⟨k, hk, -⟩, -⟩ := tryDecryptDm_spec hinfo hm
      · exact absurd hhash h
      · simp at hk

end Decoder

section Candidates

variable {crypto : Crypto} {rawBytes privateKey : Bytes} {ourKey : Option Bytes}
  {info : PacketInfo} {m : DecryptedDirectMessage} {contact : Contact} {contacts : ContactTable}

/-- The first element with a value is found among those that satisfy a condition it meets. -/
theorem findSome?_filter {α β : Type} {f : α → Option β} {p : α → Bool} {l : List α} {b : β}
    (h : l.findSome? f = some b) (hp : ∀ a ∈ l, f a = some b → p a = true) :
    (l.filter p).findSome? f = some b := by
  induction l with
  | nil => simp at h
  | cons a l ih =>
      rw [List.findSome?_cons] at h
      cases hfa : f a with
      | some b' =>
          rw [hfa] at h
          obtain rfl := Option.some.inj h
          have hpa := hp a List.mem_cons_self hfa
          simp [hpa, hfa]
      | none =>
          rw [hfa] at h
          have htail := ih h fun a' ha' => hp a' (List.mem_cons_of_mem a ha')
          rw [List.filter_cons]
          split
          · simpa [List.findSome?_cons, hfa] using htail
          · exact htail

theorem decryptingContact_spec {candidates : List Contact}
    (h : decryptingContact crypto privateKey ourKey rawBytes candidates = some (contact, m)) :
    contact ∈ candidates ∧ ∃ key, bytesOfHex contact.publicKey = some key ∧
      tryDecryptDm crypto rawBytes privateKey key ourKey = some m := by
  obtain ⟨c, hc, h⟩ := List.exists_of_findSome?_eq_some h
  simp only [Option.bind_eq_bind, Option.bind_eq_some_iff, Option.pure_def, Option.some.injEq,
    Prod.mk.injEq] at h
  obtain ⟨key, hkey, d, hd, rfl, rfl⟩ := h
  exact ⟨hc, key, hkey, hd⟩

/-- The contact that decrypts a packet is found among those with its first byte. -/
theorem decryptingContact_firstByte {first : UInt8} {key : Bytes}
    (hkey : contact.publicKey = hexOfBytes (first :: key))
    (h : decryptingContact crypto privateKey ourKey rawBytes contacts.rows = some (contact, m)) :
    decryptingContact crypto privateKey ourKey rawBytes
      (getByPubkeyFirstByte contacts (hexOfBytes [first])) = some (contact, m) := by
  refine findSome?_filter h fun c _ hc => ?_
  simp only [Option.bind_eq_bind, Option.bind_eq_some_iff, Option.pure_def, Option.some.injEq,
    Prod.mk.injEq] at hc
  obtain ⟨_, -, _, -, rfl, -⟩ := hc
  rw [decide_eq_true_eq, lower_hexOfBytes, hexOfBytes_singleton, hkey, hexOfBytes_cons]
  rfl

/-- A packet of ours is decrypted with no contact: without our public key it is tried only as
one from the contact. -/
theorem decryptingContact_outgoing (crypto : Crypto) (privateKey : Bytes) (contacts : ContactTable)
    (hinfo : parsePacket rawBytes = some info)
    (hne : info.payload.getD 1 0 ≠ info.payload.getD 0 0) :
    decryptingContact crypto privateKey none rawBytes
      (getByPubkeyFirstByte contacts (hexOfBytes [info.payload.getD 0 0])) = none := by
  cases h : decryptingContact crypto privateKey none rawBytes
      (getByPubkeyFirstByte contacts (hexOfBytes [info.payload.getD 0 0])) with
  | none => rfl
  | some found =>
      obtain ⟨contact, m⟩ := found
      obtain ⟨hmem, key, hkey, hm⟩ := decryptingContact_spec h
      have htake : contact.publicKey.take 2 = hexOfByte (info.payload.getD 0 0) := by
        simpa [getByPubkeyFirstByte, hexOfBytes_singleton] using (List.mem_filter.mp hmem).2
      have hhead := head_of_bytesOfHex hkey htake
      have hfirst : key.getD 0 0 = info.payload.getD 0 0 := by
        cases key with
        | nil => simp at hhead
        | cons b key => simpa using hhead
      rw [tryDecryptDm_of_ne hinfo (by rwa [hfirst])] at hm
      simp at hm

end Candidates

/-- The direction of a decrypted packet: with equal hash bytes it is ours when the message was
stored as sent. -/
def resolvedDirection (s : App) (isOutgoing : Bool) (destHash srcHash : UInt8) (contact : Contact)
    (decrypted : DecryptedDirectMessage) : Bool :=
  if ¬ isOutgoing ∧ destHash = srcHash then
    (getByContent s.messages .priv (lower contact.publicKey) decrypted.message
      (some decrypted.timestamp) (some true)).isSome
  else isOutgoing

/-- The contact, the content and the direction that live arrival gives a packet, if any. -/
def liveResolution (env : Pipeline) (s : App) (rawBytes : Bytes) (packetInfo : PacketInfo) :
    Option (Contact × DecryptedDirectMessage × Bool) :=
  match env.privateKey, env.publicKey, packetInfo.payload with
  | some privateKey, some ourPublicKey, destHash :: srcHash :: _ :: _ :: _ =>
      (packetDirection destHash srcHash (ourPublicKey.getD 0 0)).bind fun isOutgoing =>
        (decryptingContact env.crypto privateKey (if isOutgoing then none else some ourPublicKey)
          rawBytes (getByPubkeyFirstByte s.contacts
            (hexOfBytes [if isOutgoing then destHash else srcHash]))).map fun found =>
          (found.1, found.2, resolvedDirection s isOutgoing destHash srcHash found.1 found.2)
  | _, _, _ => none

/-- The content and the direction that a scan for one contact gives a packet, if any. -/
def historicalResolution (crypto : Crypto) (privateKey contactPublicKey rawBytes : Bytes) :
    Option (DecryptedDirectMessage × Bool) :=
  (tryDecryptDm crypto rawBytes privateKey contactPublicKey none).map fun m =>
    (m, historicalOutgoing (crypto.derivePublicKey privateKey) m)

section Resolution

variable {sha256 : Bytes → Bytes} {env : Pipeline} {s s' : App} {r : Reception}
  {packetInfo : PacketInfo} {packetId : Nat} {scope : Option Nat × Option Text}

theorem resolveDirection_eval {isOutgoing outgoing : Bool} {destHash srcHash : UInt8}
    {contact : Contact} {decrypted : DecryptedDirectMessage} :
    Program.Eval (process sha256) (resolveDirection isOutgoing destHash srcHash contact decrypted)
        s outgoing s' ↔
      outgoing = resolvedDirection s isOutgoing destHash srcHash contact decrypted ∧ s' = s := by
  unfold resolveDirection resolvedDirection
  split
  next => simp [and_comm]
  next => simp

/-- Live arrival ingests what it resolves. -/
theorem processDirectMessage_eval :
    Program.Eval (process sha256) (processDirectMessage env r packetId packetInfo scope) s () s' ↔
      match liveResolution env s r.rawBytes packetInfo with
      | none => s' = s
      | some (contact, decrypted, outgoing) => ∃ x, Program.Eval (process sha256)
          (ingestDecryptedDirectMessage
            (liveIngest r packetId packetInfo scope contact decrypted outgoing)) s x s' := by
  unfold processDirectMessage
  split
  next privateKey ourPublicKey destHash srcHash _ _ _ hprivate hpublic hpayload =>
    simp only [liveResolution, hprivate, hpublic, hpayload]
    cases packetDirection destHash srcHash (ourPublicKey.getD 0 0) with
    | none => simp
    | some isOutgoing =>
        simp only [processCandidates, Program.await_bind, Program.eval_call_iff,
          process_getContactsByFirstByte, Option.bind_some]
        cases hfound : decryptingContact env.crypto privateKey
            (if isOutgoing then none else some ourPublicKey) r.rawBytes
            (getByPubkeyFirstByte s.contacts
              (hexOfBytes [if isOutgoing then destHash else srcHash])) with
        | none =>
            constructor
            · rintro ⟨candidates, t, ⟨rfl, rfl⟩, h⟩
              simpa [hfound] using h
            · rintro rfl
              exact ⟨_, _, ⟨rfl, rfl⟩, by simp [hfound]⟩
        | some found =>
            obtain ⟨contact, decrypted⟩ := found
            constructor
            · rintro ⟨candidates, t, ⟨rfl, rfl⟩, h⟩
              simp only [hfound, Program.eval_bind_iff, resolveDirection_eval] at h
              obtain ⟨_, _, ⟨rfl, rfl⟩, x, u, hx, hpure⟩ := h
              obtain ⟨-, rfl⟩ := Program.eval_pure_iff.mp hpure
              exact ⟨x, hx⟩
            · rintro ⟨x, hx⟩
              refine ⟨_, _, ⟨rfl, rfl⟩, ?_⟩
              simp only [hfound, Program.eval_bind_iff, resolveDirection_eval]
              exact ⟨_, _, ⟨rfl, rfl⟩, x, s', hx, .pure _ _⟩
  next hnone =>
    have hlive : liveResolution env s r.rawBytes packetInfo = none := by
      unfold liveResolution
      split
      next hprivate hpublic hpayload =>
        exact (hnone _ _ _ _ _ _ _ hprivate hpublic hpayload).elim
      next => rfl
    simp [hlive]

/-- The scan ingests what it resolves. -/
theorem decryptDmPacket_eval {crypto : Crypto} {privateKey contactPublicKey : Bytes}
    {contactPublicKeyHex : Text} {now : Int} {p : RawPacketRow} :
    Program.Eval (process sha256)
        (decryptDmPacket crypto privateKey contactPublicKey contactPublicKeyHex now p) s () s' ↔
      match historicalResolution crypto privateKey contactPublicKey p.data with
      | none => s' = s
      | some (decrypted, outgoing) => ∃ x, Program.Eval (process sha256)
          (ingestDecryptedDirectMessage
            (historicalIngest p contactPublicKeyHex decrypted outgoing now)) s x s' := by
  unfold decryptDmPacket historicalResolution
  cases tryDecryptDm crypto p.data privateKey contactPublicKey none with
  | none => simp
  | some m =>
      simp only [Program.eval_bind_iff, Option.map_some]
      constructor
      · rintro ⟨x, t, hx, hpure⟩
        obtain ⟨-, rfl⟩ := Program.eval_pure_iff.mp hpure
        exact ⟨x, hx⟩
      · rintro ⟨x, hx⟩
        exact ⟨x, s', hx, .pure _ _⟩

end Resolution

section Agreement

variable {env : Pipeline} {s : App} {r : Reception} {p : RawPacketRow} {packetInfo : PacketInfo}
  {privateKey : Bytes} {destHash srcHash : UInt8} {rest : Bytes}

/-- Both pipelines give the packet one direction, and leave the same contents. -/
def HistoricalAgrees (env : Pipeline) (privateKey contactPublicKey : Bytes)
    (contactPublicKeyHex : Text) (s : App) (r : Reception) (p : RawPacketRow)
    (packetInfo : PacketInfo) (scope : Option Nat × Option Text) (now : Int) : Prop :=
  (historicalResolution env.crypto privateKey contactPublicKey p.data).map Prod.snd =
      (liveResolution env s r.rawBytes packetInfo).map (fun found => found.2.2) ∧
    ∀ live historical,
      Program.Eval (process env.crypto.sha256)
        (processDirectMessage env r p.id packetInfo scope) s () live →
      Program.Eval (process env.crypto.sha256)
        (decryptDmPacket env.crypto privateKey contactPublicKey contactPublicKeyHex now p) s ()
        historical →
      contents historical.messages = contents live.messages

/-- A packet that is not addressed to our first byte resolves to nothing on live arrival. -/
theorem liveResolution_of_ne (hprivate : env.privateKey = some privateKey)
    (hinfo : parsePacket r.rawBytes = some packetInfo)
    (hpayload : packetInfo.payload = destHash :: srcHash :: rest)
    (hne : destHash ≠ (env.crypto.derivePublicKey privateKey).getD 0 0) :
    liveResolution env s r.rawBytes packetInfo = none := by
  unfold liveResolution
  split
  next privateKey' ourPublicKey d c _ _ _ hprivate' hpublic hpayload' =>
    obtain ⟨rfl, hrest⟩ := List.cons.inj (hpayload.symm.trans hpayload')
    obtain ⟨rfl, -⟩ := List.cons.inj hrest
    have hour : ourPublicKey = env.crypto.derivePublicKey privateKey := by
      simpa [Pipeline.publicKey, hprivate, eq_comm] using hpublic
    subst hour
    by_cases hsrc : srcHash = (env.crypto.derivePublicKey privateKey).getD 0 0
    · -- a packet of ours is tried with the contacts it is addressed to, and fails with each
      have hdirection : packetDirection destHash srcHash
          ((env.crypto.derivePublicKey privateKey).getD 0 0) = some true := by
        simp only [packetDirection, hne, hsrc, false_and, if_false, ne_eq, not_false_eq_true,
          and_self, if_true]
      have hnone := decryptingContact_outgoing env.crypto privateKey' s.contacts hinfo
        (by simpa [hpayload, hsrc] using Ne.symm hne)
      simp only [hpayload, List.getD_cons_zero] at hnone
      simp only [hdirection, Option.bind_some, if_true, hnone, Option.map_none]
    · have hdirection : packetDirection destHash srcHash
          ((env.crypto.derivePublicKey privateKey).getD 0 0) = none := by
        simp only [packetDirection, hne, hsrc, false_and, if_false]
      simp only [hdirection, Option.bind_none]
  next => rfl

/-- A packet addressed to our first byte resolves to the first contact that decrypts it. -/
theorem liveResolution_of_eq {contact : Contact} {m : DecryptedDirectMessage} {a b : UInt8}
    (hprivate : env.privateKey = some privateKey)
    (hpayload : packetInfo.payload = destHash :: srcHash :: a :: b :: rest)
    (heq : destHash = (env.crypto.derivePublicKey privateKey).getD 0 0)
    (hdec : decryptingContact env.crypto privateKey env.publicKey r.rawBytes
      (getByPubkeyFirstByte s.contacts (hexOfBytes [srcHash])) = some (contact, m)) :
    liveResolution env s r.rawBytes packetInfo =
      some (contact, m, resolvedDirection s false destHash srcHash contact m) := by
  have hpublic : env.publicKey = some (env.crypto.derivePublicKey privateKey) := by
    simp [Pipeline.publicKey, hprivate]
  have hdirection : packetDirection destHash srcHash
      ((env.crypto.derivePublicKey privateKey).getD 0 0) = some false := by
    rw [← heq]
    by_cases hsrc : srcHash = destHash <;> simp [packetDirection, hsrc]
  rw [hpublic] at hdec
  simp only [liveResolution, hprivate, hpublic, hpayload, hdirection, Option.bind_some,
    Bool.false_eq_true, if_false, hdec, Option.map_some]

/-- The scan reads the direction off the hash bytes. -/
theorem historicalOutgoing_eq {m : DecryptedDirectMessage} {ourPublicKey : Bytes}
    (hdest : m.destHash = hexOfBytes [destHash]) (hsrc : m.srcHash = hexOfBytes [srcHash]) :
    historicalOutgoing ourPublicKey m =
      decide (srcHash = ourPublicKey.getD 0 0 ∧ destHash ≠ ourPublicKey.getD 0 0) := by
  have hinj : ∀ c : UInt8, hexOfBytes [c] = hexOfBytes [ourPublicKey.getD 0 0] ↔
      c = ourPublicKey.getD 0 0 := by
    intro c
    simp only [hexOfBytes_singleton]
    exact ⟨hexOfByte_inj, fun h => h ▸ rfl⟩
  simp only [historicalOutgoing, hdest, hsrc, lower_hexOfBytes, ne_eq, hinj]

/-- The two pipelines of a packet agree exactly when the packet is none of the contact's, or
is addressed to our first byte and, if that is the contact's too, was not stored as sent. -/
theorem historical_agrees_iff {contact : Contact} {m : DecryptedDirectMessage} {first : UInt8}
    {key : Bytes} {scope : Option Nat × Option Text} {now : Int}
    (hprivate : env.privateKey = some privateKey) (hdata : p.data = r.rawBytes)
    (hinfo : parsePacket r.rawBytes = some packetInfo)
    (hpayload : packetInfo.payload = destHash :: srcHash :: rest)
    (hkey : contact.publicKey = hexOfBytes (first :: key))
    (hdec : decryptingContact env.crypto privateKey env.publicKey r.rawBytes s.contacts.rows =
      some (contact, m)) :
    HistoricalAgrees env privateKey (first :: key) contact.publicKey s r p packetInfo scope now ↔
      srcHash ≠ first ∨ destHash = (env.crypto.derivePublicKey privateKey).getD 0 0 ∧
        (srcHash = (env.crypto.derivePublicKey privateKey).getD 0 0 →
          getByContent s.messages .priv (lower contact.publicKey) m.message (some m.timestamp)
            (some true) = none) := by
  have hpublic : env.publicKey = some (env.crypto.derivePublicKey privateKey) := by
    simp [Pipeline.publicKey, hprivate]
  obtain ⟨-, key', hkey', hm⟩ := decryptingContact_spec hdec
  obtain rfl : key' = first :: key := by
    rw [hkey, bytesOfHex_hexOfBytes] at hkey'
    exact (Option.some.inj hkey').symm
  obtain ⟨hlength, hhash, hmdest, hmsrc⟩ := tryDecryptDm_spec hinfo hm
  simp only [hpayload, hpublic, List.getD_cons_zero, List.getD_cons_succ, Option.mem_some_iff,
    exists_eq_left'] at hhash
  simp only [hpayload, List.take_succ_cons, List.take_zero, List.drop_succ_cons, List.drop_zero]
    at hmdest hmsrc
  by_cases hdest : destHash = (env.crypto.derivePublicKey privateKey).getD 0 0
  · -- both pipelines ingest the packet, and the scan takes it for an incoming one
    obtain rfl : srcHash = first := by
      rcases hhash with h | ⟨hour, hfirst⟩
      · exact h
      · rw [hour, ← hdest, hfirst]
    obtain ⟨a, b, rest', rfl⟩ : ∃ a b rest', rest = a :: b :: rest' := by
      match rest, hpayload ▸ hlength with
      | a :: b :: rest', _ => exact ⟨a, b, rest', rfl⟩
    have hlive := liveResolution_of_eq (r := r) (s := s) hprivate hpayload hdest
      (decryptingContact_firstByte hkey hdec)
    have hscan : historicalResolution env.crypto privateKey (srcHash :: key) p.data =
        some (m, false) := by
      rw [tryDecryptDm_of_inbound hinfo (by simp [hpayload])] at hm
      have hincoming : historicalOutgoing (env.crypto.derivePublicKey privateKey) m = false := by
        rw [historicalOutgoing_eq hmdest hmsrc, decide_eq_false_iff_not]
        exact fun h => h.2 hdest
      simp [historicalResolution, hdata, hm, hincoming]
    rw [HistoricalAgrees, hlive, hscan]
    constructor
    · rintro ⟨hdirection, -⟩
      refine Or.inr ⟨hdest, fun hsrc => ?_⟩
      simpa [resolvedDirection, hdest, hsrc] using hdirection
    · rintro (hne | ⟨-, hsent⟩)
      · exact absurd rfl hne
      · have hdirection : resolvedDirection s false destHash srcHash contact m = false := by
          simp only [resolvedDirection, Bool.false_eq_true, not_false_eq_true, true_and]
          split
          next heq => simp [hsent (heq ▸ hdest)]
          next => rfl
        refine ⟨by simp [hdirection], fun live historical hlive' hscan' => ?_⟩
        rw [processDirectMessage_eval, hlive] at hlive'
        rw [decryptDmPacket_eval, hscan] at hscan'
        obtain ⟨x, hx⟩ := hlive'
        obtain ⟨y, hy⟩ := hscan'
        refine ingestDecryptedDirectMessage_contents ?_ hy hx
        constructor <;> simp [historicalIngest, liveIngest, hdirection]
  · -- live arrival drops the packet; the scan ingests it if its source is the contact's byte
    have hlive := liveResolution_of_ne (s := s) hprivate hinfo hpayload hdest
    rw [HistoricalAgrees, hlive]
    by_cases hsrc : srcHash = first
    · rw [tryDecryptDm_of_inbound hinfo (by simp [hpayload, hsrc])] at hm
      refine iff_of_false (fun hagrees => ?_) (by simp only [hsrc, ne_eq, not_true_eq_false, hdest,
        false_and, or_self, not_false_eq_true])
      simp [historicalResolution, hdata, hm] at hagrees
    · have hscan : historicalResolution env.crypto privateKey (first :: key) p.data = none := by
        have hnone : tryDecryptDm env.crypto r.rawBytes privateKey (first :: key) none = none :=
          tryDecryptDm_of_ne hinfo (by simpa [hpayload] using hsrc)
        simp [historicalResolution, hdata, hnone]
      rw [hscan]
      refine iff_of_true ⟨rfl, fun live historical hlive' hscan' => ?_⟩ (Or.inl hsrc)
      rw [processDirectMessage_eval, hlive] at hlive'
      rw [decryptDmPacket_eval, hscan] at hscan'
      rw [hlive', hscan']

end Agreement

section Sample

/-- Our keys, and a contact whose public key starts with the same byte. -/
def ourPrivateKey : Bytes := 0x00 :: List.replicate 30 0x01 ++ 0x41 :: List.replicate 32 0x00

def ourPublicKey : Bytes :=
  [0x5d, 0x21, 0x48, 0x77, 0xc8, 0x13, 0xe5, 0xdb, 0x64, 0x3d, 0x2b, 0x19, 0xeb, 0x0a, 0xa1, 0xce,
    0xea, 0xff, 0x9e, 0x37, 0xc3, 0xa7, 0x09, 0x14, 0x7d, 0x6b, 0x6e, 0xe8, 0xe6, 0x90, 0x56, 0x66]

def twinPublicKey : Bytes :=
  [0x5d, 0x0e, 0xde, 0x50, 0xbc, 0xb8, 0x7d, 0x44, 0x75, 0x8c, 0xfc, 0x29, 0xc0, 0xc5, 0x39, 0x3f,
    0x41, 0xba, 0x7d, 0xfa, 0x1b, 0xf2, 0x12, 0x5b, 0x2b, 0x57, 0x01, 0x7b, 0x3b, 0x7e, 0x2e, 0xee]

def twinSecret : Bytes :=
  [0xd5, 0xa0, 0x46, 0x7d, 0xc7, 0xdc, 0x04, 0x4f, 0xaa, 0xc2, 0xa0, 0x13, 0xd8, 0x7a, 0xa7, 0x3a,
    0x22, 0x97, 0xb2, 0x88, 0xe0, 0x2c, 0x8e, 0x92, 0x58, 0x62, 0x0e, 0xed, 0x6b, 0xa1, 0xdf, 0x76]

/-- A direct message between the two: a timestamp, no flags, and the text `hello`. -/
def twinPlaintext : Bytes :=
  [0x00, 0xf1, 0x53, 0x65, 0x00, 0x68, 0x65, 0x6c, 0x6c, 0x6f, 0x00, 0x00, 0x00, 0x00, 0x00, 0x00]

def twinCiphertext : Bytes :=
  [0xf9, 0x59, 0x9b, 0x25, 0x9c, 0x4e, 0xa0, 0x2c, 0xc2, 0xb3, 0xae, 0x75, 0x67, 0xfe, 0xef, 0xa7]

/-- The payload is the same in both directions. -/
def twinPayload : Bytes := [0x5d, 0x5d, 0x7a, 0x13] ++ twinCiphertext

/-- The values of the real primitives on the message. -/
def twinCrypto : Crypto where
  sha256 b :=
    if b = twinPayload then
      [0xdd, 0x49, 0x21, 0x13, 0xf9, 0xc8, 0xde, 0xab, 0x77, 0xfd, 0xc4, 0xfd, 0xc9, 0x15, 0xf6,
        0x1e, 0x26, 0x06, 0xb7, 0x03, 0x60, 0xd0, 0xa6, 0x18, 0x15, 0xf6, 0x89, 0x69, 0x30, 0x4b,
        0x22, 0x7c]
    else []
  hmacSha256 k b :=
    if k = twinSecret ∧ b = twinCiphertext then
      [0x7a, 0x13, 0xa0, 0xb7, 0x94, 0xe0, 0x0d, 0x3c, 0x29, 0x36, 0xcf, 0x93, 0x15, 0xbf, 0xb5,
        0x3e, 0xaf, 0x5f, 0xa2, 0x8c, 0xa5, 0x09, 0x54, 0x04, 0xeb, 0x13, 0x84, 0x00, 0x53, 0x9c,
        0x46, 0xd8]
    else []
  aesEcbDecrypt k b :=
    if k = twinSecret.take 16 ∧ b = twinCiphertext then some twinPlaintext else none
  deriveSharedSecret k p := if k = ourPrivateKey ∧ p = twinPublicKey then some twinSecret else none
  derivePublicKey k := if k = ourPrivateKey then ourPublicKey else []

def twinPipeline : Pipeline := ⟨twinCrypto, some ourPrivateKey⟩

def twinContact : Contact := { publicKey := hexOfBytes twinPublicKey, type := 1 }

/-- The packet, heard through one repeater. -/
def twinReception : Reception where
  rawBytes := [0x09, 0x01, 0xaa] ++ twinPayload
  now := 1700000001

def twinPacket : RawPacketRow :=
  RawPacketRepository.newRow twinCrypto.sha256 twinReception.rawBytes twinReception.receivedAt 1

def twinMessage : DecryptedDirectMessage :=
  ⟨1700000000, 0, "hello".toList, "5d".toList, "5d".toList, none⟩

/-- The packet is stored and the contact is known. -/
def twinApp : App :=
  { App.empty with
    contacts := upsert .empty { publicKey := twinContact.publicKey, type := 1 }
    rawPackets := (RawPacketRepository.create twinCrypto.sha256 .empty twinReception.rawBytes
      twinReception.receivedAt).2 }

/-- The message was stored when we sent it. -/
def twinSentApp : App :=
  { twinApp with
    messages := (create .empty
      { msgType := .priv, text := twinMessage.message, conversationKey := twinContact.publicKey,
        senderTimestamp := some twinMessage.timestamp, receivedAt := 1700000000,
        outgoing := true }).2 }

/-- The contents that a task leaves when it runs alone. -/
def contentsAfter (task : Task Unit) (s : App) : Option (List (Text × Option Int × Bool)) :=
  (task.run (perform twinCrypto.sha256 default) s).map fun r => contents r.2.messages

theorem eval_of_contentsAfter (task : Task Unit) {s : App} {c : List (Text × Option Int × Bool)}
    (h : contentsAfter task s = some c) :
    ∃ s', Program.Eval (process twinCrypto.sha256) task s () s' ∧ contents s'.messages = c := by
  obtain ⟨⟨_, s'⟩, hrun, hc⟩ := Option.map_eq_some_iff.mp h
  exact ⟨s', Program.run_eval (fun _ _ _ _ hact => ⟨default, hact⟩) hrun, hc⟩

def twinInfo : PacketInfo := ⟨.textMessage, 1, [0xaa], twinPayload, none⟩

def twinLive : Task Unit :=
  processDirectMessage twinPipeline twinReception twinPacket.id twinInfo (none, none)

/-- A message from the contact is stored alike by both pipelines. -/
theorem historical_agrees_twin :
    ∃ live historical, Program.Eval (process twinCrypto.sha256) twinLive twinApp () live ∧
      Program.Eval (process twinCrypto.sha256) (decryptDmPacket twinCrypto ourPrivateKey
        twinPublicKey twinContact.publicKey 0 twinPacket) twinApp () historical ∧
      contents historical.messages = contents live.messages := by
  obtain ⟨live, hlive, -⟩ := eval_of_contentsAfter twinLive (s := twinApp)
    (c := [("hello".toList, some 1700000000, false)]) (by decide +kernel)
  obtain ⟨historical, hscan, -⟩ := eval_of_contentsAfter (decryptDmPacket twinCrypto ourPrivateKey
    twinPublicKey twinContact.publicKey 0 twinPacket) (s := twinApp)
    (c := [("hello".toList, some 1700000000, false)]) (by decide +kernel)
  have hdec : (decryptingContact twinPipeline.crypto ourPrivateKey twinPipeline.publicKey
      twinReception.rawBytes twinApp.contacts.rows) = some (twinContact, twinMessage) := by
    decide +kernel
  have hinfo : parsePacket twinReception.rawBytes = some twinInfo := by decide +kernel
  have hagrees : HistoricalAgrees twinPipeline ourPrivateKey twinPublicKey twinContact.publicKey
      twinApp twinReception twinPacket twinInfo (none, none) 0 :=
    (historical_agrees_iff rfl rfl hinfo rfl rfl hdec).mpr
      (Or.inr ⟨by decide +kernel, fun _ => by decide +kernel⟩)
  exact ⟨live, historical, hlive, hscan, hagrees.2 live historical hlive hscan⟩

/-- The scan stores our own message a second time, as an incoming one. -/
theorem historical_stores_incoming_copy :
    ∃ live historical, Program.Eval (process twinCrypto.sha256) twinLive twinSentApp () live ∧
      Program.Eval (process twinCrypto.sha256) (runHistoricalDmDecryption twinCrypto ourPrivateKey
        twinPublicKey twinContact.publicKey 0 2) twinSentApp () historical ∧
      contents live.messages = [("hello".toList, some 1700000000, true)] ∧
      contents historical.messages =
        [("hello".toList, some 1700000000, true), ("hello".toList, some 1700000000, false)] := by
  obtain ⟨live, hlive, hliveContents⟩ := eval_of_contentsAfter twinLive (s := twinSentApp)
    (c := [("hello".toList, some 1700000000, true)]) (by decide +kernel)
  obtain ⟨historical, hscan, hscanContents⟩ := eval_of_contentsAfter
    (runHistoricalDmDecryption twinCrypto ourPrivateKey twinPublicKey twinContact.publicKey 0 2)
    (s := twinSentApp)
    (c := [("hello".toList, some 1700000000, true), ("hello".toList, some 1700000000, false)])
    (by decide +kernel)
  exact ⟨live, historical, hlive, hscan, hliveContents, hscanContents⟩

end Sample

end RemoteTerm
