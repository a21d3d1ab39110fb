import RemoteTerm.Services.DmDeliveries
import RemoteTerm.Services.StoreLock

/-!
# Runs that deliver direct messages

Any number of deliveries run as tasks of one process, one call at a time. In a
run that no masking row and no refused claim disturbs, each finished delivery
leaves one row for its message, and the run never gets stuck. A run in which the
library event of a post is masked by another author's post loses the post.
-/

namespace RemoteTerm

open Library MessageRepository ContactRepository

/-- A state in which deliveries may start: each one resolves to its message, deliveries of
one packet agree, a linked packet delivers a stored message, and the store lock is free. -/
structure Deliverable (vs : List (IncomingMessage × Delivery)) (s : App) : Prop where
  delivered : ∀ v ∈ vs, DeliveredAs s.contacts v.1 v.2
  agree : PacketsAgree vs
  linked : ∀ v ∈ vs, ∀ p ∈ v.2.packetId?,
    (RawPacketRepository.getLinkedMessageId s.rawPackets p).isSome → Stored v.1 s
  unlocked : s.storeLock = false

/-- The deliveries as the tasks of a process. -/
def deliveryPool (vs : List (IncomingMessage × Delivery)) (s : App) :
    Pool Op Op.Ans (Option (Option Nat)) App :=
  ⟨s, vs.map fun v => v.2.task⟩

/-- Every delivery moves undisturbed. -/
def undisturbed (vs : List (IncomingMessage × Delivery)) (i : Nat) (op : Op) (s : App) : Prop :=
  ∀ v ∈ vs[i]?, Undisturbed v.1 op s

section Runs

variable {sha256 : Bytes → Bytes} {vs : List (IncomingMessage × Delivery)} {s : App}
  {q : Pool Op Op.Ans (Option (Option Nat)) App}

theorem deliveryPool_getElem? {i : Nat} {t : Task (Option (Option Nat))}
    (ht : (deliveryPool vs s).threads[i]? = some t) : ∃ v, vs[i]? = some v ∧ v.2.task = t := by
  simpa [deliveryPool, Option.map_eq_some_iff] using ht

theorem task_takesTurns (v : Delivery) : TakesTurns v.task := by
  cases v with
  | packet d => exact ingestDecryptedDirectMessage_takesTurns d
  | event e => exact onContactMessage_takesTurns e

/-- The pool of deliveries never waits for a lock that nobody holds. -/
theorem deliveryPool_held (hstart : Deliverable vs s) :
    (storeLock sha256).Held (deliveryPool vs s) := by
  apply Lock.held_of_free hstart.unlocked
  intro t ht
  obtain ⟨v, -, rfl⟩ := List.mem_map.mp ht
  exact task_takesTurns v.2

theorem task_guarded (hstart : Deliverable vs s) {v : IncomingMessage × Delivery} (hv : v ∈ vs) :
    Stores sha256 s.contacts vs v v.2.task s := by
  have hI : Delivering s.contacts vs s := ⟨rfl, hstart.linked⟩
  obtain ⟨m, d | e⟩ := v
  · exact ingestDecryptedDirectMessage_guarded hstart.agree hstart.delivered hv hI
  · exact onContactMessage_guarded hstart.agree hstart.delivered hv hI

/-- In an undisturbed run every finished delivery leaves exactly one row for its message,
and a run that has not finished can go on. -/
theorem deliveries_stored_once (hstart : Deliverable vs s)
    (run : Pool.Run (process sha256) (Pool.onCall (undisturbed vs)) (deliveryPool vs s) q) :
    (∀ (i : Nat) (v : IncomingMessage × Delivery) (a : Option (Option Nat)),
      vs[i]? = some v → q.threads[i]? = some (.pure a) →
      q.shared.messages.rows.countP (fun r => r.dedupKey = some v.1.key) = 1) ∧
      (q.Finished ∨ ∃ i r, Pool.Step (process sha256) q i r) := by
  have hthreads : ∀ i t, (deliveryPool vs s).threads[i]? = some t →
      Program.Guarded ((process sha256).when (undisturbed vs i)) (Delivering s.contacts vs)
        KeepsStored KeepsStored (fun _ u => ∀ v ∈ vs[i]?, Stored v.1 u) t s := by
    intro i t ht
    obtain ⟨v, hv, rfl⟩ := deliveryPool_getElem? ht
    have hcond : undisturbed vs i = Undisturbed v.1 := by
      funext op u
      simp [undisturbed, hv]
    rw [hcond]
    refine (task_guarded hstart (List.mem_of_getElem? hv)).mono fun _ u hu w hw => ?_
    obtain rfl := Option.some.inj (hv.symm.trans hw)
    exact hu.2
  obtain ⟨-, -, hguarded⟩ := run.guarded KeepsStored.refl KeepsStored.trans (fun h => h)
    (fun _ => KeepsStored.refl) (fun _ _ _ _ hab hbc => hab.trans hbc) (fun _ h => h)
    ⟨rfl, hstart.linked⟩ hthreads
  refine ⟨fun i v a hv ha => ?_, ?_⟩
  · have hstored : Stored v.1 q.shared := (hguarded i _ ha).finished KeepsStored.refl v hv
    obtain ⟨r, hr⟩ := Option.isSome_iff_exists.mp hstored
    exact countP_dedupKey hr
  · exact Lock.finished_or_step (Lock.held_run run (deliveryPool_held hstart))

end Runs

section Sample

/-- A key of 64 equal digits. -/
def sampleKeyOf (digit : Char) : Text := (List.replicate 64 digit)

/-- A post to the room `a` as it is decrypted from a raw packet. -/
def postPacket (packetId : Nat) (signer : Char) : DecryptedIngest where
  packetId := packetId
  decrypted :=
    { timestamp := 1700000000, flags := 8, message := "hello".toList, destHash := "dd".toList,
      srcHash := "aa".toList, signedSenderPrefix := some ((List.replicate 8 signer)) }
  theirPublicKey := sampleKeyOf 'a'
  path := some "11".toList
  now := 1700000001

/-- The same post as an event of the radio library. -/
def postEvent (signer : Char) : ContactMessageEvent where
  txtType := 2
  publicKey := some (sampleKeyOf 'a')
  text := "hello".toList
  senderTimestamp := some 1700000000
  signature := some ((List.replicate 8 signer))
  now := 1700000002

/-- The post of an author. -/
def postBy (author : Char) : IncomingMessage :=
  ⟨sampleKeyOf 'a', sampleKeyOf author, "hello".toList, 1700000000⟩

/-- A room and two authors, and the rows of two raw packets that were just received. -/
def sampleRoom : App where
  messages := .empty
  rawPackets :=
    (RawPacketRepository.create id (RawPacketRepository.create id .empty [1] 0).2 [2] 0).2
  contacts :=
    { rows :=
        [{ publicKey := sampleKeyOf 'a', type := contactTypeRoom },
         { publicKey := sampleKeyOf 'b', type := 1 }, { publicKey := sampleKeyOf 'c', type := 1 }]
      nodup := by decide }

/-- The post of each author as a packet, and the second one also as an event. -/
def twinPosts : List (IncomingMessage × Delivery) :=
  [(postBy 'b', .packet (postPacket 1 'b')), (postBy 'c', .packet (postPacket 2 'c')),
   (postBy 'c', .event (postEvent 'c'))]

instance (m : IncomingMessage) (s : App) : Decidable (Stored m s) := by
  unfold Stored
  infer_instance

instance (t : MessageTable) (m : IncomingMessage) : Decidable (Masked t m) := by
  unfold Masked
  infer_instance

/-- The call looks a message up by its content. -/
def Op.looksUpContent : Op → Bool
  | .getByContent .. => true
  | _ => false

/-- The key for which the call claims prefix messages. -/
def Op.claimedKey : Op → Option Text
  | .claimPrefixMessages fullKey => some fullKey
  | _ => none

theorem undisturbed_iff {m : IncomingMessage} {op : Op} {s : App} :
    ((op.looksUpContent = true → ¬ Masked s.messages m) ∧
      ∀ k ∈ op.claimedKey, ¬ ClaimCollides s.contacts s.messages (lower k)) ↔
      Undisturbed m op s := by
  cases op <;> simp [Op.looksUpContent, Op.claimedKey, Undisturbed]

instance (m : IncomingMessage) (op : Op) (s : App) : Decidable (Undisturbed m op s) :=
  decidable_of_iff _ undisturbed_iff

instance (vs : List (IncomingMessage × Delivery)) (i : Nat) (op : Op) (s : App) :
    Decidable (undisturbed vs i op s) := by
  unfold undisturbed
  infer_instance

instance (vs : List (IncomingMessage × Delivery)) : Decidable (PacketsAgree vs) := by
  unfold PacketsAgree
  infer_instance

theorem twinPosts_deliverable : Deliverable twinPosts sampleRoom where
  delivered := by decide +kernel
  agree := by decide +kernel
  linked := by decide +kernel
  unlocked := rfl

/-- The threads that move, in turn; the event looks its post up after the packet stored it. -/
def twinSchedule : List (Nat × Choice) :=
  ([0, 1, 0, 1, 0, 1, 0, 1] ++ List.replicate 7 0 ++ List.replicate 4 2 ++ List.replicate 7 1 ++
    [2]).map fun i => (i, default)

/-- Both posts are kept when the event finds the row of its own packet. -/
theorem deliveries_stored_once_twinPosts :
    ∃ q, Pool.Run (process id) (Pool.onCall (undisturbed twinPosts))
        (deliveryPool twinPosts sampleRoom) q ∧ q.Finished ∧
      ∀ (i : Nat) (v : IncomingMessage × Delivery) (a : Option (Option Nat)),
        twinPosts[i]? = some v → q.threads[i]? = some (.pure a) →
        q.shared.messages.rows.countP (fun r => r.dedupKey = some v.1.key) = 1 := by
  have hexec : (Pool.exec (perform id) (fun i op s => decide (undisturbed twinPosts i op s))
      twinSchedule (deliveryPool twinPosts sampleRoom)).any (fun q => decide q.Finished) = true := by
    decide +kernel
  obtain ⟨q, hrun, hfinished⟩ := Pool.exec_reaches hexec
  have run : Pool.Run (process id) (Pool.onCall (undisturbed twinPosts))
      (deliveryPool twinPosts sampleRoom) q :=
    hrun.mono fun _ _ h op hop => of_decide_eq_true (h op hop)
  exact ⟨q, run, hfinished, (deliveries_stored_once twinPosts_deliverable run).1⟩

/-- The post of one author as a packet, and that of another only as an event. -/
def maskedPosts : List (IncomingMessage × Delivery) :=
  [(postBy 'b', .packet (postPacket 1 'b')), (postBy 'c', .event (postEvent 'c'))]

theorem maskedPosts_deliverable : Deliverable maskedPosts sampleRoom where
  delivered := by decide +kernel
  agree := by decide +kernel
  linked := by decide +kernel
  unlocked := rfl

/-- The event of the second author finds the first author's row and is dropped. -/
theorem masked_post_lost :
    Deliverable maskedPosts sampleRoom ∧
      ∃ q, Pool.Run (process id) Pool.always (deliveryPool maskedPosts sampleRoom) q ∧ q.Finished ∧
        q.shared.messages.rows.countP (fun r => r.dedupKey = some (postBy 'b').key) = 1 ∧
        q.shared.messages.rows.countP (fun r => r.dedupKey = some (postBy 'c').key) = 0 := by
  refine ⟨maskedPosts_deliverable, ?_⟩
  have hexec : (Pool.exec (perform id) (fun _ _ _ => true)
      ((List.replicate 11 0 ++ List.replicate 5 1).map fun i => (i, default))
      (deliveryPool maskedPosts sampleRoom)).any (fun q => decide (q.Finished ∧
        q.shared.messages.rows.countP (fun r => r.dedupKey = some (postBy 'b').key) = 1 ∧
        q.shared.messages.rows.countP (fun r => r.dedupKey = some (postBy 'c').key) = 0)) =
      true := by
    decide +kernel
  obtain ⟨q, hrun, hend⟩ := Pool.exec_reaches hexec
  exact ⟨q, hrun.mono fun _ _ _ => trivial, hend⟩

end Sample

end RemoteTerm
