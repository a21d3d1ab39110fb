import RemoteTerm.Library.Protocol
import RemoteTerm.Packets.Processor
import RemoteTerm.Send.DirectMessage
import RemoteTerm.Services.Frames

/-!
# A direct message is acknowledged at most once

Sends with their retries, and acknowledgements from raw packets, from returned
paths and from library events, run as tasks of one process. An acknowledgement
claims the message of its code and forgets the other codes of that message
before it counts. So a message is counted once, unless a code is registered for
it after one was claimed: a retry reads the counter, which the claim has not
reached yet, and registers the code of its own transmission.
-/

namespace RemoteTerm

open Library

/-- The message whose count a call makes due. -/
def Op.makesDue : (op : Op) → op.Ans → Option Nat
  | .claimAck _, due => due
  | .registerAck _ messageId _, true => some messageId
  | _, _ => none

/-- A thread that owes a count makes it at once, and no other. -/
def ackProtocol : Protocol Op Op.Ans (Option Nat) where
  allowed due op :=
    match due with
    | some messageId => op = .incrementAckCount messageId
    | none => ∀ messageId, op ≠ .incrementAckCount messageId
  after _ op x := op.makesDue x

/-- The task counts every acknowledgement that it makes due, and nothing else. -/
abbrev CountsDue {α : Type} (p : Task α) : Prop :=
  ackProtocol.Follows (fun _ due => due = none) p none

/-- The calls that neither count an acknowledgement nor make one due. -/
def Op.countsNothing (op : Op) : Prop :=
  (∀ messageId, op ≠ .incrementAckCount messageId) ∧ op.writesAcks = false

section Tasks

theorem CountsDue.of_calls {α : Type} {p : Task α} (hp : p.Calls Op.countsNothing) : CountsDue p := by
  refine Protocol.follows_of_calls (fun op hop => ⟨hop.1, fun x => ?_⟩) hp
  obtain ⟨-, hacks⟩ := hop
  cases op <;> first | rfl | simp [Op.writesAcks] at hacks

theorem CountsDue.bind {α β : Type} {p : Task α} {f : α → Task β} (hp : CountsDue p)
    (hf : ∀ a, CountsDue (f a)) : CountsDue (p >>= f) := by
  apply Protocol.Follows.bind
  refine hp.mono fun a due hdue => ?_
  subst hdue
  exact hf a

theorem applyDmAckCode_countsDue (ackCode : Text) : CountsDue (applyDmAckCode ackCode) := by
  refine ⟨fun _ h => (nomatch h), fun due => ?_⟩
  cases due with
  | none => rfl
  | some messageId => exact ⟨rfl, fun _ => rfl⟩

theorem applyDirectMessageAckTracking_countsDue (result : RadioReply) (messageId : Nat) :
    CountsDue (applyDirectMessageAckTracking result messageId) := by
  unfold applyDirectMessageAckTracking
  split
  · rfl
  · refine ⟨fun _ h => (nomatch h), fun matched => ?_⟩
    cases matched with
    | false => rfl
    | true => exact ⟨rfl, fun _ => rfl⟩

variable (d : DirectSend)

theorem countsDue_of_transmits {α : Type} {p : Task α} (hp : p.Calls d.Transmits) : CountsDue p := by
  refine CountsDue.of_calls (hp.mono fun op hop => ?_)
  cases op <;> first | exact hop.elim | exact ⟨fun _ h => (nomatch h), rfl⟩

theorem await_countsDue {op : Op} (hop : op.countsNothing) : CountsDue (await op) :=
  CountsDue.of_calls (Program.calls_await.mpr hop)

theorem sendDirectMessageToContact_countsDue (rounds : Nat) :
    CountsDue (sendDirectMessageToContact d rounds) := by
  refine (countsDue_of_transmits d (transmitDirectMessage_calls d rounds)).bind fun transmission => ?_
  cases transmission with
  | raised => rfl
  | allocating => rfl
  | sent timestamp result =>
      refine CountsDue.bind ?_ fun message => ?_
      · unfold storeTransmitted
        split
        · exact await_countsDue ⟨fun _ h => (nomatch h), rfl⟩
        · rfl
      · refine (await_countsDue (by simp [Op.countsNothing, Op.writesAcks])).bind fun _ => ?_
        cases message with
        | none => rfl
        | some messageId =>
            refine (await_countsDue (by simp [Op.countsNothing, Op.writesAcks])).bind fun _ => ?_
            exact (applyDirectMessageAckTracking_countsDue _ _).bind fun _ => rfl

theorem isMessageAcked_countsDue (messageId : Nat) : CountsDue (isMessageAcked messageId) :=
  (await_countsDue (by simp [Op.countsNothing, Op.writesAcks])).bind fun _ => rfl

theorem settleRetry_countsDue (result : RadioReply) (messageId : Nat) :
    CountsDue (settleRetry result messageId) := by
  unfold settleRetry
  split
  · refine (isMessageAcked_countsDue messageId).bind fun acked => ?_
    cases acked with
    | true => rfl
    | false => exact (applyDirectMessageAckTracking_countsDue _ _).bind fun _ => rfl
  · rfl

/-- Any number of retries counts what it makes due. -/
theorem retryDirectMessageUntilAcked_countsDue (messageId : Nat) (senderTimestamp : Int)
    (rounds attempt : Nat) :
    CountsDue (retryDirectMessageUntilAcked d messageId senderTimestamp rounds attempt) := by
  induction rounds generalizing attempt with
  | zero => rfl
  | succ rounds ih =>
      unfold retryDirectMessageUntilAcked
      split
      · refine (await_countsDue (by simp [Op.countsNothing, Op.writesAcks])).bind fun _ => ?_
        refine (isMessageAcked_countsDue messageId).bind fun acked => ?_
        cases acked with
        | true => rfl
        | false =>
            refine (countsDue_of_transmits d (retransmitDirectMessage_calls d _ _)).bind
              fun result => ?_
            cases result with
            | none => exact ih attempt
            | some result =>
                refine (settleRetry_countsDue result messageId).bind fun done => ?_
                cases done with
                | true => rfl
                | false => exact ih (attempt + 1)
      · rfl

theorem sendWithRetries_countsDue (rounds : Nat) : CountsDue (sendWithRetries d rounds) := by
  refine (sendDirectMessageToContact_countsDue d rounds).bind fun result => ?_
  cases result with
  | raised => rfl
  | allocating => rfl
  | stored messageId timestamp retries =>
      cases retries with
      | false => rfl
      | true => exact retryDirectMessageUntilAcked_countsDue d _ _ _ _

theorem processPathPacket_countsDue (env : Pipeline) (r : Reception) (info : PacketInfo) :
    CountsDue (processPathPacket env r info) := by
  unfold processPathPacket
  split
  · split
    · rfl
    · refine (await_countsDue (by simp [Op.countsNothing, Op.writesAcks])).bind fun candidates => ?_
      split
      · rfl
      next contact result _ =>
        refine (await_countsDue (by simp [Op.countsNothing, Op.writesAcks])).bind fun _ => ?_
        refine CountsDue.bind ?_ fun _ =>
          (await_countsDue (by simp [Op.countsNothing, Op.writesAcks])).bind fun _ => rfl
        cases bundledAckCode result with
        | none => rfl
        | some ackCode => exact (applyDmAckCode_countsDue ackCode).bind fun _ => rfl
  · rfl

theorem processAckPacket_countsDue (env : Pipeline) (r : Reception)
    (htype : ∀ info, parsePacket r.rawBytes = some info →
      info.payloadType = .ack ∨ info.payloadType = .path) : CountsDue (processRawPacket env r) := by
  refine (await_countsDue (by simp [Op.countsNothing, Op.writesAcks])).bind fun created => ?_
  split
  next => rfl
  next info hinfo =>
    have hscope : CountsDue (resolveScope env.crypto info) := by
      unfold resolveScope
      split
      · rfl
      · exact (await_countsDue (by simp [Op.countsNothing, Op.writesAcks])).bind fun _ => rfl
    refine hscope.bind fun scope => ?_
    unfold processPayload
    rcases htype info hinfo with hack | hpath
    · simp only [hack]
      split
      · exact (applyDmAckCode_countsDue _).bind fun _ => rfl
      · rfl
    · simp only [hpath]
      exact processPathPacket_countsDue env r info

end Tasks

/-- An ACK event of the radio library: `on_ack`. -/
def onAck (code : Text) : Task Unit :=
  if code = [] then pure ()
  else do
    let _ ← applyDmAckCode code
    pure ()

/-- What may be running: a send with its retries, the reception of a packet, or an ACK event. -/
inductive AckWork where
  | send (d : DirectSend) (rounds : Nat)
  | packet (r : Reception)
  | event (code : Text)

namespace AckWork

/-- The task of a piece of work. -/
def task (env : Pipeline) : AckWork → Task Unit
  | .send d rounds => sendWithRetries d rounds
  | .packet r => processRawPacket env r
  | .event code => onAck code

/-- A received packet is an ACK or a returned path. -/
def BringsAck : AckWork → Prop
  | .packet r => ∀ info, parsePacket r.rawBytes = some info →
      info.payloadType = .ack ∨ info.payloadType = .path
  | _ => True

theorem task_countsDue {env : Pipeline} {w : AckWork} (h : w.BringsAck) :
    CountsDue (w.task env) := by
  cases w with
  | send d rounds => exact sendWithRetries_countsDue d rounds
  | packet r => exact processAckPacket_countsDue env r h
  | event code =>
      change CountsDue (onAck code)
      unfold onAck
      split
      · rfl
      · exact (applyDmAckCode_countsDue code).bind fun _ => rfl

end AckWork

section Invariant

/-- No row of the message has been acknowledged. -/
def Unacked (s : App) (messageId : Nat) : Prop :=
  ∀ r ∈ s.messages.rows, r.id = messageId → r.acked = 0

/-- At most one thread owes a count for a message, which is then neither counted nor expected;
an expected message is not counted; and no direct message is counted twice. -/
structure AckedOnce (s : App) (due : Nat → Option Nat) : Prop where
  unique : ∀ i j m, due i = some m → due j = some m → i = j
  owed : ∀ i m, due i = some m → Unacked s m ∧ ¬ s.acks.Expects m
  expected : ∀ m, s.acks.Expects m → Unacked s m
  once : ∀ r ∈ s.messages.rows, r.type = .priv → r.acked ≤ 1

/-- The message that a call counts an acknowledgement of. -/
def Op.counts : Op → Option Nat
  | .incrementAckCount messageId => some messageId
  | _ => none

/-- The message that a call registers a code for. -/
def Op.registersFor : Op → Option Nat
  | .registerAck _ messageId _ => some messageId
  | _ => none

/-- A code is only registered for a message of which no acknowledgement has been claimed: none
is counted, and no task is about to count one. -/
def RegistersUnclaimed (p : Pool Op Op.Ans Unit App) (i : Nat) : Prop :=
  ∀ m ∈ (p.threads[i]?.bind Program.nextCall).bind Op.registersFor, Unacked p.shared m ∧
    ∀ t ∈ p.threads, t.nextCall.bind Op.counts ≠ some m

instance (s : App) (messageId : Nat) : Decidable (Unacked s messageId) := by
  unfold Unacked
  infer_instance

instance (p : Pool Op Op.Ans Unit App) (i : Nat) : Decidable (RegistersUnclaimed p i) := by
  unfold RegistersUnclaimed
  infer_instance

variable {sha256 : Bytes → Bytes} {op : Op} {s s' : App} {x : op.Ans} {due : Nat → Option Nat}

theorem unacked_step (h : process sha256 op s x s') {m : Nat} (hm : Unacked s m)
    (hop : op.acks m = 0) : Unacked s' m := by
  obtain ⟨f, added, hrows, hkept, hadded⟩ := process_rows h
  intro r hr hid
  rw [hrows, List.mem_append, List.mem_map] at hr
  rcases hr with ⟨r₀, hr₀, rfl⟩ | hr
  · have hid₀ : r₀.id = m := (hkept r₀).id.symm.trans hid
    rw [(hkept r₀).acked, hm r₀ hr₀ hid₀, hid₀, hop]
  · rcases hadded with rfl | ⟨new, id, -, rfl⟩
    · exact absurd hr List.not_mem_nil
    · rw [List.mem_singleton.mp hr]
      rfl

theorem once_step (h : process sha256 op s x s')
    (hs : ∀ r ∈ s.messages.rows, r.type = .priv → r.acked + op.acks r.id ≤ 1) :
    ∀ r ∈ s'.messages.rows, r.type = .priv → r.acked ≤ 1 := by
  obtain ⟨f, added, hrows, hkept, hadded⟩ := process_rows h
  intro r hr htype
  rw [hrows, List.mem_append, List.mem_map] at hr
  rcases hr with ⟨r₀, hr₀, rfl⟩ | hr
  · rw [(hkept r₀).acked]
    exact hs r₀ hr₀ ((hkept r₀).type.symm.trans htype)
  · rcases hadded with rfl | ⟨new, id, -, rfl⟩
    · exact absurd hr List.not_mem_nil
    · rw [List.mem_singleton.mp hr]
      exact Nat.zero_le 1

theorem acks_eq_zero (hop : ∀ m, op ≠ .incrementAckCount m) (m : Nat) : op.acks m = 0 := by
  cases op with
  | incrementAckCount id => exact absurd rfl (hop id)
  | _ => rfl

/-- Counting a due acknowledgement settles it. -/
theorem AckedOnce.count {s s' : App} {i m : Nat} {n : Nat} (hI : AckedOnce s due) (hi : due i = some m)
    (h : process sha256 (.incrementAckCount m) s n s') :
    AckedOnce s' (Function.update due i none) := by
  have hacks : s'.acks = s.acks := process_acks h rfl
  obtain ⟨hunacked, hunexpected⟩ := hI.owed i m hi
  have hothers : ∀ m', m' ≠ m → Unacked s m' → Unacked s' m' := fun m' hne hm' =>
    unacked_step h hm' (if_neg hne)
  have hdue : ∀ j m', Function.update due i none j = some m' → j ≠ i ∧ due j = some m' := by
    intro j m' hj
    by_cases hji : j = i
    · simp [hji] at hj
    · exact ⟨hji, by rwa [Function.update_of_ne hji] at hj⟩
  constructor
  · intro j k m' hj hk
    exact hI.unique j k m' (hdue j m' hj).2 (hdue k m' hk).2
  · intro j m' hj
    obtain ⟨hji, hj⟩ := hdue j m' hj
    have hne : m' ≠ m := by
      rintro rfl
      exact hji (hI.unique j i m' hj hi)
    exact ⟨hothers m' hne (hI.owed j m' hj).1, hacks ▸ (hI.owed j m' hj).2⟩
  · intro m' hm'
    rw [hacks] at hm'
    have hne : m' ≠ m := by
      rintro rfl
      exact hunexpected hm'
    exact hothers m' hne (hI.expected m' hm')
  · refine once_step h fun r hr htype => ?_
    by_cases hid : r.id = m
    · simp [Op.acks, hid, hunacked r hr hid]
    · simp [Op.acks, hid, hI.once r hr htype]

/-- A call that counts nothing, and makes a count due at most for a message that is neither
counted nor owed. -/
theorem AckedOnce.claim {i : Nat} (hI : AckedOnce s due) (hi : due i = none)
    (hop : ∀ m, op ≠ .incrementAckCount m) (h : process sha256 op s x s')
    (hnew : ∀ m ∈ op.makesDue x, Unacked s m ∧ ¬ s'.acks.Expects m ∧ ∀ j, due j ≠ some m)
    (hexpects : ∀ m, s'.acks.Expects m → s.acks.Expects m ∨ Unacked s m ∧ ∀ j, due j ≠ some m) :
    AckedOnce s' (Function.update due i (op.makesDue x)) := by
  have hunacked : ∀ {m}, Unacked s m → Unacked s' m := fun hm =>
    unacked_step h hm (acks_eq_zero hop _)
  have hdue : ∀ j m, Function.update due i (op.makesDue x) j = some m →
      j = i ∧ op.makesDue x = some m ∨ j ≠ i ∧ due j = some m := by
    intro j m hj
    by_cases hji : j = i
    · subst hji
      exact Or.inl ⟨rfl, by simpa using hj⟩
    · exact Or.inr ⟨hji, by rwa [Function.update_of_ne hji] at hj⟩
  constructor
  · intro j k m hj hk
    rcases hdue j m hj with ⟨hji, hmj⟩ | ⟨hji, hj⟩ <;> rcases hdue k m hk with ⟨hki, hmk⟩ | ⟨hki, hk⟩
    · exact hji.trans hki.symm
    · exact absurd hk ((hnew m hmj).2.2 k)
    · exact absurd hj ((hnew m hmk).2.2 j)
    · exact hI.unique j k m hj hk
  · intro j m hj
    rcases hdue j m hj with ⟨-, hm⟩ | ⟨-, hj⟩
    · exact ⟨hunacked (hnew m hm).1, (hnew m hm).2.1⟩
    · refine ⟨hunacked (hI.owed j m hj).1, fun hexp => ?_⟩
      rcases hexpects m hexp with hexp | ⟨-, hfree⟩
      · exact (hI.owed j m hj).2 hexp
      · exact hfree j hj
  · intro m hm
    rcases hexpects m hm with hexp | ⟨hm, -⟩
    · exact hunacked (hI.expected m hexp)
    · exact hunacked hm
  · refine once_step h fun r hr htype => ?_
    rw [acks_eq_zero hop]
    exact hI.once r hr htype

/-- One call of a task, registering only unclaimed messages, keeps the invariant. -/
theorem ackedOnce_step {p : Pool Op Op.Ans Unit App} {i : Nat} {next : op.Ans → Task Unit}
    (hfollow : ackProtocol.Follow (fun _ due => due = none) none p due) (hI : AckedOnce p.shared due)
    (hc : RegistersUnclaimed p i) (hi : p.threads[i]? = some (.call op next))
    (hallowed : ackProtocol.allowed (due i) op) (h : process sha256 op p.shared x s') :
    AckedOnce s' (Function.update due i (op.makesDue x)) := by
  cases hdue : due i with
  | some m =>
      rw [hdue] at hallowed
      obtain rfl : op = .incrementAckCount m := hallowed
      exact hI.count hdue h
  | none =>
      rw [hdue] at hallowed
      have hop : ∀ m, op ≠ .incrementAckCount m := hallowed
      cases op with
      | claimAck code =>
          obtain ⟨c, hc⟩ := h
          obtain ⟨rfl, rfl⟩ := Prod.mk.inj (Option.some.inj hc)
          obtain ⟨hfewer, hclaimed⟩ := AckTracker.claimAck_spec
            (Prod.eta (p.shared.acks.claimAck code c.now)).symm
          refine hI.claim hdue hop ⟨c, hc⟩ (fun m hm => ?_) fun m hm => ?_
          · obtain ⟨hexp, hnot⟩ := hclaimed m hm
            exact ⟨hI.expected m hexp, hnot, fun j hj => (hI.owed j m hj).2 hexp⟩
          · exact Or.inl (hfewer m hm)
      | registerAck code messageId timeout =>
          -- a thread that owes a count for the message would be about to count it
          obtain ⟨hunacked, hfree⟩ := hc messageId (by rw [hi]; rfl)
          have howed : ∀ j, due j ≠ some messageId := by
            intro j hj
            cases ht : p.threads[j]? with
            | none => exact nomatch (hfollow.missing j ht).symm.trans hj
            | some t =>
                have hthread := hj ▸ hfollow.threads j t ht
                cases t with
                | pure a => exact nomatch hthread
                | call op' next' =>
                    obtain rfl : op' = .incrementAckCount messageId := hthread.1
                    exact hfree _ (List.mem_of_getElem? ht) rfl
          obtain ⟨c, hperform⟩ := h
          obtain ⟨hx, hs⟩ := Prod.mk.inj (Option.some.inj hperform)
          obtain ⟨hothers, hnot⟩ := AckTracker.registerAck_spec
            (Prod.eta (p.shared.acks.registerAck code messageId timeout c.now)).symm
          refine hI.claim hdue hop ⟨c, hperform⟩ (fun m hm => ?_) fun m hm => ?_
          · cases x with
            | false => exact nomatch hm
            | true =>
                obtain rfl := Option.some.inj hm
                refine ⟨hunacked, ?_, howed⟩
                rw [← hs]
                exact hnot hx
          · by_cases hm' : m = messageId
            · subst hm'
              exact Or.inr ⟨hunacked, howed⟩
            · rw [← hs] at hm
              exact Or.inl (hothers m hm' hm)
      | _ =>
          refine hI.claim hdue hop h (fun m hm => nomatch hm) fun m hm => ?_
          rw [process_acks h rfl] at hm
          exact Or.inl hm

/-- The work as the tasks of one process. -/
def ackPool (env : Pipeline) (ws : List AckWork) (s : App) : Pool Op Op.Ans Unit App :=
  ⟨s, ws.map (AckWork.task env)⟩

/-- In a run that only registers codes for messages of which no acknowledgement has been
claimed, no direct message is acknowledged twice. -/
theorem acked_at_most_once {env : Pipeline} {ws : List AckWork} {s : App}
    {q : Pool Op Op.Ans Unit App} (hws : ∀ w ∈ ws, w.BringsAck)
    (honce : ∀ r ∈ s.messages.rows, r.type = .priv → r.acked ≤ 1)
    (hexpected : ∀ m, s.acks.Expects m → Unacked s m)
    (run : Pool.Run (process sha256) RegistersUnclaimed (ackPool env ws s) q) :
    ∀ r ∈ q.shared.messages.rows, r.type = .priv → r.acked ≤ 1 := by
  have hfollow : ackProtocol.Follow (fun _ due => due = none) none (ackPool env ws s)
      fun _ => none := by
    apply Protocol.follow_idle
    intro t ht
    obtain ⟨w, hw, rfl⟩ := List.mem_map.mp ht
    exact AckWork.task_countsDue (hws w hw)
  have hstart : AckedOnce s fun _ => none :=
    ⟨fun _ _ _ h => (nomatch h), fun _ _ h => (nomatch h), hexpected, honce⟩
  obtain ⟨due, -, hend⟩ := hfollow.run run
    (fun hf hI hc hi hallowed hx => ackedOnce_step hf hI hc hi hallowed hx) hstart
  exact hend.once

end Invariant

section Sample

/-- A reply of the radio that expects an acknowledgement. -/
def expecting (code : String) : Choice := { reply := .ok (some code.toList) (some 4000) }

def ackContact : Contact :=
  { publicKey := List.replicate 64 'a', type := 1 }

def ackSend : DirectSend := { contact := ackContact, text := "hello".toList, sentAt := 1700000000 }

def ackPipeline : Pipeline where
  crypto :=
    { sha256 := id, hmacSha256 := fun _ _ => [], aesEcbDecrypt := fun _ _ => none,
      deriveSharedSecret := fun _ _ => none, derivePublicKey := id }
  privateKey := none

/-- A send, and events for the codes of its first transmission and of its first retry. -/
def retriedSend : Pool Op Op.Ans Unit App :=
  ackPool ackPipeline [.send ackSend 3, .event "00000001".toList, .event "00000002".toList] .empty

/-- The acknowledgement is counted before the first retry, which then stops. -/
def acknowledgedSchedule : List (Nat × Choice) :=
  List.replicate 11 (0, expecting "00000001") ++
    [1, 1, 2, 0, 0].map fun i => (i, expecting "00000002")

theorem acked_at_most_once_acknowledged :
    ∃ q, Pool.Run (process id) RegistersUnclaimed retriedSend q ∧ q.Finished ∧
      ∀ r ∈ q.shared.messages.rows, r.type = .priv → r.acked ≤ 1 := by
  have hexec : (Pool.execIf (perform id) (fun p i => decide (RegistersUnclaimed p i))
      acknowledgedSchedule retriedSend).any (fun q => decide q.Finished) = true := by
    decide +kernel
  obtain ⟨q, hrun, hfinished⟩ := Pool.execIf_reaches hexec
  have run : Pool.Run (process id) RegistersUnclaimed retriedSend q :=
    hrun.mono fun _ _ h => of_decide_eq_true h
  refine ⟨q, run, hfinished, acked_at_most_once ?_ ?_ ?_ run⟩
  · intro w hw
    simp only [List.mem_cons, List.not_mem_nil, or_false] at hw
    rcases hw with rfl | rfl | rfl <;> trivial
  · exact fun r hr => absurd hr List.not_mem_nil
  · rintro m ⟨code, p, hp, -⟩
    exact nomatch hp

/-- The first acknowledgement is claimed while the retry waits for the radio, and counted after
the retry has read the counter. -/
def countedTwiceSchedule : List (Nat × Choice) :=
  List.replicate 11 (0, expecting "00000001") ++
    [0, 0, 0, 0, 0, 0, 1, 0, 0, 1, 2, 2].map fun i => (i, expecting "00000002")

/-- The code of the retry is registered for an acknowledged message, and counted as well. -/
theorem acked_twice :
    ∃ q, Pool.Run (process id) Pool.always retriedSend q ∧
      ∃ r ∈ q.shared.messages.rows, r.type = .priv ∧ r.outgoing = true ∧ r.acked = 2 := by
  have hexec : (Pool.exec (perform id) (fun _ _ _ => true) countedTwiceSchedule retriedSend).any
      (fun q => decide (∃ r ∈ q.shared.messages.rows,
        r.type = .priv ∧ r.outgoing = true ∧ r.acked = 2)) = true := by
    decide +kernel
  obtain ⟨q, hrun, hacked⟩ := Pool.exec_reaches hexec
  exact ⟨q, hrun.mono fun _ _ _ => trivial, hacked⟩

end Sample

end RemoteTerm
