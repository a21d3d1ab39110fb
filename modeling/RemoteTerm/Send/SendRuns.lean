import RemoteTerm.Send.AcceptedSends

/-!
# Runs of a send beside its own packets

One send and any number of received packets run as tasks of one process, one
call at a time. A message that the radio accepts is stored, and there is one row
for it, whatever packets were received before, during and after.
-/

namespace RemoteTerm

open Library Library.Protocol MessageRepository ContactRepository

/-- A send, and a task for each received packet. -/
def sendPool (d : DirectSend) (rounds : Nat) (env : Pipeline) (rs : List Reception) (s : App) :
    Pool Op Op.Ans (Option SendResult) App where
  shared := s
  threads := (do
      let result ← sendDirectMessageToContact d rounds
      pure (some result)) :: rs.map fun r => do
        processRawPacket env r
        pure none

section Turns

theorem sendDirectMessageToContact_leavesLock (d : DirectSend) (rounds : Nat) :
    LeavesLock (sendDirectMessageToContact d rounds) := by
  refine (sendDirectMessageToContact_calls d rounds).mono fun op hop => ?_
  cases op <;> first | rfl | exact hop.elim

theorem processGroupText_leavesLock (env : Pipeline) (r : Reception) (packetId : Nat)
    (packetInfo : Option PacketInfo) (scope : Option Nat × Option Text) :
    LeavesLock (processGroupText env r packetId packetInfo scope) := by
  refine processGroupText_calls.mono fun op hop => ?_
  cases op <;> first | rfl | exact hop.elim

theorem processDirectMessage_takesTurns (env : Pipeline) (r : Reception) (packetId : Nat)
    (packetInfo : PacketInfo) (scope : Option Nat × Option Text) :
    TakesTurns (processDirectMessage env r packetId packetInfo scope) := by
  unfold processDirectMessage
  split
  next =>
    split
    next => rfl
    next =>
      refine TakesTurns.await_bind rfl fun candidates => ?_
      split
      next => rfl
      next contact decrypted _ =>
        have hdirection : ∀ isOutgoing destHash srcHash,
            LeavesLock (resolveDirection isOutgoing destHash srcHash contact decrypted) := by
          intro isOutgoing destHash srcHash
          unfold resolveDirection
          split
          · exact Program.Calls.bind (Program.calls_await.mpr rfl) fun _ => by simp
          · exact trivial
        refine (hdirection _ _ _).takesTurns.bind fun outgoing => ?_
        exact (ingestDecryptedDirectMessage_takesTurns _).bind fun _ => rfl
  next => rfl

theorem processRawPacket_takesTurns (env : Pipeline) (r : Reception) :
    TakesTurns (processRawPacket env r) := by
  refine TakesTurns.await_bind rfl fun created => ?_
  split
  next => rfl
  next packetInfo _ =>
    have hscope : LeavesLock (resolveScope env.crypto packetInfo) := by
      unfold resolveScope
      split
      · exact trivial
      · exact Program.Calls.bind (Program.calls_await.mpr rfl) fun _ => by simp
    refine hscope.takesTurns.bind fun scope => ?_
    unfold processPayload
    split
    · exact (processGroupText_leavesLock _ _ _ _ _).takesTurns
    · exact processDirectMessage_takesTurns _ _ _ _ _
    · split
      · refine TakesTurns.bind (TakesTurns.await_bind rfl fun due => ?_) fun _ => rfl
        cases due with
        | none => rfl
        | some messageId => exact TakesTurns.await_bind rfl fun _ => rfl
      · rfl
    · refine LeavesLock.takesTurns (processPathPacket_calls.mono fun op hop => ?_)
      cases op <;> first | rfl | exact hop.elim
    · rfl

end Turns

section Runs

variable {sha256 : Bytes → Bytes} {d : DirectSend} {rounds : Nat} {env : Pipeline}
  {rs : List Reception} {s : App} {q : Pool Op Op.Ans (Option SendResult) App}

/-- The sent messages with a content are the rows that its lookup matches. -/
theorem count_sentMessages (t : MessageTable) (m : SentMessage) :
    (sentMessages t).count m = t.rows.countP fun r =>
      r.matchesContent .priv m.conversationKey m.text m.senderTimestamp (some true) := by
  rw [sentMessages, List.count_filterMap]
  refine List.countP_congr fun r _ => ?_
  rw [beq_iff_eq, MessageRow.matchesContent_iff, MessageRow.sentMessage]
  constructor
  · intro h
    split at h
    next hsent =>
      obtain rfl := Option.some.inj h
      exact ⟨hsent.1, rfl, rfl, rfl, hsent.2.symm⟩
    next => simp at h
  · rintro ⟨htype, hkey, htext, hts, hout⟩
    have hout' : r.outgoing = true := by simpa using hout.symm
    rw [if_pos ⟨htype, hout'⟩, hkey, htext, hts]

/-- What the threads of a send pool guarantee: the send comes first. -/
theorem sendPool_guarded (hkey : d.conversationKey.length = 64) (hI : SentUnderFullKeys s) :
    ∀ i t, (sendPool d rounds env rs s).threads[i]? = some t →
      Program.Guarded ((process sha256).when fun _ _ => True) SentUnderFullKeys
        (if i = 0 then Quiet else SentGrows) (if i = 0 then SentGrows else Quiet)
        (fun a u => i = 0 → ∃ result, a = some result ∧
          SendSettled d (sentMessages s.messages) rounds result u) t s := by
  intro i t ht
  cases i with
  | zero =>
      obtain rfl := Option.some.inj ht
      simp only [if_true]
      refine Program.Guarded.bind Quiet.refl ?_
      have hsend : Sends sha256 _ _ s := sendDirectMessageToContact_sends hkey rounds hI rfl
      refine hsend.mono fun result u h => ?_
      exact Program.Guarded.pure h.1 fun v _ hq _ => ⟨result, rfl, h.2.quiet hkey hq⟩
  | succ i =>
      obtain ⟨r, -, rfl⟩ : ∃ r, rs[i]? = some r ∧ _ = t := by
        simpa [sendPool, Option.map_eq_some_iff] using ht
      simp only [Nat.succ_ne_zero, if_false]
      refine Program.Guarded.bind SentGrows.refl ?_
      exact (processRawPacket_receives env r hI).mono fun _ _ _ _ _ h => absurd h (by simp)

theorem sendPool_run (hkey : d.conversationKey.length = 64) (hI : SentUnderFullKeys s)
    (run : Pool.Run (process sha256) Pool.always (sendPool d rounds env rs s) q)
    {result : Option SendResult} (hresult : q.threads[0]? = some (.pure result)) :
    ∃ r, result = some r ∧ SendSettled d (sentMessages s.messages) rounds r q.shared := by
  have run' : Pool.Run (process sha256) (Pool.onCall fun _ _ _ => True)
      (sendPool d rounds env rs s) q := run.mono fun _ _ _ _ _ => trivial
  have hA : ∀ {i : Nat} {a b : App}, (if i = 0 then SentGrows else Quiet) a b → SentGrows a b := by
    intro i a b h
    by_cases hi : i = 0
    · simpa [hi] using h
    · exact Quiet.grows (by simpa [hi] using h)
  have hrefl : ∀ (i : Nat) (a : App), (if i = 0 then Quiet else SentGrows) a a := by
    intro i a
    by_cases hi : i = 0
    · simpa [hi] using Quiet.refl a
    · simpa [hi] using SentGrows.refl a
  have htrans : ∀ (i : Nat) {a b c : App}, (if i = 0 then Quiet else SentGrows) a b →
      (if i = 0 then Quiet else SentGrows) b c → (if i = 0 then Quiet else SentGrows) a c := by
    intro i a b c hab hbc
    by_cases hi : i = 0
    · simp only [hi, if_true] at hab hbc ⊢
      exact hab.trans hbc
    · simp only [hi, if_false] at hab hbc ⊢
      exact hab.trans hbc
  -- only the send is relied on to be alone, so two different threads never both send
  have hG : ∀ {i j : Nat} {a b : App}, i ≠ j → (if i = 0 then SentGrows else Quiet) a b →
      (if j = 0 then Quiet else SentGrows) a b := by
    intro i j a b hij h
    by_cases hi : i = 0
    · simpa [hi, Ne.symm (hi ▸ hij)] using h
    · by_cases hj : j = 0
      · simpa [hi, hj] using h
      · simpa [hi, hj] using Quiet.grows (by simpa [hi] using h)
  obtain ⟨-, -, hthreads⟩ := run'.guarded (I := SentUnderFullKeys) (A := SentGrows)
    (R := fun i => if i = 0 then Quiet else SentGrows)
    (G := fun i => if i = 0 then SentGrows else Quiet)
    (Q := fun i a u => i = 0 → ∃ r, a = some r ∧
      SendSettled d (sentMessages s.messages) rounds r u) SentGrows.refl SentGrows.trans hA hrefl
    htrans hG hI (sendPool_guarded hkey hI)
  exact Program.Guarded.finished Quiet.refl (hthreads 0 _ hresult) rfl

/-- The radio accepts the message of a send with a timestamp. -/
def DirectSend.Accepts (d : DirectSend) (timestamp : Int) : (op : Op) → op.Ans → Prop
  | .radio (.sendMsg publicKey text sent _), .ok .. =>
      publicKey = d.contact.publicKey ∧ text = d.text ∧ sent = timestamp
  | _, _ => False

/-- The stage of the send, while its row is not rejected. -/
structure Staged (sending : Bool) (timestamp : Int) (ls : Nat → SendStage) : Prop where
  stored : ∀ i, ls i ≠ .rejected
  stage : ls 0 = .accepted timestamp ∨ sending = true ∧ ls 0 ≠ .elsewhere

/-- The send follows the stages, and the packets are in none. -/
theorem sendPool_follow (d : DirectSend) (rounds : Nat) (env : Pipeline) (rs : List Reception)
    (s : App) : sendStages.Follow (fun a l => ∀ timestamp, l = .accepted timestamp →
      ∃ id retries, a = some (.stored id timestamp retries)) .elsewhere
        (sendPool d rounds env rs s) (Function.update (fun _ => .elsewhere) 0 .sending) := by
  constructor
  · intro i t ht
    cases i with
    | zero =>
        obtain rfl := Option.some.inj ht
        rw [Function.update_self]
        refine Follows.bind ((sendDirectMessageToContact_followsStage d rounds).mono ?_)
        intro result l hends timestamp hl
        obtain ⟨id, retries, rfl⟩ := hends timestamp hl
        exact ⟨id, retries, rfl⟩
    | succ i =>
        rw [Function.update_of_ne (Nat.succ_ne_zero i)]
        refine (follows_of_calls (fun _ _ => ⟨trivial, fun _ => rfl⟩) t.calls_true).mono ?_
        rintro a _ rfl timestamp hl
        cases hl
  · intro i hi
    refine Function.update_of_ne ?_ _ _
    rintro rfl
    cases hi

/-- A step keeps the stage of the send: its row is not rejected, and it transmits once. -/
theorem Staged.step {sending : Bool} {timestamp : Int} {ls : Nat → SendStage} {i : Nat} {op : Op}
    {x : op.Ans} {t t' : App} (h : Staged sending timestamp ls)
    (hallowed : sendStages.allowed (ls i) op) (hx : process sha256 op t x t') :
    Staged sending timestamp (Function.update ls i (sendStages.after (ls i) op x)) := by
  have hafter : sendStages.after (ls i) op x ≠ .rejected := by
    intro hrejected
    change (ls i).after op x = .rejected at hrejected
    unfold SendStage.after at hrejected
    split at hrejected
    next => cases hrejected
    next _ _ m hl =>
      rw [hl] at hallowed
      exact create_sent_ne_none t.messages hallowed.1 hallowed.2 (process_createMessage.mp hx).1.symm
    next => exact h.stored i hrejected
  refine ⟨fun j => ?_, ?_⟩
  · by_cases hj : j = i
    · rw [hj, Function.update_self]
      exact hafter
    · rw [Function.update_of_ne hj]
      exact h.stored j
  · by_cases hi : 0 = i
    · subst hi
      rw [Function.update_self]
      rcases h.stage with haccepted | ⟨hsending, helse⟩
      · rw [haccepted] at hafter hallowed ⊢
        left
        change SendStage.after _ op x ≠ _ at hafter
        change SendStage.after _ op x = _
        unfold SendStage.after at hafter ⊢
        split at hafter
        next hsending => cases hsending
        next => exact absurd rfl hafter
        next => rfl
      · refine .inr ⟨hsending, ?_⟩
        change SendStage.after _ op x ≠ _
        unfold SendStage.after
        split
        · simp
        · simp
        · exact helse
    · rw [Function.update_of_ne hi]
      exact h.stage

/-- A message that the radio accepts ends stored. -/
theorem accepted_stored {timestamp : Int}
    (run : Pool.Answered (process sha256) Pool.always (d.Accepts timestamp) 0
      (sendPool d rounds env rs s) q) {result : Option SendResult}
    (hresult : q.threads[0]? = some (.pure result)) :
    ∃ id retries, result = some (.stored id timestamp retries) := by
  obtain ⟨a, op, next, x, s', hbefore, -, hcall, hx, haccepts, hafter⟩ := run
  obtain ⟨ls, hfollow, hstaged⟩ := Follow.run (I := fun _ ls => Staged true timestamp ls) hbefore
    (fun _ h _ _ hallowed hx => h.step hallowed hx) (sendPool_follow d rounds env rs s)
    ⟨fun i => by
      by_cases hi : i = 0
      · simp [hi]
      · simp [Function.update_of_ne hi], .inr ⟨rfl, by simp⟩⟩
  have hallowed := (hfollow.threads 0 _ hcall).1
  have hnow := hstaged.step hallowed hx
  -- the answer puts the send into the stage of the accepted message
  have haccepted : sendStages.after (ls 0) op x = .accepted timestamp := by
    cases op with
    | radio command =>
        cases command with
        | sendMsg publicKey text sent attempt =>
            cases x with
            | ok expectedAck suggestedTimeout =>
                obtain ⟨-, -, rfl⟩ := haccepts
                cases hl : ls 0 with
                | sending => rfl
                | accepted timestamp' =>
                    rw [hl] at hallowed
                    exact hallowed.elim
                | rejected => exact absurd hl (hstaged.stored 0)
                | elsewhere =>
                    rcases hstaged.stage with hstage | ⟨-, helse⟩
                    · cases hl.symm.trans hstage
                    · exact absurd hl helse
            | _ => exact haccepts.elim
        | _ => exact haccepts.elim
    | _ => exact haccepts.elim
  obtain ⟨ls', hfollow', hstaged'⟩ := Follow.run (I := fun _ ls => Staged false timestamp ls) hafter
    (fun _ h _ _ hallowed hx => h.step hallowed hx) (hfollow.step hcall x s')
    ⟨hnow.stored, .inl (by rw [Function.update_self, haccepted])⟩
  have hstage : ls' 0 = .accepted timestamp :=
    hstaged'.stage.resolve_right fun h => Bool.false_ne_true h.1
  exact hfollow'.threads 0 _ hresult timestamp hstage

/-- In every run of a send beside received packets, a message that the radio accepts is stored
exactly once, under the transmitted timestamp, when the send has ended; a send that returns has
stored its message exactly once, one that raises has stored none, and the run never gets stuck
before the end. A search for a timestamp is no longer than there are reservations and messages. -/
theorem outgoing_stored_once (hkey : d.contact.publicKey.length = 64) (hI : SentUnderFullKeys s)
    (hlock : s.storeLock = false)
    (run : Pool.Run (process sha256) Pool.always (sendPool d rounds env rs s) q) :
    (∀ timestamp result,
      Pool.Answered (process sha256) Pool.always (d.Accepts timestamp) 0
        (sendPool d rounds env rs s) q → q.threads[0]? = some (.pure result) →
        (∃ id retries, result = some (.stored id timestamp retries)) ∧
          q.shared.messages.rows.countP (fun r =>
            r.matchesContent .priv d.conversationKey d.text (some timestamp) (some true)) = 1) ∧
    (∀ id timestamp retries,
      q.threads[0]? = some (.pure (some (.stored id timestamp retries))) →
        q.shared.messages.rows.countP (fun r =>
          r.matchesContent .priv d.conversationKey d.text (some timestamp) (some true)) = 1) ∧
    (q.threads[0]? = some (.pure (some .raised)) →
      sentMessages q.shared.messages = sentMessages s.messages) ∧
    (q.threads[0]? = some (.pure (some .allocating)) →
      rounds ≤ q.shared.reservations.length + q.shared.messages.rows.length) ∧
    (q.Finished ∨ ∃ i r, Pool.Step (process sha256) q i r) := by
  have hlen : d.conversationKey.length = 64 := by
    rw [DirectSend.conversationKey, lower_length, hkey]
  have hone : ∀ id timestamp retries,
      q.threads[0]? = some (.pure (some (.stored id timestamp retries))) →
        q.shared.messages.rows.countP (fun r => r.matchesContent .priv d.conversationKey d.text
          (some timestamp) (some true)) = 1 := by
    intro id timestamp retries hresult
    obtain ⟨r, hr, hsettled⟩ := sendPool_run hlen hI run hresult
    obtain rfl := Option.some.inj hr
    exact (count_sentMessages _ (d.message timestamp)).symm.trans hsettled
  refine ⟨fun timestamp result haccepted hresult => ?_, hone, fun hresult => ?_,
    fun hresult => ?_, ?_⟩
  · obtain ⟨id, retries, rfl⟩ := accepted_stored haccepted hresult
    exact ⟨⟨id, retries, rfl⟩, hone id timestamp retries hresult⟩
  · obtain ⟨r, hr, hsettled⟩ := sendPool_run hlen hI run hresult
    obtain rfl := Option.some.inj hr
    exact hsettled
  · obtain ⟨r, hr, hsettled⟩ := sendPool_run hlen hI run hresult
    obtain rfl := Option.some.inj hr
    exact Tried.le hsettled
  · apply (storeLock sha256).finished_or_step
    refine (storeLock sha256).held_run run ((storeLock sha256).held_of_free hlock ?_)
    intro t ht
    rcases List.mem_cons.mp ht with rfl | ht
    · exact (sendDirectMessageToContact_leavesLock d rounds).takesTurns.bind fun _ => rfl
    · obtain ⟨r, -, rfl⟩ := List.mem_map.mp ht
      exact (processRawPacket_takesTurns env r).bind fun _ => rfl

end Runs

section Sample

/-- A send to a contact whose key starts with the byte of ours. -/
def twinSend : DirectSend where
  contact := twinContact
  text := "hello".toList
  sentAt := 1700000000

/-- The radio accepts every command and expects an acknowledgement of each message. -/
def accepted : Choice := { reply := .ok (some "0badcafe".toList) (some 4000) }

instance (d : DirectSend) (timestamp : Int) (op : Op) (x : op.Ans) :
    Decidable (d.Accepts timestamp op x) := by
  unfold DirectSend.Accepts
  split <;> infer_instance

/-- The echo is received while the send is still transmitting, and stored after it: the calls before
the message is transmitted, and those after the radio has accepted it. -/
def echoBefore : List (Nat × Choice) := (List.replicate 5 0 ++ [1]).map fun i => (i, accepted)

def echoAfter : List (Nat × Choice) :=
  (List.replicate 5 0 ++ List.replicate 10 1).map fun i => (i, accepted)

/-- The accepted message is stored, and the echo adds no second row. -/
theorem outgoing_stored_once_twin :
    ∃ q, Pool.Answered (process twinCrypto.sha256) Pool.always (twinSend.Accepts 1700000000) 0
        (sendPool twinSend 1 twinPipeline [twinReception] twinApp) q ∧ q.Finished ∧
      ∃ id retries, q.threads[0]? = some (.pure (some (.stored id 1700000000 retries))) ∧
        q.shared.messages.rows.countP (fun r => r.matchesContent .priv twinSend.conversationKey
          twinSend.text (some 1700000000) (some true)) = 1 := by
  have hexec : (Pool.execThrough (perform twinCrypto.sha256) (twinSend.Accepts 1700000000)
      echoBefore 0 accepted echoAfter
      (sendPool twinSend 1 twinPipeline [twinReception] twinApp)).any
        (fun q => decide (q.Finished ∧ (q.threads[0]?.bind Program.returned).isSome)) = true := by
    decide +kernel
  obtain ⟨q, haccepted, hfinished, hreturned⟩ := Pool.execThrough_reaches hexec
  obtain ⟨result, hresult⟩ := Option.isSome_iff_exists.mp hreturned
  obtain ⟨t, ht, hresult⟩ := Option.bind_eq_some_iff.mp hresult
  obtain rfl := Program.returned_eq_some_iff.mp hresult
  have hstored := (outgoing_stored_once (by decide +kernel) (fun m hm => by cases hm) rfl
    haccepted.run).1 1700000000 result haccepted ht
  obtain ⟨⟨id, retries, rfl⟩, hone⟩ := hstored
  exact ⟨q, haccepted, hfinished, id, retries, ht, hone⟩

end Sample

end RemoteTerm
