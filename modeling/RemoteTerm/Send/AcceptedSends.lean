import RemoteTerm.Library.Protocol
import RemoteTerm.Send.StoredOnce

/-!
# An accepted message is stored

From the answer of the radio on, a send no longer raises: its row is never
rejected, and whatever other tasks do meanwhile it ends with the timestamp that it
transmitted.
-/

namespace RemoteTerm

open Library Library.Protocol MessageRepository

/-- How far a task is with its message: it has not been accepted, the radio has accepted it with
a timestamp, or its row was rejected. The last stage is that of the tasks that send nothing. -/
inductive SendStage where
  | sending
  | accepted (timestamp : Int)
  | rejected
  | elsewhere

namespace SendStage

/-- A message is transmitted once, and stored as a sent one. -/
def Allows : SendStage → Op → Prop
  | .accepted _, .createMessage m => m.msgType = .priv ∧ m.outgoing = true
  | .accepted _, .radio (.sendMsg ..) => False
  | _, _ => True

/-- The stage after a call and its answer. -/
def after : SendStage → (op : Op) → op.Ans → SendStage
  | .sending, .radio (.sendMsg _ _ timestamp _), .ok .. => .accepted timestamp
  | .accepted _, .createMessage _, none => .rejected
  | l, _, _ => l

end SendStage

/-- The protocol of a send beside other tasks. -/
def sendStages : Protocol Op Op.Ans SendStage := ⟨SendStage.Allows, SendStage.after⟩

/-- The calls that change no stage. -/
def Op.changesNoStage : Op → Bool
  | .createMessage _ | .radio (.sendMsg ..) => false
  | _ => true

section Stages

variable {α : Type} {l : SendStage} {d : DirectSend} {rounds : Nat}

theorem changesNoStage_allowed {op : Op} (hop : op.changesNoStage = true) (l : SendStage) :
    l.Allows op ∧ ∀ x, l.after op x = l := by
  cases op with
  | createMessage m => exact absurd hop Bool.false_ne_true
  | radio command =>
      cases command with
      | sendMsg publicKey text timestamp attempt => exact absurd hop Bool.false_ne_true
      | _ => cases l <;> exact ⟨trivial, fun _ => rfl⟩
  | _ => cases l <;> exact ⟨trivial, fun _ => rfl⟩

theorem follows_of_changesNoStage {p : Task α}
    (hp : p.Calls fun op => op.changesNoStage = true) (l : SendStage) :
    sendStages.Follows (fun _ l' => l' = l) p l :=
  follows_of_calls (fun _ hop => changesNoStage_allowed hop l) hp

/-- Other tasks are in no stage. -/
theorem follows_elsewhere (p : Task α) : sendStages.Follows (fun _ _ => True) p .elsewhere :=
  (follows_of_calls (fun _ _ => ⟨trivial, fun _ => rfl⟩) p.calls_true).mono fun _ _ _ => trivial

/-- A row that was rejected is not looked at again. -/
theorem follows_rejected (p : Task α) :
    sendStages.Follows (fun _ l => l = .rejected) p .rejected :=
  follows_of_calls (fun _ _ => ⟨trivial, fun _ => rfl⟩) p.calls_true

theorem floodScopeCommand_changesNoStage (firmwareVersion : Option Nat) (scope : Text) :
    (Op.radio (floodScopeCommand firmwareVersion scope)).changesNoStage = true := by
  simp only [floodScopeCommand]
  split_ifs <;> rfl

/-- The stage behind the transmission of a message with its answer. -/
def StageOf (timestamp : Int) (reply : RadioReply) (l : SendStage) : Prop :=
  l = .sending ∨ l = .accepted timestamp ∧ ∃ expectedAck suggestedTimeout,
    reply = .ok expectedAck suggestedTimeout

theorem sendMsg_follows (publicKey text : Text) (timestamp : Int) (attempt : Nat) :
    sendStages.Follows (StageOf timestamp) (await (.radio (.sendMsg publicKey text timestamp attempt)))
      .sending := by
  refine ⟨trivial, fun reply => ?_⟩
  cases reply with
  | ok expectedAck suggestedTimeout =>
      exact .inr ⟨rfl, expectedAck, suggestedTimeout, rfl⟩
  | error => exact .inl rfl
  | noResponse => exact .inl rfl
  | raised => exact .inl rfl

theorem temporaryFloodScope_follows {firmwareVersion : Option Nat} {override : Option Text}
    {publicKey text : Text} {timestamp : Int} {attempt : Nat} {reports : Bool} :
    sendStages.Follows (StageOf timestamp)
      (temporaryFloodScope firmwareVersion override (.sendMsg publicKey text timestamp attempt)
        reports) .sending := by
  refine Follows.bind ((follows_of_changesNoStage (floodScopeChange_calls rfl) .sending).mono ?_)
  rintro change _ rfl
  cases change with
  | none => exact sendMsg_follows publicKey text timestamp attempt
  | some change =>
      have hset (scope : Text) :
          (setRadioFloodScope firmwareVersion scope).Calls fun op => op.changesNoStage = true :=
        Program.calls_await.mpr (floodScopeCommand_changesNoStage firmwareVersion scope)
      refine Follows.bind ((follows_of_changesNoStage (hset _) .sending).mono ?_)
      rintro applied _ rfl
      have hcommand : sendStages.Follows (StageOf timestamp)
          (commandInScope applied (.sendMsg publicKey text timestamp attempt)) .sending := by
        unfold commandInScope
        split
        · exact .inl rfl
        · exact .inl rfl
        · exact sendMsg_follows publicKey text timestamp attempt
      refine Follows.bind (hcommand.mono fun reply l hl => ?_)
      -- restoring the scope changes no stage
      have hrestore : (restoreFloodScope firmwareVersion change.2 reports).Calls
          fun op => op.changesNoStage = true :=
        restoreFloodScope_calls (floodScopeCommand_changesNoStage firmwareVersion change.2)
          fun _ => rfl
      refine Follows.bind ((follows_of_changesNoStage hrestore l).mono ?_)
      rintro _ _ rfl
      exact hl

/-- The stage behind the radio operation of a send. -/
def StageOfTransmission : Transmission → SendStage → Prop
  | .sent timestamp reply, l => StageOf timestamp reply l
  | _, l => l = .sending

theorem transmitToContact_followsStage (d : DirectSend) (rounds : Nat) :
    sendStages.Follows StageOfTransmission (transmitToContact d rounds) .sending := by
  refine follows_await_bind.mpr ⟨trivial, fun added => ?_⟩
  have hallocate : (allocateOutgoingSenderTimestamp d.reservationKey rounds d.sentAt).Calls
      fun op => op.changesNoStage = true :=
    allocateOutgoingSenderTimestamp_calls (fun _ => rfl) (fun _ => rfl) (fun _ => rfl) rounds
      d.sentAt
  cases added with
  | raised | noResponse => rfl
  | ok | error =>
      refine Follows.bind ((follows_of_changesNoStage hallocate .sending).mono ?_)
      rintro allocated _ rfl
      cases allocated with
      | none => rfl
      | some timestamp =>
          exact Follows.bind (temporaryFloodScope_follows.mono fun _ _ hl => hl)

theorem transmitDirectMessage_followsStage (d : DirectSend) (rounds : Nat) :
    sendStages.Follows StageOfTransmission (transmitDirectMessage d rounds) .sending := by
  refine follows_await_bind.mpr ⟨trivial, fun grant => ?_⟩
  cases grant with
  | granted =>
      refine Follows.bind ((transmitToContact_followsStage d rounds).mono fun transmission l hl => ?_)
      have hrelease : Op.releaseRadio.changesNoStage = true := rfl
      obtain ⟨hallowed, hafter⟩ := changesNoStage_allowed hrelease l
      refine follows_await_bind.mpr ⟨hallowed, fun x => ?_⟩
      change StageOfTransmission transmission (l.after .releaseRadio x)
      rw [hafter x]
      exact hl
  | busy => rfl
  | disconnected => rfl

/-- A send whose message was accepted ends with the row of the transmitted timestamp. -/
def EndsStored (result : SendResult) (l : SendStage) : Prop :=
  ∀ timestamp, l = .accepted timestamp → ∃ id retries, result = .stored id timestamp retries

/-- Behind an accepted message nothing raises any more. -/
theorem storeAccepted_follows (d : DirectSend) (timestamp : Int) (expectedAck : Option Text)
    (suggestedTimeout : Option Int) :
    sendStages.Follows EndsStored
      (do
        let message ← storeTransmitted d timestamp (.ok expectedAck suggestedTimeout)
        await (.releaseReservation d.reservationKey timestamp)
        match message with
        | none => pure .raised
        | some messageId => do
            await (.updateLastContacted d.conversationKey d.sentAt)
            let ackCount ← applyDirectMessageAckTracking (.ok expectedAck suggestedTimeout) messageId
            pure (.stored messageId timestamp
              (ackCount = 0 ∧ (extractExpectedAckCode (.ok expectedAck suggestedTimeout)).isSome)))
      (.accepted timestamp) := by
  refine follows_await_bind.mpr ⟨⟨rfl, rfl⟩, fun message => ?_⟩
  cases message with
  | none =>
      refine (follows_rejected _).mono fun result l hl timestamp' haccepted => ?_
      cases hl.symm.trans haccepted
  | some messageId =>
      refine follows_await_bind.mpr ⟨trivial, fun _ => ?_⟩
      refine follows_await_bind.mpr ⟨trivial, fun _ => ?_⟩
      have htracking : (applyDirectMessageAckTracking (.ok expectedAck suggestedTimeout)
          messageId).Calls fun op => op.changesNoStage = true :=
        applyDirectMessageAckTracking_calls (fun _ _ => rfl) rfl
      refine Follows.bind ((follows_of_changesNoStage htracking (.accepted timestamp)).mono ?_)
      rintro ackCount _ rfl timestamp' haccepted
      cases haccepted
      exact ⟨messageId, _, rfl⟩

/-- In every stage a send follows the protocol, and an accepted message ends stored. -/
theorem sendDirectMessageToContact_followsStage (d : DirectSend) (rounds : Nat) :
    sendStages.Follows EndsStored (sendDirectMessageToContact d rounds) .sending := by
  refine Follows.bind ((transmitDirectMessage_followsStage d rounds).mono fun transmission l hl => ?_)
  -- a message that was not accepted stays so
  have hsending : ∀ p : Task SendResult, p.Calls (fun op => ∀ publicKey text timestamp attempt,
      op ≠ .radio (.sendMsg publicKey text timestamp attempt)) →
      sendStages.Follows EndsStored p .sending := by
    intro p hp
    refine (follows_of_calls (fun op hop => ⟨trivial, fun x => ?_⟩) hp).mono ?_
    · cases op with
      | radio command =>
          cases command with
          | sendMsg publicKey text timestamp attempt =>
              exact absurd rfl (hop publicKey text timestamp attempt)
          | _ => rfl
      | _ => rfl
    · rintro result _ rfl timestamp haccepted
      cases haccepted
  cases transmission with
  | raised => exact hl ▸ hsending (.pure .raised) trivial
  | allocating => exact hl ▸ hsending (.pure .allocating) trivial
  | sent timestamp result =>
      rcases hl with rfl | ⟨rfl, expectedAck, suggestedTimeout, rfl⟩
      · refine hsending _ (Program.Calls.bind ?_ fun message => ?_)
        · unfold storeTransmitted
          split
          · exact Program.calls_await.mpr fun _ _ _ _ => by simp
          · trivial
        · refine Program.Calls.bind (Program.calls_await.mpr fun _ _ _ _ => by simp) fun _ => ?_
          cases message with
          | none => trivial
          | some messageId =>
              refine Program.Calls.bind (Program.calls_await.mpr fun _ _ _ _ => by simp) fun _ => ?_
              exact Program.Calls.bind (applyDirectMessageAckTracking_calls
                (fun _ _ _ _ _ _ => by simp) fun _ _ _ _ => by simp) fun _ => trivial
      · exact storeAccepted_follows d timestamp expectedAck suggestedTimeout

end Stages

end RemoteTerm
