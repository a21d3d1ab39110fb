import RemoteTerm.Decoder.Region
import RemoteTerm.Services.DmIngest

/-!
# Sending direct messages

`services/message_send.py`: a direct message is given a timestamp that no stored
message with its content has, transmitted under the contact's flood scope,
stored, and transmitted again until it is acknowledged.

## Implementation notes

The command that adds a contact to the radio raises when there is no response,
since the caller reads the type of the answer. The search for a free timestamp
and the retry loop are unrolled a given number of times. Retries run in a task
of their own, which here continues the task of the send.
-/

namespace RemoteTerm

open Library

section FloodScope

/-- `FIRMWARE_VER_UNSCOPED_MODE`. -/
def firmwareVerUnscopedMode : Nat := 12

/-- `firmware_supports_unscoped_mode`. -/
def firmwareSupportsUnscopedMode (firmwareVersion : Option Nat) : Bool :=
  ∃ v ∈ firmwareVersion, firmwareVerUnscopedMode ≤ v

/-- The command that `set_radio_flood_scope` gives the radio. -/
def floodScopeCommand (firmwareVersion : Option Nat) (scope : Text) : RadioCommand :=
  let normalizedScope := normalizeRegionScope (some scope)
  if normalizedScope ≠ [] then .setFloodScope normalizedScope
  else if firmwareSupportsUnscopedMode firmwareVersion then .forceUnscoped
  else .setFloodScope []

/-- `set_radio_flood_scope`. -/
def setRadioFloodScope (firmwareVersion : Option Nat) (scope : Text) : Task RadioReply :=
  await (.radio (floodScopeCommand firmwareVersion scope))

/-- The scope to apply for a send and the standing scope to restore, if they differ. -/
def floodScopeChange (override : Option Text) : Task (Option (Text × Text)) :=
  let (desiredScope, scopeExplicit) := resolveOverrideScope override
  if desiredScope ≠ [] ∨ scopeExplicit then do
    let settings ← await .getSettings
    let baselineScope := normalizeRegionScope (some settings.floodScope)
    pure (if desiredScope ≠ baselineScope then some (desiredScope, baselineScope) else none)
  else pure none

/-- One attempt to restore the standing scope; no answer is taken for success. -/
def tryRestoreFloodScope (firmwareVersion : Option Nat) (baselineScope : Text) :
    Task Program.Attempt := do
  let restored ← setRadioFloodScope firmwareVersion baselineScope
  match restored with
  | .error | .raised => pure .failed
  | _ => pure .done

/-- Restore the standing scope in three attempts; when all fail, report it where the caller
gave a way to. -/
def restoreFloodScope (firmwareVersion : Option Nat) (baselineScope : Text) (reports : Bool) :
    Task Unit := do
  let restored ← Program.retry (tryRestoreFloodScope firmwareVersion baselineScope) 3
  if restored = .failed ∧ reports then await (.reportError .floodScope) else pure ()

/-- The command inside a flood scope; it is not reached when applying the scope failed. -/
def commandInScope (applied : RadioReply) (command : RadioCommand) : Task RadioReply :=
  match applied with
  | .error | .raised => pure .raised
  | _ => await (.radio command)

/-- `temporary_flood_scope` around one radio command. -/
def temporaryFloodScope (firmwareVersion : Option Nat) (override : Option Text)
    (command : RadioCommand) (reports : Bool) : Task RadioReply := do
  let change ← floodScopeChange override
  match change with
  | none => await (.radio command)
  | some (desiredScope, baselineScope) => do
      let applied ← setRadioFloodScope firmwareVersion desiredScope
      let reply ← commandInScope applied command
      restoreFloodScope firmwareVersion baselineScope reports
      pure reply

theorem floodScopeChange_calls {ok : Op → Prop} {override : Option Text}
    (hsettings : ok .getSettings) : (floodScopeChange override).Calls ok := by
  simp only [floodScopeChange]
  split
  · exact Program.Calls.bind (Program.calls_await.mpr hsettings) fun _ => by simp
  · simp

theorem restoreFloodScope_calls {ok : Op → Prop} {firmwareVersion : Option Nat} {reports : Bool}
    {baselineScope : Text} (hset : ok (.radio (floodScopeCommand firmwareVersion baselineScope)))
    (hreport : ∀ r, ok (.reportError r)) :
    (restoreFloodScope firmwareVersion baselineScope reports).Calls ok := by
  refine Program.Calls.bind (Program.Calls.retry ?_ 3) fun restored => ?_
  · exact Program.Calls.bind (Program.calls_await.mpr hset) fun restored => by
      cases restored <;> exact trivial
  · split
    · exact Program.calls_await.mpr (hreport _)
    · exact trivial

theorem temporaryFloodScope_calls {ok : Op → Prop} {firmwareVersion : Option Nat}
    {override : Option Text} {command : RadioCommand} {reports : Bool}
    (hradio : ∀ c, ok (.radio c)) (hsettings : ok .getSettings)
    (hreport : ∀ r, ok (.reportError r)) :
    (temporaryFloodScope firmwareVersion override command reports).Calls ok := by
  refine Program.Calls.bind (floodScopeChange_calls hsettings) fun change => ?_
  cases change with
  | none => exact Program.calls_await.mpr (hradio _)
  | some change =>
      refine Program.Calls.bind (Program.calls_await.mpr (hradio _)) fun applied => ?_
      refine Program.Calls.bind ?_ fun reply =>
        Program.Calls.bind (restoreFloodScope_calls (hradio _) hreport) fun _ => by simp
      unfold commandInScope
      split <;> first | exact trivial | exact Program.calls_await.mpr (hradio _)

end FloodScope

/-- `allocate_outgoing_sender_timestamp`: the first timestamp from the requested one on that is
neither reserved nor stored with this content; `none` when the rounds are used up. -/
def allocateOutgoingSenderTimestamp (key : ReservationKey) : Nat → Int → Task (Option Int)
  | 0, _ => pure none
  | rounds + 1, candidate => do
      let isReserved ← await (.isReserved key candidate)
      if isReserved then allocateOutgoingSenderTimestamp key rounds (candidate + 1)
      else do
        let existing ← await (.getByContent key.msgType key.conversationKey key.text
          (some candidate) none)
        match existing with
        | some _ => allocateOutgoingSenderTimestamp key rounds (candidate + 1)
        | none => do
            let reserved ← await (.reserve key candidate)
            if reserved then pure (some candidate)
            else allocateOutgoingSenderTimestamp key rounds (candidate + 1)

/-- The arguments of `send_direct_message_to_contact`, its clock, the radio's firmware and
whether the caller gave `error_broadcast_fn`. -/
structure DirectSend where
  contact : Contact
  text : Text
  sentAt : Int
  firmwareVersion : Option Nat := none
  reports : Bool := true

namespace DirectSend

/-- The conversation of the message. -/
def conversationKey (d : DirectSend) : Text := lower d.contact.publicKey

/-- The key under which the timestamp of the message is reserved. -/
def reservationKey (d : DirectSend) : ReservationKey := ⟨.priv, d.conversationKey, d.text⟩

end DirectSend

/-- `DM_SEND_MAX_ATTEMPTS`. -/
def dmSendMaxAttempts : Nat := 3

/-- `DEFAULT_DM_ACK_TIMEOUT_MS`. -/
def defaultDmAckTimeoutMs : Int := 10000

/-- `_extract_expected_ack_code`. -/
def extractExpectedAckCode : RadioReply → Option Text
  | .ok expectedAck _ => expectedAck.bind nonEmpty
  | _ => none

/-- `_get_ack_tracking_timeout_ms`. -/
def getAckTrackingTimeoutMs : RadioReply → Int
  | .ok _ (some suggestedTimeout) => max 1 suggestedTimeout
  | _ => defaultDmAckTimeoutMs

/-- `_apply_direct_message_ack_tracking`. -/
def applyDirectMessageAckTracking (result : RadioReply) (messageId : Nat) : Task Nat :=
  match extractExpectedAckCode result with
  | none => pure 0
  | some ackCode => do
      let matchedImmediately ←
        await (.registerAck ackCode messageId (getAckTrackingTimeoutMs result))
      if matchedImmediately then await (.incrementAckCount messageId) else pure 0

/-- What the radio operation of a send gives. -/
inductive Transmission where
  | raised
  | allocating
  | sent (senderTimestamp : Int) (result : RadioReply)

/-- The commands of a send: put the contact on the radio, find a timestamp, transmit. -/
def transmitToContact (d : DirectSend) (rounds : Nat) : Task Transmission := do
  let added ← await (.radio (.addContact d.contact.publicKey))
  match added with
  | .raised | .noResponse => pure .raised
  | _ => do
      let allocated ← allocateOutgoingSenderTimestamp d.reservationKey rounds d.sentAt
      match allocated with
      | none => pure .allocating
      | some senderTimestamp => do
          let result ← temporaryFloodScope d.firmwareVersion d.contact.floodScopeOverride
            (.sendMsg d.contact.publicKey d.text senderTimestamp 0) d.reports
          pure (.sent senderTimestamp result)

/-- The radio operation of `send_direct_message_to_contact`. -/
def transmitDirectMessage (d : DirectSend) (rounds : Nat) : Task Transmission := do
  let grant ← await .acquireRadio
  match grant with
  | .granted => do
      let transmission ← transmitToContact d rounds
      await .releaseRadio
      pure transmission
  | _ => pure .raised

/-- How a send ends: with an exception, in the unrolled search for a timestamp, or with a
stored message and whether retries are scheduled for it. -/
inductive SendResult where
  | raised
  | allocating
  | stored (messageId : Nat) (senderTimestamp : Int) (retries : Bool)
  deriving DecidableEq

/-- Store a message that the radio accepted. -/
def storeTransmitted (d : DirectSend) (senderTimestamp : Int) (result : RadioReply) :
    Task (Option Nat) :=
  match result with
  | .ok .. => createOutgoingDirectMessage d.conversationKey d.text senderTimestamp d.sentAt
  | _ => pure none

/-- `send_direct_message_to_contact`. -/
def sendDirectMessageToContact (d : DirectSend) (rounds : Nat) : Task SendResult := do
  let transmission ← transmitDirectMessage d rounds
  match transmission with
  | .raised => pure .raised
  | .allocating => pure .allocating
  | .sent senderTimestamp result => do
      let message ← storeTransmitted d senderTimestamp result
      await (.releaseReservation d.reservationKey senderTimestamp)
      match message with
      | none => pure .raised
      | some messageId => do
          await (.updateLastContacted d.conversationKey d.sentAt)
          let ackCount ← applyDirectMessageAckTracking result messageId
          pure (.stored messageId senderTimestamp
            (ackCount = 0 ∧ (extractExpectedAckCode result).isSome))

theorem applyDirectMessageAckTracking_calls {ok : Op → Prop} {result : RadioReply}
    {messageId : Nat} (hregister : ∀ code timeout, ok (.registerAck code messageId timeout))
    (hack : ok (.incrementAckCount messageId)) :
    (applyDirectMessageAckTracking result messageId).Calls ok := by
  unfold applyDirectMessageAckTracking
  split
  · simp
  · refine Program.Calls.bind (Program.calls_await.mpr (hregister _ _)) fun matched => ?_
    cases matched with
    | false => simp
    | true => exact Program.calls_await.mpr hack

/-- The calls of the radio operation of a send. -/
def DirectSend.Transmits (d : DirectSend) : Op → Prop
  | .isReserved key _ | .reserve key _ => key = d.reservationKey
  | .getByContent .. | .acquireRadio | .releaseRadio | .radio _ | .getSettings
  | .reportError _ => True
  | _ => False

/-- The calls of a send. -/
def DirectSend.Sends (d : DirectSend) : Op → Prop
  | .createMessage m => m.msgType = .priv ∧ m.outgoing = true ∧
      m.conversationKey = d.conversationKey ∧ m.text = d.text
  | .releaseReservation key _ => key = d.reservationKey
  | .updateLastContacted .. | .incrementAckCount _ | .registerAck .. => True
  | op => d.Transmits op

theorem allocateOutgoingSenderTimestamp_calls {ok : Op → Prop} {key : ReservationKey}
    (hreserved : ∀ timestamp, ok (.isReserved key timestamp))
    (hlookup : ∀ timestamp,
      ok (.getByContent key.msgType key.conversationKey key.text (some timestamp) none))
    (hreserve : ∀ timestamp, ok (.reserve key timestamp)) (rounds : Nat) (candidate : Int) :
    (allocateOutgoingSenderTimestamp key rounds candidate).Calls ok := by
  induction rounds generalizing candidate with
  | zero => exact trivial
  | succ rounds ih =>
      refine Program.Calls.bind (Program.calls_await.mpr (hreserved _)) fun isReserved => ?_
      split
      · exact ih _
      · refine Program.Calls.bind (Program.calls_await.mpr (hlookup _)) fun existing => ?_
        cases existing with
        | some _ => exact ih _
        | none =>
            refine Program.Calls.bind (Program.calls_await.mpr (hreserve _)) fun reserved => ?_
            split
            · exact trivial
            · exact ih _

theorem transmitDirectMessage_calls (d : DirectSend) (rounds : Nat) :
    (transmitDirectMessage d rounds).Calls d.Transmits := by
  have hcontact : (transmitToContact d rounds).Calls d.Transmits := by
    refine Program.Calls.bind (Program.calls_await.mpr trivial) fun added => ?_
    have hallocate : (allocateOutgoingSenderTimestamp d.reservationKey rounds d.sentAt).Calls
        d.Transmits :=
      allocateOutgoingSenderTimestamp_calls (fun _ => rfl) (fun _ => trivial) (fun _ => rfl) rounds
        d.sentAt
    have hgo := hallocate.bind
      (f := fun allocated => match allocated with
        | none => pure Transmission.allocating
        | some senderTimestamp => do
            let result ← temporaryFloodScope d.firmwareVersion d.contact.floodScopeOverride
              (.sendMsg d.contact.publicKey d.text senderTimestamp 0) d.reports
            pure (.sent senderTimestamp result)) fun allocated => by
        cases allocated with
        | none => exact trivial
        | some timestamp =>
            exact Program.Calls.bind
              (temporaryFloodScope_calls (fun _ => trivial) trivial fun _ => trivial)
              fun _ => by simp
    cases added <;> first | exact trivial | exact hgo
  refine Program.Calls.bind (Program.calls_await.mpr trivial) fun grant => ?_
  cases grant with
  | granted =>
      exact Program.Calls.bind hcontact fun _ =>
        Program.Calls.bind (Program.calls_await.mpr trivial) fun _ => by simp
  | busy => exact trivial
  | disconnected => exact trivial

theorem sendDirectMessageToContact_calls (d : DirectSend) (rounds : Nat) :
    (sendDirectMessageToContact d rounds).Calls d.Sends := by
  have htransmit : (transmitDirectMessage d rounds).Calls d.Sends := by
    refine (transmitDirectMessage_calls d rounds).mono fun op hop => ?_
    cases op <;> first | exact hop | exact hop.elim
  refine Program.Calls.bind htransmit fun transmission => ?_
  cases transmission with
  | raised => exact trivial
  | allocating => exact trivial
  | sent timestamp result =>
      refine Program.Calls.bind ?_ fun message => ?_
      · unfold storeTransmitted
        split
        · exact Program.calls_await.mpr ⟨rfl, rfl, rfl, rfl⟩
        · simp
      · refine Program.Calls.bind (Program.calls_await.mpr rfl) fun _ => ?_
        cases message with
        | none => exact trivial
        | some messageId =>
            refine Program.Calls.bind (Program.calls_await.mpr trivial) fun _ => ?_
            exact Program.Calls.bind
              (applyDirectMessageAckTracking_calls (fun _ _ => trivial) trivial) fun _ => by simp

/-- `_is_message_acked`. -/
def isMessageAcked (messageId : Nat) : Task Bool := do
  let stored ← await (.getAckAndPaths messageId)
  pure (0 < stored.1)

/-- The path to the contact is reset before the last attempt; only an exception matters. -/
def resetPathBeforeAttempt (d : DirectSend) (attempt : Nat) : Task RadioReply :=
  if attempt = dmSendMaxAttempts - 1 then await (.radio (.resetPath d.contact.publicKey))
  else pure .noResponse

/-- The commands of a retry. -/
def retransmitToContact (d : DirectSend) (senderTimestamp : Int) (attempt : Nat) :
    Task RadioReply := do
  let added ← await (.radio (.addContact d.contact.publicKey))
  match added with
  | .raised | .noResponse => pure .raised
  | _ => do
      let reset ← resetPathBeforeAttempt d attempt
      match reset with
      | .raised => pure .raised
      | _ =>
          temporaryFloodScope d.firmwareVersion d.contact.floodScopeOverride
            (.sendMsg d.contact.publicKey d.text senderTimestamp attempt) false

/-- The radio operation of one retry; `none` is a `RadioOperationBusyError`. -/
def retransmitDirectMessage (d : DirectSend) (senderTimestamp : Int) (attempt : Nat) :
    Task (Option RadioReply) := do
  let grant ← await .acquireRadio
  match grant with
  | .busy => pure none
  | .disconnected => pure (some .raised)
  | .granted => do
      let result ← retransmitToContact d senderTimestamp attempt
      await .releaseRadio
      pure (some result)

theorem retransmitDirectMessage_calls (d : DirectSend) (senderTimestamp : Int) (attempt : Nat) :
    (retransmitDirectMessage d senderTimestamp attempt).Calls d.Transmits := by
  have hcontact : (retransmitToContact d senderTimestamp attempt).Calls d.Transmits := by
    refine Program.Calls.bind (Program.calls_await.mpr trivial) fun added => ?_
    have hreset : (resetPathBeforeAttempt d attempt).Calls d.Transmits := by
      unfold resetPathBeforeAttempt
      split
      · exact Program.calls_await.mpr trivial
      · exact trivial
    have hgo := hreset.bind (f := fun reset => match reset with
        | .raised => pure .raised
        | _ => temporaryFloodScope d.firmwareVersion d.contact.floodScopeOverride
            (.sendMsg d.contact.publicKey d.text senderTimestamp attempt) false)
      fun reset => by
        cases reset <;>
          first
          | exact trivial
          | exact temporaryFloodScope_calls (fun _ => trivial) trivial fun _ => trivial
    cases added <;> first | exact trivial | exact hgo
  refine Program.Calls.bind (Program.calls_await.mpr trivial) fun grant => ?_
  cases grant with
  | granted =>
      exact Program.Calls.bind hcontact fun _ =>
        Program.Calls.bind (Program.calls_await.mpr trivial) fun _ => by simp
  | busy => exact trivial
  | disconnected => exact trivial

/-- What a retry does with the answer of the radio: whether the loop is done. -/
def settleRetry (result : RadioReply) (messageId : Nat) : Task Bool :=
  match result with
  | .ok .. => do
      let acked ← isMessageAcked messageId
      if acked then pure true
      else do
        let ackCount ← applyDirectMessageAckTracking result messageId
        pure (0 < ackCount)
  | _ => pure false

/-- `_retry_direct_message_until_acked`: a busy radio does not use up an attempt. -/
def retryDirectMessageUntilAcked (d : DirectSend) (messageId : Nat) (senderTimestamp : Int) :
    Nat → Nat → Task Unit
  | 0, _ => pure ()
  | rounds + 1, attempt =>
      if attempt < dmSendMaxAttempts then do
        await .sleep
        let acked ← isMessageAcked messageId
        if acked then pure ()
        else do
          let result ← retransmitDirectMessage d senderTimestamp attempt
          match result with
          | none => retryDirectMessageUntilAcked d messageId senderTimestamp rounds attempt
          | some result => do
              let done ← settleRetry result messageId
              if done then pure ()
              else retryDirectMessageUntilAcked d messageId senderTimestamp rounds (attempt + 1)
      else pure ()

/-- A send, and the retries that it schedules. -/
def sendWithRetries (d : DirectSend) (rounds : Nat) : Task Unit := do
  let result ← sendDirectMessageToContact d rounds
  match result with
  | .stored messageId senderTimestamp true =>
      retryDirectMessageUntilAcked d messageId senderTimestamp rounds 1
  | _ => pure ()

end RemoteTerm
