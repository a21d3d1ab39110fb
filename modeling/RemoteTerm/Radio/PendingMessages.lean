import Mathlib
import RemoteTerm.Packets.ChannelEcho
import RemoteTerm.Services.KeptRows

/-!
# Messages taken from the radio's queue

`get_msg` takes a message out of the radio, and from then on only the server has
it. Two loops take messages: the drain of pending messages and the fetch of a
command's reply. Each passes what it takes to a storing step, which runs the
handler of the message among the other tasks of the process.

## Implementation notes

A loop reads from a list, one entry for each `get_msg`: the result, with the run of
the handler if it comes to that. A list that ends leaves the loop waiting. A direct
message is also dispatched to the permanent subscriber, which runs the same handler
beside the loop. A cancellation is not an `Exception`, so no handler here catches it.
The state of the reply's subscription is part of an entry.
-/

namespace RemoteTerm

open Library

/-- `channel_idx` of a payload, and what `int` makes of it. -/
inductive ChannelIdx where
  | missing
  | invalid
  | slot (index : Int)
  deriving DecidableEq

/-- The fields of a `CHANNEL_MSG_RECV` payload. -/
structure ChannelPayload where
  channelIdx : ChannelIdx
  text : Text := []
  senderTimestamp : Option Int := none
  path : Option Text := none
  pathLen : Option Int := none
  txtType : Nat := 0

/-- A run of a handler: the clock that it reads, the process before and after it, the answers of
its calls and its end. -/
structure HandlerRun (α : Type) where
  now : Int
  before : App
  answers : List ((op : Op) × op.Ans) := []
  ending : Program.Ending α
  after : App

/-- How a call ends that does not answer. -/
inductive Abort where
  | raised
  | cancelled
  deriving DecidableEq

/-- What awaiting a handler gives. -/
def HandlerRun.outcome {α : Type} (run : HandlerRun α) : Except Abort Unit :=
  match run.ending with
  | .returned _ => .ok ()
  | .raised => .error .raised
  | .cancelled => .error .cancelled

/-- What `get_channel` and the upsert of its answer give. -/
inductive SlotReply where
  | channelInfo (key : Option Text)
  | otherEvent
  | raised
  | upsertRaised
  | cancelled
  deriving DecidableEq

/-- What resolving a slot meets: the radio's reply, the two caches and the read of the channel. -/
structure SlotAnswers where
  slotReply : SlotReply := .otherEvent
  cachedKey : Option Text := none
  pendingKey : Option Text := none
  channelRead : Except Abort Unit := .ok ()

/-- A message that the radio hands over, with the run of its handler; that of a direct message may
have a second run, of the permanent subscriber. -/
inductive QueuedMessage where
  | contact (event : ContactMessageEvent) (stored : HandlerRun (Option (Option Nat)))
      (heard : Option (HandlerRun (Option (Option Nat))))
  | channel (payload : ChannelPayload) (slot : SlotAnswers) (stored : HandlerRun (Option Nat))

/-- What awaiting `get_msg` gives. -/
inductive GetMsgResult where
  | message (m : QueuedMessage)
  | noMoreMsgs
  | error
  | unexpected
  | timeout
  | exception
  | cancelled

section Storing

/-- `_store_pending_direct_message`: an exception of the handler is caught. -/
def storePendingDirectMessage (stored : HandlerRun (Option (Option Nat))) : Except Abort Unit :=
  match stored.outcome with
  | .error .raised => .ok ()
  | outcome => outcome

/-- `_resolve_channel_for_pending_message`. -/
def resolveChannelForPendingMessage (slot : SlotAnswers) : Except Abort (Option Text) :=
  let fromCaches : Except Abort (Option Text) :=
    match slot.cachedKey.or slot.pendingKey with
    | none => .ok none
    | some key => slot.channelRead.map fun _ => some key
  match slot.slotReply with
  | .channelInfo (some key) => .ok (some key)
  | .channelInfo none | .otherEvent | .raised => fromCaches
  | .upsertRaised => .error .raised
  | .cancelled => .error .cancelled

/-- The key that a payload is stored under, with `none` for one that is dropped. -/
def channelOfPayload (payload : ChannelPayload) (slot : SlotAnswers) :
    Except Abort (Option Text) :=
  match payload.channelIdx with
  | .missing | .invalid => .ok none
  | .slot _ => resolveChannelForPendingMessage slot

/-- The arguments that `_store_pending_channel_message` gives to its handler. -/
def fallbackOfPayload (payload : ChannelPayload) (key : Text) (now : Int) :
    FallbackChannelMessage where
  conversationKey := key
  messageText := (splitChannelSenderAndText payload.text).2
  senderTimestamp := payload.senderTimestamp.getD now
  receivedAt := now
  path := payload.path
  pathLen := payload.pathLen
  txtType := payload.txtType
  senderName := (splitChannelSenderAndText payload.text).1

/-- `_store_pending_channel_message`. -/
def storePendingChannelMessage (payload : ChannelPayload) (slot : SlotAnswers)
    (stored : HandlerRun (Option Nat)) : Except Abort Unit := do
  match ← channelOfPayload payload slot with
  | none => pure ()
  | some _ => stored.outcome

/-- The storing step of a message. -/
def storePending : QueuedMessage → Except Abort Unit
  | .contact _ stored _ => storePendingDirectMessage stored
  | .channel payload slot stored => storePendingChannelMessage payload slot stored

end Storing

/-- One round of the drain. -/
structure Pull where
  result : GetMsgResult
  sleepCancelled : Bool := false

/-- How a loop ends. -/
inductive PumpEnd where
  | waiting
  | finished
  | raised
  | cancelled
  deriving DecidableEq

/-- What a loop did: how many results it took, the messages it passed to their storing steps, the
count, the message it returned instead, and its reply. -/
structure PumpRun where
  taken : Nat
  passed : List QueuedMessage := []
  returned : Option QueuedMessage := none
  count : Nat := 0
  reply : Option ContactMessageEvent := none
  ending : PumpEnd

namespace PumpRun

/-- A run after one more result. -/
def took (run : PumpRun) : PumpRun := { run with taken := run.taken + 1 }

/-- A run after one more message. -/
def handled (run : PumpRun) (m : QueuedMessage) (counted : Nat) : PumpRun :=
  { run with
    taken := run.taken + 1
    passed := m :: run.passed
    count := run.count + counted }

/-- The run of a fetch at a message that it stores: it goes on when the storing step went through. -/
def afterStore (next : PumpRun) (m : QueuedMessage) : PumpRun :=
  match storePending m with
  | .ok () => next.handled m 0
  | .error .raised => { taken := 1, passed := [m], ending := .raised }
  | .error .cancelled => { taken := 1, passed := [m], ending := .cancelled }

end PumpRun

/-- `drain_pending_messages`. -/
def drainPendingMessages : List Pull → PumpRun
  | [] => { taken := 0, ending := .waiting }
  | pull :: rest =>
      let afterSleep : PumpRun :=
        if pull.sleepCancelled then { taken := 0, ending := .cancelled }
        else drainPendingMessages rest
      match pull.result with
      | .noMoreMsgs | .error | .timeout | .exception => { taken := 1, ending := .finished }
      | .cancelled => { taken := 1, ending := .cancelled }
      | .unexpected => afterSleep.took
      | .message m =>
          match storePending m with
          | .ok () => afterSleep.handled m 1
          | .error .raised => { taken := 1, passed := [m], ending := .finished }
          | .error .cancelled => { taken := 1, passed := [m], ending := .cancelled }

/-- One round of the fetch: the clock, the reply that the subscription holds at the top of the
loop and after an empty queue. -/
structure Poll extends Pull where
  beforeDeadline : Bool := true
  captured : Option ContactMessageEvent := none
  capturedAfter : Option ContactMessageEvent := none

/-- `fetch_contact_cli_response`. -/
def fetchContactCliResponse (targetPubkeyPrefix : Text) : List Poll → PumpRun
  | [] => { taken := 0, ending := .waiting }
  | poll :: rest =>
      let next := fetchContactCliResponse targetPubkeyPrefix rest
      let afterSleep : PumpRun :=
        if poll.sleepCancelled then { taken := 0, ending := .cancelled } else next
      if poll.beforeDeadline = false then
        { taken := 0, reply := poll.captured, ending := .finished }
      else if poll.captured.isSome then
        { taken := 0, reply := poll.captured, ending := .finished }
      else
        match poll.result with
        | .timeout | .unexpected => next.took
        | .exception | .error => afterSleep.took
        | .cancelled => { taken := 1, ending := .cancelled }
        | .noMoreMsgs =>
            if poll.capturedAfter.isSome then
              { taken := 1, reply := poll.capturedAfter, ending := .finished }
            else afterSleep.took
        | .message (.contact event stored heard) =>
            if event.pubkeyPrefix = targetPubkeyPrefix ∧ event.txtType = 1 then
              { taken := 1, returned := some (.contact event stored heard), reply := some event,
                ending := .finished }
            else next.afterStore (.contact event stored heard)
        | .message (.channel payload slot stored) => next.afterStore (.channel payload slot stored)

end RemoteTerm
