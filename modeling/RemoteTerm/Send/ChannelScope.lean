import RemoteTerm.Send.DirectMessage

/-!
# Transmitting channel messages

`send_channel_message_with_effective_scope`: a channel message is transmitted
from a radio slot that holds the channel's secret, under a flood scope and a path
hash mode that are set for this send and restored after it.

## Implementation notes

Every command may be cancelled while it is awaited; an exception and a
cancellation differ in the handlers they run. A missing answer to `set_channel`
raises outside the handler of its exceptions, since the answer's type is read
there. The settings are read before anything is changed on the radio, so a
failure there is the failure of a send that never started.
-/

namespace RemoteTerm

open Library

/-- What awaiting a command gives: an event, an `ERROR` event, no event, an exception, or the
cancellation of the task. -/
inductive CommandReply where
  | ok
  | error
  | noResponse
  | raised
  | cancelled
  deriving DecidableEq, Repr, Inhabited

/-- The calls of a scoped send: commands, the slot cache of the radio manager, the path hash
mode it remembers, and reports. -/
inductive ScopedOp where
  | getSettings
  | command (command : RadioCommand)
  | planChannelSendSlot (channelKey : Text) (preferredSlot : Int)
  | noteChannelSlotLoaded (channelKey : Text) (slot : Int)
  | noteChannelSlotUsed (channelKey : Text)
  | invalidateCachedChannelSlot (channelKey : Text)
  | rememberPathHashMode (mode : Int)
  | reportError (report : RestoreReport)

/-- What each call answers; a planned slot comes with whether it must be configured and the
key that it is taken from. -/
@[reducible] def ScopedOp.Ans : ScopedOp → Type
  | .getSettings => AppSettings
  | .command _ => CommandReply
  | .planChannelSendSlot .. => Int × Bool × Option Text
  | .noteChannelSlotLoaded .. => Unit
  | .noteChannelSlotUsed _ => Unit
  | .invalidateCachedChannelSlot _ => Unit
  | .rememberPathHashMode _ => Unit
  | .reportError _ => Unit

/-- A scoped send, or a part of one. -/
abbrev ScopedTask (α : Type) := Program ScopedOp ScopedOp.Ans α

/-- Suspend at one call. -/
abbrev onRadio (op : ScopedOp) : ScopedTask op.Ans := Program.await op

/-- What a scoped send reads of the radio manager. -/
structure ManagerView where
  firmwareVersion : Option Nat := none
  pathHashMode : Int := 0
  pathHashModeSupported : Bool := true

/-- A channel send: the channel with its overrides, the text, the radio's name and key, the
clock, and the scope that the caller asks for. -/
structure ChannelSend where
  channelKey : Text
  channelName : Text := []
  keyBytes : Bytes := []
  floodScopeOverride : Option Text := none
  pathHashModeOverride : Option Int := none
  requestedScope : Option Text := none
  tempRadioSlot : Int := 0
  text : Text
  radioName : Text := []
  publicKey : Option Text := none
  sentAt : Int

/-- How a scoped send ends: with an event of the radio, an exception or a cancellation. -/
inductive ScopedOutcome where
  | event (isError : Bool)
  | raised
  | cancelled
  deriving DecidableEq, Repr, Inhabited

namespace ChannelSend

/-- The desired scope of a send, and whether it is explicit. -/
def desiredScope (c : ChannelSend) : Text × Bool :=
  match c.requestedScope with
  | none => resolveOverrideScope c.floodScopeOverride
  | some scope => (normalizeRegionScope (some scope), true)

/-- The path hash mode to apply, when it is supported and differs from the radio's. -/
def pathHashModeChange (c : ChannelSend) (m : ManagerView) : Option Int :=
  c.pathHashModeOverride.filter fun mode => m.pathHashModeSupported && mode ≠ m.pathHashMode

end ChannelSend

section Slot

/-- Forget the channel that was evicted from a slot. -/
def invalidateEvicted : Option Text → ScopedTask Unit
  | none => pure ()
  | some evictedChannelKey => onRadio (.invalidateCachedChannelSlot evictedChannelKey)

/-- Load the channel into its slot; `none` when the send may go on. -/
def configureSlot (c : ChannelSend) (slot : Int) (evictedChannelKey : Option Text) :
    ScopedTask (Option ScopedOutcome) := do
  let reply ← onRadio (.command (.setChannel slot c.channelName c.keyBytes))
  match reply with
  | .ok => do
      onRadio (.noteChannelSlotLoaded c.channelKey slot)
      pure none
  | .error | .raised => do
      invalidateEvicted evictedChannelKey
      pure (some .raised)
  | .noResponse => pure (some .raised)
  | .cancelled => pure (some .cancelled)

/-- Transmit from a slot and settle its place in the cache. -/
def transmitFromSlot (c : ChannelSend) (slot : Int) (timestampBytes : Bytes) :
    ScopedTask ScopedOutcome := do
  let reply ← onRadio (.command (.sendChanMsg slot c.text timestampBytes))
  match reply with
  | .ok => do
      onRadio (.noteChannelSlotUsed c.channelKey)
      pure (.event false)
  | .error => do
      onRadio (.invalidateCachedChannelSlot c.channelKey)
      pure (.event true)
  | .noResponse | .raised => pure .raised
  | .cancelled => pure .cancelled

/-- The slot of a send, configured when the cache does not know it, and the transmission. -/
def sendFromSlot (c : ChannelSend) (timestampBytes : Bytes) : ScopedTask ScopedOutcome := do
  let (slot, needsConfigure, evictedChannelKey) ←
    onRadio (.planChannelSendSlot c.channelKey c.tempRadioSlot)
  if needsConfigure then do
    let failure ← configureSlot c slot evictedChannelKey
    match failure with
    | some outcome => pure outcome
    | none => transmitFromSlot c slot timestampBytes
  else transmitFromSlot c slot timestampBytes

end Slot

section Overrides

/-- Apply an override; `none` when the send may go on. -/
def applyOverride (command : RadioCommand) : ScopedTask (Option ScopedOutcome) := do
  let reply ← onRadio (.command command)
  match reply with
  | .ok | .noResponse => pure none
  | .error | .raised => pure (some .raised)
  | .cancelled => pure (some .cancelled)

/-- Apply the overrides in turn and transmit; the first that fails ends the send. -/
def applyAndSend (c : ChannelSend) (timestampBytes : Bytes) :
    List RadioCommand → ScopedTask ScopedOutcome
  | [] => sendFromSlot c timestampBytes
  | override :: overrides => do
      let failure ← applyOverride override
      match failure with
      | some outcome => pure outcome
      | none => applyAndSend c timestampBytes overrides

/-- One attempt to restore a setting; no answer is taken for success. -/
def tryRestore (command : RadioCommand) (onRestored : ScopedTask Unit) :
    ScopedTask Program.Attempt := do
  let reply ← onRadio (.command command)
  match reply with
  | .ok | .noResponse => do
      onRestored
      pure .done
  | .error | .raised => pure .failed
  | .cancelled => pure .aborted

/-- A setting to restore: its command, what follows a success, and the report of a failure. -/
structure Restore where
  command : RadioCommand
  onRestored : ScopedTask Unit := pure ()
  report : RestoreReport

/-- Restore the settings in turn, each in three attempts; a cancellation leaves the rest. -/
def restoreAll (outcome : ScopedOutcome) : List Restore → ScopedTask ScopedOutcome
  | [] => pure outcome
  | r :: rest => do
      let restored ← Program.retry (tryRestore r.command r.onRestored) 3
      match restored with
      | .done => restoreAll outcome rest
      | .failed => do
          onRadio (.reportError r.report)
          restoreAll outcome rest
      | .aborted => pure .cancelled

/-- The standing scope to restore and the scope to apply, when the send changes it. -/
def channelScopeChange (c : ChannelSend) : ScopedTask (Option (Text × Text)) :=
  let (desiredScope, scopeExplicit) := c.desiredScope
  if desiredScope ≠ [] ∨ scopeExplicit then do
    let settings ← onRadio .getSettings
    let baselineScope := normalizeRegionScope (some settings.floodScope)
    pure (if desiredScope ≠ baselineScope then some (desiredScope, baselineScope) else none)
  else pure none

/-- `send_channel_message_with_effective_scope`. -/
def sendChannelMessageWithEffectiveScope (m : ManagerView) (c : ChannelSend)
    (timestampBytes : Bytes) : ScopedTask ScopedOutcome := do
  let scopeChange ← channelScopeChange c
  let pathHashModeChange := c.pathHashModeChange m
  let outcome ← applyAndSend c timestampBytes
    ((scopeChange.map fun change => floodScopeCommand m.firmwareVersion change.1).toList ++
      (pathHashModeChange.map RadioCommand.setPathHashMode).toList)
  restoreAll outcome
    ((scopeChange.map fun change =>
        { command := floodScopeCommand m.firmwareVersion change.2
          report := .floodScope : Restore }).toList ++
      (pathHashModeChange.map fun _ =>
        { command := .setPathHashMode m.pathHashMode
          onRestored := onRadio (.rememberPathHashMode m.pathHashMode)
          report := .pathHashMode : Restore }).toList)

end Overrides

end RemoteTerm
