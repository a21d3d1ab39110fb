import RemoteTerm.Library.Program
import RemoteTerm.Library.Text

/-!
# The fanout manager

`FanoutManager`: dispatches with their handlers, the restart after a timeout,
`reload_config`, `remove_config`, `disable_bots_until_restart` and `get_statuses`.

## Implementation notes

Every table of the manager is keyed by the config id, so the model follows one id:
its module, its lock and its error. An instance is the number of instances started
before it. It runs from the end of its start to the call of its stop. Scopes,
handlers, starts, stops and the config rows are answered by the environment; what
the removals of other ids do lies between two calls of a task.
-/

namespace RemoteTerm

open Library

/-- `_DISPATCH_TIMEOUT_SECONDS`, as it is written in an error. -/
def dispatchTimeoutSeconds : Text := "30.0".toList

/-- The keys of `_MODULE_TYPES`. -/
def moduleTypes : List Text :=
  ["mqtt_private", "mqtt_community", "mqtt_ha", "bot", "webhook", "apprise", "sqs",
    "map_upload"].map String.toList

/-- The handlers a dispatch may call. -/
inductive HandlerName where
  | onMessage
  | onRaw
  | onContact
  | onTelemetry
  | onHealth
  deriving DecidableEq, Repr

/-- The attribute that holds a handler. -/
def HandlerName.text : HandlerName → Text
  | .onMessage => "on_message".toList
  | .onRaw => "on_raw".toList
  | .onContact => "on_contact".toList
  | .onTelemetry => "on_telemetry".toList
  | .onHealth => "on_health".toList

/-- The error of a handler that timed out. -/
def timeoutError (handlerName : HandlerName) : Text :=
  handlerName.text ++ " timed out after ".toList ++ dispatchTimeoutSeconds ++ "s".toList

/-- The error of a restart that failed. -/
def restartError : Text := "Module restart failed after timeout".toList

/-- What is read of a row of `fanout_configs`. -/
structure FanoutConfig where
  name : Text
  type : Text
  enabled : Bool
  deriving DecidableEq, Repr

/-- How a handler ends; an exception carries its detail. -/
inductive HandlerEnd where
  | done
  | timedOut
  | raised (detail : Text)
  | cancelled
  deriving DecidableEq, Repr, Inhabited

/-- How a start ends. -/
inductive StartEnd where
  | started
  | raised (detail : Text)
  deriving DecidableEq, Repr, Inhabited

/-- What a restart finds, and how its stop ends. -/
inductive StopEnd where
  | notActive
  | stopped
  | raised
  deriving DecidableEq, Repr

/-- The calls at which the tasks of one id suspend. -/
inductive FanoutOp where
  | matchingModule
  | runHandler (module : Nat) (handlerName : HandlerName)
  | setModuleError (error : Text)
  | clearModuleError
  | acquireRestartLock
  | releaseRestartLock
  | stopActive (module : Nat)
  | awaitStart
  | restarted (module : Nat)
  | dropModule
  | popModule
  | finishRemoval
  | getConfig
  | beginLoad (config : FanoutConfig)
  | register
  | disableBots

/-- What each call answers. -/
@[reducible] def FanoutOp.Ans : FanoutOp → Type
  | .matchingModule => Option Nat
  | .runHandler _ _ => HandlerEnd
  | .stopActive _ => StopEnd
  | .awaitStart => StartEnd
  | .popModule => Bool
  | .getConfig => Option FanoutConfig
  | .beginLoad _ => Bool
  | .disableBots => Bool
  | _ => Unit

/-- A task of the manager. -/
abbrev FanoutTask (α : Type) := Program FanoutOp FanoutOp.Ans α

/-- Suspend at one call. -/
abbrev onFanout (op : FanoutOp) : FanoutTask op.Ans := Program.await op

/-- The manager's state of one id; `removed` records that a removal has completed and that no load
has begun since. -/
structure FanoutState where
  module : Option Nat := none
  instances : Nat := 0
  running : List Nat := []
  restartLock : Bool := false
  moduleError : Option Text := none
  serverDisablesBots : Bool := false
  botsDisabledUntilRestart : Bool := false
  removed : Bool := false
  deriving DecidableEq

/-- What the environment supplies to one call; the cached type is read by the disabling of bots. -/
structure FanoutChoice where
  scopeMatches : Bool := true
  handled : HandlerEnd := .done
  stopRaises : Bool := false
  started : StartEnd := .started
  config : Option FanoutConfig := none
  cachedType : Option Text := none
  deriving Inhabited

/-- `bots_disabled_effective`. -/
def FanoutState.botsDisabledEffective (s : FanoutState) : Bool :=
  s.serverDisablesBots || s.botsDisabledUntilRestart

/-- `_start_module` gets to the start of an instance. -/
def FanoutState.loadable (s : FanoutState) (config : FanoutConfig) : Bool :=
  !(config.type == "bot".toList && s.botsDisabledEffective) && moduleTypes.contains config.type

/-- An instance is told to stop. -/
def FanoutState.stop (module : Nat) (s : FanoutState) : FanoutState :=
  { s with running := s.running.filter (· ≠ module) }

/-- The last lines of `remove_config`. -/
def FanoutState.finishRemoval (s : FanoutState) : FanoutState :=
  { s with moduleError := none, removed := true }

/-- Perform one call; `none` while the call has to wait for the lock. -/
def performFanout (c : FanoutChoice) :
    (op : FanoutOp) → FanoutState → Option (op.Ans × FanoutState)
  | .matchingModule, s => some (if c.scopeMatches then s.module else none, s)
  | .runHandler _ _, s => some (c.handled, s)
  | .setModuleError error, s => some ((), { s with moduleError := some error })
  | .clearModuleError, s => some ((), { s with moduleError := none })
  | .acquireRestartLock, s =>
      if s.restartLock then none else some ((), { s with restartLock := true })
  | .releaseRestartLock, s => some ((), { s with restartLock := false })
  | .stopActive module, s =>
      if s.module = some module then
        some (if c.stopRaises then .raised else .stopped, s.stop module)
      else some (.notActive, s)
  | .awaitStart, s => some (c.started, s)
  | .restarted module, s => some ((), { s with running := module :: s.running })
  | .dropModule, s => some ((), { s with module := none })
  | .popModule, s =>
      match s.module with
      | none => some (false, s.finishRemoval)
      | some module => some (true, { s.stop module with module := none })
  | .finishRemoval, s => some ((), s.finishRemoval)
  | .getConfig, s => some (c.config, s)
  | .beginLoad config, s =>
      if s.loadable config then some (true, { s with removed := false }) else some (false, s)
  | .register, s =>
      some ((), { s with
        module := some s.instances, instances := s.instances + 1
        running := s.instances :: s.running, moduleError := none })
  | .disableBots, s =>
      if s.serverDisablesBots then some (false, s)
      else
        some (s.module.isSome && c.cachedType == some "bot".toList,
          { s with botsDisabledUntilRestart := true })

/-- The calls of the manager, in any environment. -/
def fanningOut : Program.Semantics FanoutOp FanoutOp.Ans FanoutState :=
  Program.Semantics.ofFunction performFanout

section Tasks

/-- `remove_config`: an exception of the stop is only logged. -/
def removeConfig : FanoutTask Unit := do
  let stopping ← onFanout .popModule
  if stopping then onFanout .finishRemoval else pure ()

/-- `_start_module`. -/
def startModule (config : FanoutConfig) : FanoutTask Unit := do
  let loads ← onFanout (.beginLoad config)
  if loads then do
    let startEnd ← onFanout .awaitStart
    match startEnd with
    | .started => onFanout .register
    | .raised detail => onFanout (.setModuleError detail)
  else pure ()

/-- `reload_config`. -/
def reloadConfig : FanoutTask Unit := do
  onFanout .acquireRestartLock
  removeConfig
  let config ← onFanout .getConfig
  match config with
  | none => pure ()
  | some config => if config.enabled then startModule config else pure ()
  onFanout .releaseRestartLock

/-- The restart of an instance has failed. -/
def restartFailed : FanoutTask Unit := do
  onFanout .dropModule
  onFanout (.setModuleError restartError)

/-- The start of an instance that was stopped. -/
def startAgain (module : Nat) : FanoutTask Unit := do
  let startEnd ← onFanout .awaitStart
  match startEnd with
  | .started => onFanout (.restarted module)
  | .raised _ => restartFailed

/-- `_restart_module`. -/
def restartModule (module : Nat) : FanoutTask Unit := do
  onFanout .acquireRestartLock
  let stopEnd ← onFanout (.stopActive module)
  match stopEnd with
  | .notActive => pure ()
  | .stopped => startAgain module
  | .raised => restartFailed
  onFanout .releaseRestartLock

/-- `_run_handler`. -/
def runHandler (module : Nat) (handlerName : HandlerName) : FanoutTask Unit := do
  let handled ← onFanout (.runHandler module handlerName)
  match handled with
  | .done => onFanout .clearModuleError
  | .timedOut => do
      onFanout (.setModuleError (timeoutError handlerName))
      restartModule module
  | .raised detail => onFanout (.setModuleError detail)
  | .cancelled => pure ()

/-- `_dispatch_matching`. -/
def dispatchMatching (handlerName : HandlerName) : FanoutTask Unit := do
  let module ← onFanout .matchingModule
  match module with
  | none => pure ()
  | some module => runHandler module handlerName

/-- `disable_bots_until_restart`. -/
def disableBotsUntilRestart : FanoutTask Unit := do
  let removes ← onFanout .disableBots
  if removes then removeConfig else pure ()

end Tasks

/-- The tasks of the manager. -/
inductive FanoutWork where
  | dispatch (handlerName : HandlerName)
  | reload
  | remove
  | disableBots
  deriving DecidableEq, Repr

/-- The program of a task. -/
def FanoutWork.task : FanoutWork → FanoutTask Unit
  | .dispatch handlerName => dispatchMatching handlerName
  | .reload => reloadConfig
  | .remove => removeConfig
  | .disableBots => disableBotsUntilRestart

/-- What `load_from_db` leaves: nothing for a config it does not start. -/
def loadFromDb (serverDisablesBots : Bool) : Option StartEnd → FanoutState
  | none => { serverDisablesBots }
  | some .started => { serverDisablesBots, module := some 0, instances := 1, running := [0] }
  | some (.raised detail) => { serverDisablesBots, moduleError := some detail }

/-- Tasks that run at once after the load at the start of the process. -/
def fanoutPool (serverDisablesBots : Bool) (loaded : Option StartEnd) (works : List FanoutWork) :
    Pool FanoutOp FanoutOp.Ans Unit FanoutState :=
  ⟨loadFromDb serverDisablesBots loaded, works.map FanoutWork.task⟩

section Statuses

/-- The status and the last error of an instance. -/
structure ModuleView where
  status : Text
  lastError : Option Text

/-- One entry of the statuses. -/
structure FanoutStatus where
  name : Text
  type : Text
  status : Text
  lastError : Option Text
  deriving DecidableEq

/-- The entry of the id in `get_statuses`, if there is one. -/
def getStatuses (configId : Text) (cached : Option FanoutConfig) (view : Nat → ModuleView)
    (s : FanoutState) : Option FanoutStatus :=
  if (cached.map FanoutConfig.enabled) = some false then none
  else
    let moduleView := s.module.map view
    let lastError := moduleView.bind ModuleView.lastError
    let status := (moduleView.map ModuleView.status).getD "error".toList
    let reported : Text × Option Text :=
      match s.moduleError with
      | some error => ("error".toList, some error)
      | none => if lastError.isSome then ("error".toList, lastError) else (status, lastError)
    if s.module.isNone && reported.2.isNone then none
    else
      some ⟨(cached.map FanoutConfig.name).getD configId,
        (cached.map FanoutConfig.type).getD "unknown".toList, reported.1, reported.2⟩

/-- An id with neither a module nor an error is not listed. -/
theorem getStatuses_eq_none {configId : Text} {cached : Option FanoutConfig}
    {view : Nat → ModuleView} {s : FanoutState} (hmodule : s.module = none)
    (herror : s.moduleError = none) : getStatuses configId cached view s = none := by
  unfold getStatuses
  simp [hmodule, herror]

end Statuses

end RemoteTerm
