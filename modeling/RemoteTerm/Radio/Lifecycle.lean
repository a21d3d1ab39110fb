import RemoteTerm.Library.Program
import RemoteTerm.Decoder.PathUtils

/-!
# Connecting, setting up and disconnecting

`RadioManager.connect`, `RadioManager.disconnect` and `run_post_connect_setup`:
the transport, the two locks and the keys that the setup exports from the radio.

## Implementation notes

A transport is the number of transports created before it. What a disconnect
returns is the number of transports that had been created when it looked at the
one it takes down; the program does not use it. Radio commands of the setup that
touch neither the transport nor the keys are named and answered by the
environment. The runtime state that a disconnect resets is left out.
-/

namespace RemoteTerm

open Library

/-- The holders of the operation lock. -/
inductive LockHolder where
  | disconnect
  | postConnectSetup
  deriving DecidableEq, Repr

/-- The awaits of the setup after the export of the key, in their order. -/
inductive SetupStep where
  | syncRadioTime
  | sendDeviceQuery
  | getTime
  | getAppSettings
  | setRadioFloodScope
  | syncAndOffloadAll
  | sendAdvertisement
  | drainPendingMessages
  | startAutoMessageFetching
  deriving DecidableEq, Repr

/-- How an await ends. -/
inductive Awaited where
  | done
  | raised
  | cancelled
  deriving DecidableEq, Repr, Inhabited

/-- What the operation lock is taken with: the transport, and how many were created. -/
inductive LockGrant where
  | cancelled
  | granted (mc : Option Nat) (connections : Nat)
  deriving DecidableEq, Repr

/-- What the radio answers to the export of its key; an unresponsive radio raises. -/
inductive ExportReply where
  | privateKey (key : Bytes)
  | disabled
  | failed
  | unresponsive
  | raised
  | cancelled
  deriving DecidableEq, Repr, Inhabited

/-- How storing a key ends: a key of a wrong length is refused, a key from which no public key is
derived raises. -/
inductive KeyStored where
  | stored
  | refused
  | raised
  deriving DecidableEq, Repr

/-- The calls at which these tasks suspend; `beginDisconnect` is `clear_keys()` and the look at
the transport. -/
inductive LinkOp where
  | getMeshcore
  | beginDisconnect
  | stopContactReconciliation
  | acquireOperationLock (holder : LockHolder)
  | releaseOperationLock
  | disableAutoReconnect
  | disconnectTransport
  | dropTransport (mc : Nat)
  | acquireSetupLock
  | releaseSetupLock
  | exportPrivateKey
  | setPrivateKey (key : Bytes)
  | setupStep (step : SetupStep)
  | createTransport

/-- What each call answers. -/
@[reducible] def LinkOp.Ans : LinkOp → Type
  | .getMeshcore => Option Nat
  | .beginDisconnect => Option Nat × Nat
  | .stopContactReconciliation => Unit
  | .acquireOperationLock _ => LockGrant
  | .releaseOperationLock => Unit
  | .disableAutoReconnect => Awaited
  | .disconnectTransport => Awaited
  | .dropTransport _ => Unit
  | .acquireSetupLock => Unit
  | .releaseSetupLock => Unit
  | .exportPrivateKey => ExportReply
  | .setPrivateKey _ => KeyStored
  | .setupStep _ => Awaited
  | .createTransport => Awaited

/-- A task of the radio's lifecycle. -/
abbrev LinkTask (α : Type) := Program LinkOp LinkOp.Ans α

/-- Suspend at one call. -/
abbrev onLink (op : LinkOp) : LinkTask op.Ans := Program.await op

/-- The transport, the locks, and the keystore. -/
structure LinkState where
  meshcore : Option Nat := none
  connections : Nat := 0
  operationLock : Bool := false
  setupLock : Bool := false
  privateKey : Option Bytes := none
  publicKey : Option Bytes := none
  deriving DecidableEq

/-- What the environment supplies to one call. -/
structure LinkChoice where
  awaited : Awaited := .done
  cancelled : Bool := false
  exported : ExportReply := .disabled
  deriving Inhabited

/-- `clear_keys`. -/
def clearKeys (s : LinkState) : LinkState := { s with privateKey := none, publicKey := none }

/-- `set_private_key`. -/
def setPrivateKey (derivePublicKey : Bytes → Option Bytes) (key : Bytes) (s : LinkState) :
    KeyStored × LinkState :=
  if key.length ≠ 64 then (.refused, s)
  else
    match derivePublicKey key with
    | some publicKey =>
        (.stored, { s with privateKey := some key, publicKey := some publicKey })
    | none => (.raised, { s with privateKey := some key })

/-- Perform one call; `none` while the call has to wait for a lock. -/
def performLink (derivePublicKey : Bytes → Option Bytes) (c : LinkChoice) :
    (op : LinkOp) → LinkState → Option (op.Ans × LinkState)
  | .getMeshcore, s => some (s.meshcore, s)
  | .beginDisconnect, s => some ((s.meshcore, s.connections), clearKeys s)
  | .stopContactReconciliation, s => some ((), s)
  | .acquireOperationLock _, s =>
      if c.cancelled then some (.cancelled, s)
      else if s.operationLock then none
      else some (.granted s.meshcore s.connections, { s with operationLock := true })
  | .releaseOperationLock, s => some ((), { s with operationLock := false })
  | .disableAutoReconnect, s => some (c.awaited, s)
  | .disconnectTransport, s => some (c.awaited, s)
  | .dropTransport mc, s =>
      some ((), if s.meshcore = some mc then { s with meshcore := none } else s)
  | .acquireSetupLock, s => if s.setupLock then none else some ((), { s with setupLock := true })
  | .releaseSetupLock, s => some ((), { s with setupLock := false })
  | .exportPrivateKey, s => some (c.exported, s)
  | .setPrivateKey key, s => some (setPrivateKey derivePublicKey key s)
  | .setupStep _, s => some (c.awaited, s)
  | .createTransport, s =>
      if c.awaited = .done then
        some (.done, { s with meshcore := some s.connections, connections := s.connections + 1 })
      else some (c.awaited, s)

/-- The calls of the radio's lifecycle, in any environment. -/
def linking (derivePublicKey : Bytes → Option Bytes) :
    Program.Semantics LinkOp LinkOp.Ans LinkState :=
  Program.Semantics.ofFunction (performLink derivePublicKey)

/-- How a task ends; a disconnect that returns has seen so many transports created. -/
inductive LinkResult where
  | returned (connections : Nat)
  | raised
  | finished
  deriving DecidableEq, Repr

section Disconnect

/-- The teardown of a transport under the operation lock. -/
def tearDown (mc : Nat) (connections : Nat) : LinkTask LinkResult := do
  let disabled ← onLink .disableAutoReconnect
  match disabled with
  | .done => do
      let disconnected ← onLink .disconnectTransport
      let disabled ← onLink .disableAutoReconnect
      match disconnected, disabled with
      | .done, .done => do
          onLink (.dropTransport mc)
          onLink .releaseOperationLock
          pure (.returned connections)
      | _, _ => do
          onLink .releaseOperationLock
          pure .raised
  | _ => do
      onLink .releaseOperationLock
      pure .raised

/-- `RadioManager.disconnect`. -/
def disconnect : LinkTask LinkResult := do
  let (mc, connections) ← onLink .beginDisconnect
  match mc with
  | none => pure (.returned connections)
  | some _ => do
      onLink .stopContactReconciliation
      let grant ← onLink (.acquireOperationLock .disconnect)
      match grant with
      | .cancelled => pure .raised
      | .granted none connections => do
          onLink .releaseOperationLock
          pure (.returned connections)
      | .granted (some mc) connections => tearDown mc connections

end Disconnect

section Setup

/-- `export_and_store_private_key`: only some failures leave the function as exceptions. -/
def exportAndStorePrivateKey : LinkTask Awaited := do
  let result ← onLink .exportPrivateKey
  match result with
  | .privateKey key => do
      let answer ← onLink (.setPrivateKey key)
      pure (if answer = .raised then .raised else .done)
  | .disabled | .failed | .raised => pure .done
  | .unresponsive => pure .raised
  | .cancelled => pure .cancelled

/-- The steps whose exceptions the setup only logs. -/
def SetupStep.bestEffort : SetupStep → Bool
  | .sendDeviceQuery | .getTime | .setRadioFloodScope => true
  | _ => false

/-- The steps of a setup; the last but one group is left out when the sync is skipped. -/
def setupSteps (skipPostConnectSync : Bool) : List SetupStep :=
  [.syncRadioTime, .sendDeviceQuery, .getTime, .getAppSettings, .setRadioFloodScope] ++
    (if skipPostConnectSync then []
      else [.syncAndOffloadAll, .sendAdvertisement, .drainPendingMessages]) ++
    [.startAutoMessageFetching]

/-- Run steps until one raises or is cancelled. -/
def runSetupSteps : List SetupStep → LinkTask Unit
  | [] => pure ()
  | step :: rest => do
      let awaited ← onLink (.setupStep step)
      if awaited = .done ∨ (awaited = .raised ∧ step.bestEffort) then runSetupSteps rest
      else pure ()

/-- `_setup_body`. -/
def setupBody (skipPostConnectSync : Bool) : LinkTask Unit := do
  let meshcore ← onLink .getMeshcore
  match meshcore with
  | none => pure ()
  | some _ => do
      let grant ← onLink (.acquireOperationLock .postConnectSetup)
      match grant with
      | .cancelled => pure ()
      | .granted none _ => onLink .releaseOperationLock
      | .granted (some _) _ => do
          let exported ← exportAndStorePrivateKey
          if exported = .done then runSetupSteps (setupSteps skipPostConnectSync) else pure ()
          onLink .releaseOperationLock

/-- `run_post_connect_setup`. -/
def runPostConnectSetup (skipPostConnectSync : Bool) : LinkTask LinkResult := do
  let meshcore ← onLink .getMeshcore
  match meshcore with
  | none => pure .finished
  | some _ => do
      onLink .acquireSetupLock
      setupBody skipPostConnectSync
      onLink .releaseSetupLock
      pure .finished

end Setup

/-- `RadioManager.connect`. -/
def connect : LinkTask LinkResult := do
  let meshcore ← onLink .getMeshcore
  match meshcore with
  | none => do
      let _ ← onLink .createTransport
      pure .finished
  | some _ => do
      let disconnected ← disconnect
      match disconnected with
      | .returned _ => do
          let _ ← onLink .createTransport
          pure .finished
      | _ => pure .raised

/-- The tasks of the radio's lifecycle. -/
inductive LinkWork where
  | connect
  | setup (skipPostConnectSync : Bool)
  | disconnect
  deriving DecidableEq, Repr

/-- The program of a task. -/
def LinkWork.task : LinkWork → LinkTask LinkResult
  | .connect => RemoteTerm.connect
  | .setup skipPostConnectSync => runPostConnectSetup skipPostConnectSync
  | .disconnect => RemoteTerm.disconnect

/-- Tasks that run at once from the start of the process. -/
def linkPool (works : List LinkWork) : Pool LinkOp LinkOp.Ans LinkResult LinkState :=
  ⟨{}, works.map LinkWork.task⟩

end RemoteTerm
