import RemoteTerm.Library.OrderedMap
import RemoteTerm.Send.ChannelScope

/-!
# Channel slots of the radio

The cache of `RadioManager` that remembers which channel each slot of the radio
holds, the radio's slots themselves, and channel sends that plan, load and use
slots one after the other under the radio operation lock.

## Implementation notes

A channel key names its secret by its bytes, as the callers of a send compute
them. The radio's slots change only when a `set_channel` is applied, whatever it
is answered. A reconnection is the reset of the disconnect before it together with
the new connection; it takes the lock, as a disconnect does.
-/

namespace RemoteTerm

open Library

/-- The slot cache, with the settings that decide whether it is used. -/
structure ChannelSlots where
  slotByKey : OrderedMap Text Int := .empty
  keyBySlot : OrderedMap Int Text := .empty
  maxChannels : Int := 40
  forceChannelSlotReconfigure : Bool := false
  connectionInfo : Option Text := none
  connectionType : Text := "serial".toList

namespace ChannelSlots

/-- `reset_channel_send_cache`. -/
def resetChannelSendCache (s : ChannelSlots) : ChannelSlots :=
  { s with slotByKey := .empty, keyBySlot := .empty }

/-- `channel_slot_reuse_enabled`. -/
def channelSlotReuseEnabled (s : ChannelSlots) : Bool :=
  if s.forceChannelSlotReconfigure then false
  else
    match s.connectionInfo.bind nonEmpty with
    | some info => !"TCP:".toList.isPrefixOf info
    | none => s.connectionType != "tcp".toList

/-- `get_channel_send_cache_capacity`. -/
def getChannelSendCacheCapacity (s : ChannelSlots) : Nat := (max 1 s.maxChannels).toNat

/-- The slots of a radio with some capacity. -/
def slotRange (capacity : Nat) : List Int := (List.range capacity).map Int.ofNat

/-- `_find_first_free_channel_slot`. -/
def findFirstFreeChannelSlot (s : ChannelSlots) (capacity : Nat) (preferredSlot : Int) : Int :=
  if preferredSlot < capacity ∧ s.keyBySlot.get? preferredSlot = none then preferredSlot
  else
    ((slotRange capacity).find? fun slot => s.keyBySlot.get? slot = none).getD preferredSlot

/-- `plan_channel_send_slot`: the slot, whether it must be configured, and the key it is taken
from. -/
def planChannelSendSlot (s : ChannelSlots) (channelKey : Text) (preferredSlot : Int) :
    Int × Bool × Option Text :=
  if s.channelSlotReuseEnabled then
    match s.slotByKey.get? (upper channelKey) with
    | some cachedSlot => (cachedSlot, false, none)
    | none =>
        let capacity := s.getChannelSendCacheCapacity
        if s.slotByKey.size < capacity then
          (s.findFirstFreeChannelSlot capacity preferredSlot, true, none)
        else
          match s.slotByKey.entries.head? with
          | some (evictedKey, slot) => (slot, true, some evictedKey)
          | none => (preferredSlot, true, none)
  else (preferredSlot, true, none)

/-- The slots without another one that a key had before. -/
def keyBySlotMoved (s : ChannelSlots) (key : Text) (slot : Int) : OrderedMap Int Text :=
  match s.slotByKey.get? key with
  | some previous => if previous ≠ slot then s.keyBySlot.pop previous else s.keyBySlot
  | none => s.keyBySlot

/-- The keys without the one that is loaded and without another one that has its slot. -/
def slotByKeyDisplaced (s : ChannelSlots) (key : Text) (slot : Int) : OrderedMap Text Int :=
  match (s.keyBySlotMoved key slot).get? slot with
  | some displaced =>
      if displaced ≠ key then (s.slotByKey.pop key).pop displaced else s.slotByKey.pop key
  | none => s.slotByKey.pop key

/-- `note_channel_slot_loaded`. -/
def noteChannelSlotLoaded (s : ChannelSlots) (channelKey : Text) (slot : Int) : ChannelSlots :=
  if s.channelSlotReuseEnabled then
    let normalizedKey := upper channelKey
    { s with
      slotByKey := (s.slotByKeyDisplaced normalizedKey slot).set normalizedKey slot
      keyBySlot := (s.keyBySlotMoved normalizedKey slot).set slot normalizedKey }
  else s

/-- `note_channel_slot_used`. -/
def noteChannelSlotUsed (s : ChannelSlots) (channelKey : Text) : ChannelSlots :=
  if s.channelSlotReuseEnabled then
    let normalizedKey := upper channelKey
    match s.slotByKey.get? normalizedKey with
    | none => s
    | some slot =>
        { s with
          slotByKey := s.slotByKey.moveToEnd normalizedKey
          keyBySlot := s.keyBySlot.set slot normalizedKey }
  else s

/-- `invalidate_cached_channel_slot`. -/
def invalidateCachedChannelSlot (s : ChannelSlots) (channelKey : Text) : ChannelSlots :=
  let normalizedKey := upper channelKey
  match s.slotByKey.get? normalizedKey with
  | none => s
  | some slot =>
      { s with
        slotByKey := s.slotByKey.pop normalizedKey
        keyBySlot :=
          if s.keyBySlot.get? slot = some normalizedKey then s.keyBySlot.pop slot
          else s.keyBySlot }

end ChannelSlots

/-- A channel send whose secret is its key in bytes, as the callers of a send compute it. -/
structure KeyedSend extends ChannelSend where
  keyed : bytesOfHex channelKey = some keyBytes

/-- The calls of a task that works on the radio's slots. -/
inductive SlotOp where
  | acquireOperationLock
  | releaseOperationLock
  | inSend (op : ScopedOp)
  | reconnect (connectionInfo : Text)
  | loadDeviceInfo (maxChannels : Int)

/-- What each call answers; a lock that is not granted ends the task. -/
@[reducible] def SlotOp.Ans : SlotOp → Type
  | .acquireOperationLock => Bool
  | .releaseOperationLock => Unit
  | .inSend op => op.Ans
  | .reconnect _ => Unit
  | .loadDeviceInfo _ => Unit

/-- A task that works on the radio's slots. -/
abbrev SlotTask (α : Type) := Program SlotOp SlotOp.Ans α

/-- Suspend at one call. -/
abbrev onSlots (op : SlotOp) : SlotTask op.Ans := Program.await op

/-- A scoped send as a part of a task. -/
abbrev inScopedSend {α : Type} (p : ScopedTask α) : SlotTask α :=
  p.hoist fun (op : ScopedOp) => (Program.await (SlotOp.inSend op) : SlotTask op.Ans)

/-- The cache, the lock and the radio's slots. `sending` is the key that a slot was planned for
last; `reused` lists the keys whose slot was taken as it is, and `transmitted` the keys whose
message was transmitted, each with the secret in the slot. -/
structure SlotState where
  slots : ChannelSlots
  radio : Int → Option Bytes := fun _ => none
  operationLock : Bool := false
  sending : Text := []
  reused : List (Text × Option Bytes) := []
  transmitted : List (Text × Option Bytes) := []

/-- What the environment supplies to one call; a `set_channel` that is answered otherwise than `OK`
may be applied. -/
structure SlotChoice where
  granted : Bool := true
  reply : CommandReply := .ok
  applied : Bool := false
  settings : AppSettings := {}

/-- A command of a send, answered by the radio. -/
def commandRadio (c : SlotChoice) (command : RadioCommand) (s : SlotState) : SlotState :=
  match command with
  | .setChannel slot _ secret =>
      if c.reply = .ok ∨ c.applied then
        { s with radio := Function.update s.radio slot (some secret) }
      else s
  | .sendChanMsg slot _ _ =>
      { s with transmitted := s.transmitted ++ [(s.sending, s.radio slot)] }
  | _ => s

/-- Plan the slot of a send. -/
def planSlot (channelKey : Text) (preferredSlot : Int) (s : SlotState) :
    (Int × Bool × Option Text) × SlotState :=
  let plan := s.slots.planChannelSendSlot channelKey preferredSlot
  (plan, { s with
    sending := channelKey
    reused := if plan.2.1 then s.reused else s.reused ++ [(channelKey, s.radio plan.1)] })

/-- Perform one call of a scoped send. -/
def performScoped (c : SlotChoice) : (op : ScopedOp) → SlotState → op.Ans × SlotState
  | .getSettings, s => (c.settings, s)
  | .command command, s => (c.reply, commandRadio c command s)
  | .planChannelSendSlot channelKey preferredSlot, s => planSlot channelKey preferredSlot s
  | .noteChannelSlotLoaded channelKey slot, s =>
      ((), { s with slots := s.slots.noteChannelSlotLoaded channelKey slot })
  | .noteChannelSlotUsed channelKey, s =>
      ((), { s with slots := s.slots.noteChannelSlotUsed channelKey })
  | .invalidateCachedChannelSlot channelKey, s =>
      ((), { s with slots := s.slots.invalidateCachedChannelSlot channelKey })
  | .rememberPathHashMode _, s => ((), s)
  | .reportError _, s => ((), s)

/-- Perform one call; `none` while the call has to wait for the lock. -/
def performSlots (c : SlotChoice) : (op : SlotOp) → SlotState → Option (op.Ans × SlotState)
  | .acquireOperationLock, s =>
      if ¬ c.granted then some (false, s)
      else if s.operationLock then none
      else some (true, { s with operationLock := true })
  | .releaseOperationLock, s => some ((), { s with operationLock := false })
  | .inSend op, s => some (performScoped c op s)
  | .reconnect connectionInfo, s =>
      some ((), { s with
        slots := { s.slots.resetChannelSendCache with
          maxChannels := 40, connectionInfo := some connectionInfo } })
  | .loadDeviceInfo maxChannels, s =>
      some ((), { s with slots := { s.slots with maxChannels } })

/-- The calls of these tasks, in any environment. -/
def slotting : Program.Semantics SlotOp SlotOp.Ans SlotState :=
  Program.Semantics.ofFunction performSlots

/-- A task under the radio operation lock. -/
def underOperationLock {α : Type} (body : SlotTask α) : SlotTask Unit := do
  let granted ← onSlots .acquireOperationLock
  if granted then do
    let _ ← body
    onSlots .releaseOperationLock
  else pure ()

/-- The tasks that work on the radio's slots: a channel send, a reconnection, and what a setup
learns of the device. -/
inductive SlotWork where
  | send (m : ManagerView) (c : KeyedSend) (timestampBytes : Bytes)
  | reconnect (connectionInfo : Text)
  | loadDeviceInfo (maxChannels : Int)

/-- The program of a task. -/
def SlotWork.task : SlotWork → SlotTask Unit
  | .send m c timestampBytes =>
      underOperationLock
        (inScopedSend (sendChannelMessageWithEffectiveScope m c.toChannelSend timestampBytes))
  | .reconnect connectionInfo => underOperationLock (onSlots (.reconnect connectionInfo))
  | .loadDeviceInfo maxChannels => underOperationLock (onSlots (.loadDeviceInfo maxChannels))

/-- Tasks on a radio whose cache is empty, under any settings and whatever the radio holds. -/
def slotPool (forceChannelSlotReconfigure : Bool) (connectionInfo : Option Text)
    (connectionType : Text) (radio : Int → Option Bytes) (works : List SlotWork) :
    Pool SlotOp SlotOp.Ans Unit SlotState :=
  ⟨{ slots := { forceChannelSlotReconfigure, connectionInfo, connectionType }, radio },
    works.map SlotWork.task⟩

end RemoteTerm
