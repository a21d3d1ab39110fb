import Mathlib
import RemoteTerm.Library.Program
import RemoteTerm.Repository.Contacts

/-!
# Toggle requests

The endpoints that switch one entry: telemetry tracking of repeaters and of
other contacts, blocked keys and names, favorites and muted channels. Each is a
program over the database calls it awaits. A call runs alone, since it holds the
database lock; between two calls of one request, those of others may run.

## Implementation notes

A call answers the columns that its caller reads: the tracked list with the
telemetry settings of the schedule, the type and name of a contact, the flag of
a row. The toggles of blocked entries are one call each, because they read and
write in one transaction.
-/

namespace RemoteTerm

open Library

/-- A list column of `app_settings` that a request toggles an entry of. -/
inductive SettingsList where
  | trackedTelemetryRepeaters
  | trackedTelemetryContacts
  | blockedKeys
  | blockedNames
  deriving DecidableEq, Repr

/-- A flag column of `contacts` or `channels`. -/
inductive FlagColumn where
  | contactFavorite
  | channelFavorite
  | channelMuted
  deriving DecidableEq, Repr

/-- The columns of a contact that the toggles read. -/
structure ContactInfo where
  type : Nat
  name : Option Text := none
  deriving DecidableEq

/-- The rows that the toggles read and write. -/
structure SettingsDb where
  lists : SettingsList → List Text
  flags : FlagColumn × Text → Bool
  contacts : Text → Option ContactInfo
  channels : Text → Bool
  telemetryIntervalHours : Int
  telemetryRoutedHourly : Bool

/-- The key under which a row is looked up. -/
def FlagColumn.rowKey : FlagColumn → Text → Text
  | .contactFavorite, id => lower id
  | .channelFavorite, id => upper id
  | .channelMuted, id => upper id

/-- The row with a flag exists. -/
def SettingsDb.hasRow (db : SettingsDb) : FlagColumn → Text → Bool
  | .contactFavorite, id => (db.contacts (lower id)).isSome
  | .channelFavorite, id => db.channels (upper id)
  | .channelMuted, id => db.channels (upper id)

/-- What a toggle of a tracked list reads of the settings. -/
structure TrackedSettings where
  tracked : List Text
  telemetryIntervalHours : Int
  telemetryRoutedHourly : Bool
  deriving DecidableEq

/-- The lists of the settings that a toggle of a blocked entry answers. -/
structure SettingsLists where
  trackedTelemetryRepeaters : List Text
  trackedTelemetryContacts : List Text
  blockedKeys : List Text
  blockedNames : List Text
  deriving DecidableEq

/-- The lists of the settings. -/
def SettingsDb.settingsLists (db : SettingsDb) : SettingsLists where
  trackedTelemetryRepeaters := db.lists .trackedTelemetryRepeaters
  trackedTelemetryContacts := db.lists .trackedTelemetryContacts
  blockedKeys := db.lists .blockedKeys
  blockedNames := db.lists .blockedNames

/-- A database call. -/
inductive ToggleOp where
  | getSettings (l : SettingsList)
  | updateSettings (l : SettingsList) (entries : List Text)
  | toggleEntry (l : SettingsList) (entry : Text)
  | getContact (publicKey : Text)
  | getFlag (column : FlagColumn) (id : Text)
  | setFlag (column : FlagColumn) (id : Text) (value : Bool)

/-- What a call answers. -/
def ToggleOp.Ans : ToggleOp → Type
  | .getSettings _ => TrackedSettings
  | .updateSettings .. => Unit
  | .toggleEntry .. => SettingsLists
  | .getContact _ => Option ContactInfo
  | .getFlag .. => Option Bool
  | .setFlag .. => Unit

/-- The entry out of the list, or at its end. -/
def toggled (entries : List Text) (entry : Text) : List Text :=
  if entry ∈ entries then entries.filter fun e => decide (e ≠ entry) else entries ++ [entry]

namespace SettingsDb

variable (db : SettingsDb)

/-- Write a list. -/
def setList (l : SettingsList) (entries : List Text) : SettingsDb :=
  { db with lists := Function.update db.lists l entries }

/-- Write a flag. -/
def writeFlag (column : FlagColumn) (key : Text) (value : Bool) : SettingsDb :=
  { db with flags := Function.update db.flags (column, key) value }

/-- The answer of a call and the database after it. -/
def process : (op : ToggleOp) → op.Ans × SettingsDb
  | .getSettings l =>
      ((⟨db.lists l, db.telemetryIntervalHours, db.telemetryRoutedHourly⟩ : TrackedSettings), db)
  | .updateSettings l entries => ((), db.setList l entries)
  | .toggleEntry l entry =>
      let db' := db.setList l (toggled (db.lists l) entry)
      (db'.settingsLists, db')
  | .getContact publicKey => (db.contacts (lower publicKey), db)
  | .getFlag column id =>
      ((if db.hasRow column id then some (db.flags (column, column.rowKey id)) else none), db)
  | .setFlag column id value => ((), db.writeFlag column (column.rowKey id) value)

end SettingsDb

/-- What a request answers. -/
inductive ToggleOutcome where
  | tracked (tracked : List Text) (names : List (Text × Text)) (trackedCount : Nat)
      (preferredHours : Int) (routedHourly : Bool)
  | settings (lists : SettingsLists)
  | flag (value : Bool)
  | httpError (status : Nat) (detail : Text)
  | limitReached (message : Text) (tracked : List Text) (names : List (Text × Text))
  deriving DecidableEq

/-- The request was carried out. -/
def ToggleOutcome.succeeded : ToggleOutcome → Bool
  | .tracked .. => true
  | .settings _ => true
  | .flag _ => true
  | .httpError .. => false
  | .limitReached .. => false

/-- A program over database calls. -/
abbrev ToggleTask := Program ToggleOp ToggleOp.Ans

/-- A database call. -/
def callDb (op : ToggleOp) : ToggleTask op.Ans := Program.await op

section Endpoints

/-- `MAX_TRACKED_TELEMETRY_REPEATERS`. -/
def maxTrackedTelemetryRepeaters : Nat := 8

/-- `MAX_TRACKED_TELEMETRY_CONTACTS`. -/
def maxTrackedTelemetryContacts : Nat := 8

/-- The name of a contact, or the first characters of its key. -/
def displayName (key : Text) (contact : Option ContactInfo) : Text :=
  match contact.bind ContactInfo.name with
  | some (c :: name) => c :: name
  | _ => key.take 12

/-- `_resolve_names`. -/
def resolveNames : List Text → ToggleTask (List (Text × Text))
  | [] => pure []
  | key :: keys => do
      let contact ← callDb (.getContact key)
      let names ← resolveNames keys
      pure ((key, displayName key contact) :: names)

/-- Write a tracked list and answer it. -/
def saveTracked (l : SettingsList) (settings : TrackedSettings) (newList : List Text) :
    ToggleTask ToggleOutcome := do
  let _ ← callDb (.updateSettings l newList)
  let names ← resolveNames newList
  pure (.tracked newList names newList.length settings.telemetryIntervalHours
    settings.telemetryRoutedHourly)

/-- Answer that a tracked list is full. -/
def refuseTracked (message : Text) (current : List Text) : ToggleTask ToggleOutcome := do
  let names ← resolveNames current
  pure (.limitReached message current names)

/-- What the toggle of a tracked list checks. -/
structure TrackedChecks where
  list : SettingsList
  accepts : Nat → Bool
  refusal : Text
  limit : Nat
  limitMessage : Text

/-- Add a key that is not tracked yet. -/
def addTracked (c : TrackedChecks) (key : Text) (settings : TrackedSettings)
    (contact : Option ContactInfo) : ToggleTask ToggleOutcome :=
  match contact with
  | none => pure (.httpError 404 "Contact not found".toList)
  | some contact =>
      if c.accepts contact.type then
        if c.limit ≤ settings.tracked.length then refuseTracked c.limitMessage settings.tracked
        else saveTracked c.list settings (settings.tracked ++ [key])
      else pure (.httpError 400 c.refusal)

/-- Toggle a key of a tracked list. -/
def toggleTracked (c : TrackedChecks) (publicKey : Text) : ToggleTask ToggleOutcome := do
  let settings ← callDb (.getSettings c.list)
  if lower publicKey ∈ TrackedSettings.tracked settings then
    saveTracked c.list settings
      (settings.tracked.filter fun k => decide (k ≠ lower publicKey))
  else do
    let contact ← callDb (.getContact (lower publicKey))
    addTracked c (lower publicKey) settings contact

/-- The checks of `toggle_tracked_telemetry`. -/
def repeaterChecks : TrackedChecks where
  list := .trackedTelemetryRepeaters
  accepts type := decide (type = contactTypeRepeater)
  refusal := "Contact is not a repeater".toList
  limit := maxTrackedTelemetryRepeaters
  limitMessage := "Limit of 8 tracked repeaters reached".toList

/-- The checks of `toggle_tracked_telemetry_contact`. -/
def contactChecks : TrackedChecks where
  list := .trackedTelemetryContacts
  accepts type := decide (type ≠ contactTypeRepeater)
  refusal := "Repeaters use the dedicated repeater telemetry tracking list".toList
  limit := maxTrackedTelemetryContacts
  limitMessage := "Limit of 8 tracked contacts reached".toList

/-- `toggle_tracked_telemetry`. -/
def toggleTrackedTelemetry (publicKey : Text) : ToggleTask ToggleOutcome :=
  toggleTracked repeaterChecks publicKey

/-- `toggle_tracked_telemetry_contact`. -/
def toggleTrackedTelemetryContact (publicKey : Text) : ToggleTask ToggleOutcome :=
  toggleTracked contactChecks publicKey

/-- `toggle_blocked_key`. -/
def toggleBlockedKey (key : Text) : ToggleTask ToggleOutcome := do
  let settings ← callDb (.toggleEntry .blockedKeys (lower key))
  pure (.settings settings)

/-- `toggle_blocked_name`. -/
def toggleBlockedName (name : Text) : ToggleTask ToggleOutcome := do
  let settings ← callDb (.toggleEntry .blockedNames name)
  pure (.settings settings)

/-- Answer a flag that was written. -/
def saveFlag (column : FlagColumn) (id : Text) (value : Bool) : ToggleTask ToggleOutcome := do
  let _ ← callDb (.setFlag column id value)
  pure (.flag value)

/-- `toggle_favorite` for one of its two tables. -/
def toggleFavoriteOf (column : FlagColumn) (missing : Text) (id : Text) :
    ToggleTask ToggleOutcome := do
  let row ← callDb (.getFlag column id)
  match row with
  | none => pure (.httpError 404 missing)
  | some favorite => saveFlag column id !favorite

/-- `toggle_favorite` of a contact. -/
def toggleFavoriteContact (id : Text) : ToggleTask ToggleOutcome :=
  toggleFavoriteOf .contactFavorite "Contact not found".toList id

/-- `toggle_favorite` of a channel. -/
def toggleFavoriteChannel (id : Text) : ToggleTask ToggleOutcome :=
  toggleFavoriteOf .channelFavorite "Channel not found".toList id

/-- Mute a channel, read it again for the broadcast, and answer. -/
def saveMuted (key : Text) (value : Bool) : ToggleTask ToggleOutcome := do
  let _ ← callDb (.setFlag .channelMuted key value)
  let _ ← callDb (.getFlag .channelMuted key)
  pure (.flag value)

/-- `toggle_muted_channel`. -/
def toggleMutedChannel (key : Text) : ToggleTask ToggleOutcome := do
  let row ← callDb (.getFlag .channelMuted key)
  match row with
  | none => pure (.httpError 404 "Channel not found".toList)
  | some muted => saveMuted key !muted

end Endpoints

/-- A toggle request. -/
inductive ToggleRequest where
  | trackedTelemetry (publicKey : Text)
  | trackedTelemetryContact (publicKey : Text)
  | blockedKey (key : Text)
  | blockedName (name : Text)
  | favoriteContact (id : Text)
  | favoriteChannel (id : Text)
  | mutedChannel (key : Text)
  deriving DecidableEq

namespace ToggleRequest

/-- The endpoint that serves a request. -/
def task : ToggleRequest → ToggleTask ToggleOutcome
  | .trackedTelemetry publicKey => toggleTrackedTelemetry publicKey
  | .trackedTelemetryContact publicKey => toggleTrackedTelemetryContact publicKey
  | .blockedKey key => toggleBlockedKey key
  | .blockedName name => toggleBlockedName name
  | .favoriteContact id => toggleFavoriteContact id
  | .favoriteChannel id => toggleFavoriteChannel id
  | .mutedChannel key => toggleMutedChannel key

end ToggleRequest

end RemoteTerm
