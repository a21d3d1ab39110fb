import Mathlib
import RemoteTerm.Library.Text

/-!
# The background contact reconciliation

The loop that brings the contact table of the radio to the desired contacts.
Each pass removes contacts that are not desired and adds missing ones, with a
budget of commands; it stops when nothing is left to do or the radio says that
its table is full.

## Implementation notes

This is the loop without auto-eviction, on a radio that stays connected; passes
that find the radio busy change nothing and are not counted. What the companion
library knows of a desired contact is a parameter: the loop evicts only contacts
that are not desired from its cache. Of a dictionary the keys matter, in
insertion order.
-/

namespace RemoteTerm

open Library

/-- `CONTACT_RECONCILE_BATCH_SIZE`. -/
def contactReconcileBatchSize : Nat := 2

/-- What the radio answers to an add or remove command. -/
inductive ContactReply where
  | ok
  | error (errorCode : Option Nat)
  | raised
  deriving DecidableEq

namespace ContactReply

/-- A removal succeeded, or the radio does not have the contact. -/
def removes : ContactReply → Bool
  | .ok => true
  | .error errorCode => decide (errorCode = some 2)
  | .raised => false

/-- An addition succeeded. -/
def adds (reply : ContactReply) : Bool := decide (reply = .ok)

/-- An addition found the table full. -/
def tableFull (reply : ContactReply) : Bool := decide (reply = .error (some 3))

end ContactReply

/-- What a reconciliation starts from. -/
structure Reconciliation where
  selectedContacts : List Text
  initialRadioContacts : List Text
  libraryHas : Text → Bool
  removeContact : Text → ContactReply
  addContact : Text → ContactReply

namespace Reconciliation

variable (r : Reconciliation)

/-- The keys of `desired_contacts`. -/
def desiredContacts : List Text :=
  ((r.selectedContacts.filter fun k => decide (64 ≤ k.length)).map lower).eraseDups

/-- The removal phase: the rest of the budget and the table. -/
def removalPhase : List Text → Nat → List Text → Nat × List Text
  | [], budget, table => (budget, table)
  | _ :: _, 0, table => (0, table)
  | key :: keys, budget + 1, table =>
      if key ∈ r.desiredContacts then removalPhase keys (budget + 1) table
      else if (r.removeContact key).removes then
        removalPhase keys budget (table.filter fun k => decide (k ≠ key))
      else removalPhase keys budget table

/-- The addition phase: the table, and whether the radio said that its own is full. -/
def additionPhase : List Text → Nat → List Text → List Text × Bool
  | [], _, table => (table, false)
  | _ :: _, 0, table => (table, false)
  | key :: keys, budget + 1, table =>
      if key ∈ table then additionPhase keys (budget + 1) table
      else if r.libraryHas key then additionPhase keys (budget + 1) (table ++ [key])
      else if (r.addContact key).adds then additionPhase keys budget (table ++ [key])
      else if (r.addContact key).tableFull then (table, true)
      else additionPhase keys budget table

/-- One pass under the radio lock. -/
def pass (table : List Text) : List Text × Bool :=
  let (budget, table') := r.removalPhase table contactReconcileBatchSize table
  r.additionPhase r.desiredContacts budget table'

/-- Nothing is to be removed and nothing is missing. -/
def Settled (table : List Text) : Prop :=
  (∀ key ∈ table, key ∈ r.desiredContacts) ∧ ∀ key ∈ r.desiredContacts, key ∈ table

instance (table : List Text) : Decidable (r.Settled table) := by
  unfold Settled
  infer_instance

/-- Where the loop is. -/
inductive Loop where
  | running (table : List Text)
  | complete (table : List Text)
  | full (table : List Text)
  deriving DecidableEq

/-- The loop has ended. -/
def Loop.stopped : Loop → Bool
  | .running _ => false
  | _ => true

/-- `_reconcile_radio_contacts_in_background`: one turn of the loop. -/
def turn : Loop → Loop
  | .running table =>
      if r.Settled table then .complete table
      else if (r.pass table).2 then .full (r.pass table).1
      else .running (r.pass table).1
  | stopped => stopped

/-- The loop ends after some turns. -/
def Terminates : Prop := ∃ n, (r.turn^[n] (.running r.initialRadioContacts)).stopped = true

section Obstacles

/-- A contact that is not desired and that the radio will not remove. -/
def unremovable (key : Text) : Bool :=
  decide (key ∉ r.desiredContacts) && !(r.removeContact key).removes

/-- A desired contact that is not in the table, and that the radio will not add. -/
def unaddable (table : List Text) (key : Text) : Bool :=
  decide (key ∉ table) && !r.libraryHas key && !(r.addContact key).adds

/-- The number of contacts that stay in the table for good. -/
def stuckRemovals (table : List Text) : Nat := table.countP r.unremovable

/-- The desired contacts that cannot be added, in order. -/
def refused (table : List Text) : List Text := r.desiredContacts.filter (r.unaddable table)

/-- The radio has no room for a contact. -/
def fullAt (key : Text) : Bool := (r.addContact key).tableFull

/-- There is no obstacle; or the radio says that its table is full to a contact that the failing
commands before it leave budget for. -/
def CanStop (table : List Text) : Prop :=
  r.stuckRemovals table = 0 ∧ r.refused table = [] ∨
    (∃ key ∈ r.refused table, r.fullAt key = true) ∧
      r.stuckRemovals table + ((r.refused table).takeWhile fun k => !r.fullAt k).length <
        contactReconcileBatchSize

end Obstacles

end Reconciliation

end RemoteTerm
