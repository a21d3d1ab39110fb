import Mathlib
import RemoteTerm.Library.Program
import RemoteTerm.Repository.RawPackets

/-!
# The count of undecrypted packets

`_undecrypted_count`: the number of raw packets without a message, counted once
and then adjusted by the writes that link, unlink, add or delete packets. Each
write is a transaction of `Database.tx`, which commits when its block ends and
rolls back when the block is left by an exception or a cancellation.

## Implementation notes

The writer connection sees the packets of an open transaction; the others see
what was committed last. A transaction gives its lock back and its caller adjusts
the count in one turn of the event loop; here the count is adjusted first, while
nobody else can see the difference. The messages table is left out, so a
violation of the foreign key is a failure that the environment chooses. There is
one database, and rolling back does not fail.
-/

namespace RemoteTerm

open Library

/-- Statements on `raw_packets`; deleting a message sets the links to it to null. -/
inductive PacketStatement where
  | insertOrIgnore (data : Bytes) (timestamp : Int)
  | selectByHash (hash : Bytes)
  | link (packetId messageId : Nat)
  | relink (packetId messageId : Nat)
  | unlink (messageId : Nat)
  | deleteMessage (messageId : Nat)
  | countUndecrypted
  | deleteUndecryptedBefore (cutoff : Int)
  | deleteLinked

/-- A packet that is not linked to a message. -/
def RawPacketRow.undecrypted (r : RawPacketRow) : Bool := r.messageId = none

namespace RawPacketRepository

/-- The number of rows whose `message_id` is null. -/
def countUndecrypted (t : RawPacketTable) : Nat := t.rows.countP RawPacketRow.undecrypted

/-- Set the link of the rows that satisfy a condition. -/
def setLink (t : RawPacketTable) (p : RawPacketRow → Bool) (messageId : Option Nat) :
    RawPacketTable :=
  t.modify p (fun r => { r with messageId := messageId }) (fun _ => rfl) fun _ => rfl

/-- What a statement gives: the number of rows it affected or counted, the rowid it inserted or
found, and the table after it. -/
def runStatement (sha256 : Bytes → Bytes) (t : RawPacketTable) :
    PacketStatement → Nat × Option Nat × RawPacketTable
  | .insertOrIgnore data timestamp =>
      match t.insertOrIgnore (newRow sha256 data timestamp) (newRow_id sha256 data timestamp) with
      | (some id, t') => (1, some id, t')
      | (none, t') => (0, none, t')
  | .selectByHash hash => (0, (t.holder hash).map RawPacketRow.id, t)
  | .link packetId messageId =>
      let p := fun r : RawPacketRow => decide (r.id = packetId) && r.undecrypted
      (t.rows.countP p, none, setLink t p (some messageId))
  | .relink packetId messageId =>
      let p := fun r : RawPacketRow => decide (r.id = packetId)
      (t.rows.countP p, none, setLink t p (some messageId))
  | .unlink messageId =>
      let p := fun r : RawPacketRow => decide (r.messageId = some messageId)
      (t.rows.countP p, none, setLink t p none)
  | .deleteMessage messageId =>
      (0, none, setLink t (fun r => r.messageId = some messageId) none)
  | .countUndecrypted => (countUndecrypted t, none, t)
  | .deleteUndecryptedBefore cutoff =>
      let p := fun r : RawPacketRow => r.undecrypted && decide (r.timestamp < cutoff)
      (t.rows.countP p, none, t.delete p)
  | .deleteLinked =>
      let p := fun r : RawPacketRow => !r.undecrypted
      (t.rows.countP p, none, t.delete p)

end RawPacketRepository

/-- What awaiting a statement gives. -/
inductive Executed where
  | ok (rowcount : Nat) (row : Option Nat)
  | failed
  | cancelled
  deriving DecidableEq, Repr

/-- What awaiting a commit gives: the commit of a cancelled task is still carried out, and one that
fails is rolled back by the database or left open. -/
inductive Committed where
  | done
  | cancelled
  | failed (rolledBack : Bool)
  deriving DecidableEq, Repr, Inhabited

/-- The calls of the writes and the recount. -/
inductive CountOp where
  | readCount
  | acquireLock
  | execute (statement : PacketStatement)
  | rollback
  | commit
  | adjustUndecryptedCount (delta : Int)
  | storeCount (count : Nat)
  | releaseLock

/-- What each call answers. -/
@[reducible] def CountOp.Ans : CountOp → Type
  | .readCount => Option Int
  | .acquireLock => Bool
  | .execute _ => Executed
  | .rollback => Unit
  | .commit => Committed
  | .adjustUndecryptedCount _ => Unit
  | .storeCount _ => Unit
  | .releaseLock => Unit

/-- A task on the raw packets. -/
abbrev CountTask (α : Type) := Program CountOp CountOp.Ans α

/-- Suspend at one call. -/
abbrev onDb (op : CountOp) : CountTask op.Ans := Program.await op

/-- The packets as the writer connection sees them, as they were committed, the lock of the writer
connection, and the cached count. -/
structure PacketDb where
  packets : RawPacketTable
  committed : RawPacketTable
  lock : Bool := false
  undecryptedCount : Option Int := none

/-- How a statement ends: carried out, failed without effect, or cancelled before or after its
effect. -/
inductive ExecuteChoice where
  | done
  | failed
  | cancelled (applied : Bool)
  deriving DecidableEq, Repr, Inhabited

/-- What the environment supplies to one call. -/
structure CountChoice where
  acquired : Bool := true
  execute : ExecuteChoice := .done
  commit : Committed := .done
  deriving Inhabited

namespace PacketDb

/-- The database at the start of the process. -/
def start (t : RawPacketTable) : PacketDb := ⟨t, t, false, none⟩

/-- What a commit leaves. -/
def afterCommit (s : PacketDb) : Committed → PacketDb
  | .done | .cancelled => { s with committed := s.packets }
  | .failed true => { s with packets := s.committed }
  | .failed false => s

/-- Perform one call; `none` while the call has to wait for the lock. -/
def perform (sha256 : Bytes → Bytes) (c : CountChoice) :
    (op : CountOp) → PacketDb → Option (op.Ans × PacketDb)
  | .readCount, s => some (s.undecryptedCount, s)
  | .acquireLock, s =>
      if !c.acquired then some (false, s)
      else if s.lock then none
      else some (true, { s with lock := true })
  | .execute statement, s =>
      let (rowcount, row, packets) :=
        RawPacketRepository.runStatement sha256 s.packets statement
      match c.execute with
      | .done => some (.ok rowcount row, { s with packets := packets })
      | .failed => some (.failed, s)
      | .cancelled applied => some (.cancelled, if applied then { s with packets := packets } else s)
  | .rollback, s => some ((), { s with packets := s.committed })
  | .commit, s => some (c.commit, s.afterCommit c.commit)
  | .adjustUndecryptedCount delta, s =>
      some ((), { s with undecryptedCount := s.undecryptedCount.map (· + delta) })
  | .storeCount count, s => some ((), { s with undecryptedCount := some count })
  | .releaseLock, s => some ((), { s with lock := false })

end PacketDb

/-- The calls on the raw packets, in any environment. -/
def counting (sha256 : Bytes → Bytes) : Program.Semantics CountOp CountOp.Ans PacketDb :=
  Program.Semantics.ofFunction (PacketDb.perform sha256)

section Transactions

/-- `Database.tx` around a block, which ends with a value or is left; what the caller does with the
value before its next await follows the commit. -/
def tx {α : Type} (block : CountTask (Option α)) (committed : α → CountTask Unit) :
    CountTask Unit := do
  let acquired ← onDb .acquireLock
  if acquired then do
    let value ← block
    match value with
    | none => do
        onDb .rollback
        onDb .releaseLock
    | some value => do
        let answer ← onDb .commit
        match answer with
        | .done => do
            committed value
            onDb .releaseLock
        | _ => onDb .releaseLock
  else pure ()

/-- One statement of a block; the block is left when it fails. -/
def execute {α : Type} (statement : PacketStatement)
    (next : Nat → Option Nat → CountTask (Option α)) : CountTask (Option α) := do
  let executed ← onDb (.execute statement)
  match executed with
  | .ok rowcount row => next rowcount row
  | _ => pure none

namespace RawPacketRepository

/-- The transaction of `create`: the row that already had the packet's hash. -/
def createTx (sha256 : Bytes → Bytes) (data : Bytes) (timestamp : Int) : CountTask Unit :=
  tx (execute (.insertOrIgnore data timestamp) fun rowcount _ =>
      if rowcount = 0 then
        execute (.selectByHash (payloadHash sha256 data)) fun _ existing => pure (some existing)
      else pure (some none))
    fun existing =>
      match existing with
      | none => onDb (.adjustUndecryptedCount 1)
      | some _ => pure ()

/-- The transaction of `mark_decrypted`. -/
def markDecryptedTx (packetId messageId : Nat) : CountTask Unit :=
  tx (execute (.link packetId messageId) fun newlyLinked _ =>
      if newlyLinked = 0 then
        execute (.relink packetId messageId) fun _ _ => pure (some newlyLinked)
      else pure (some newlyLinked))
    fun newlyLinked => onDb (.adjustUndecryptedCount (-newlyLinked))

/-- The transaction of `MessageRepository.delete_by_id`. -/
def deleteByIdTx (messageId : Nat) : CountTask Unit :=
  tx (execute (.unlink messageId) fun unlinked _ =>
      execute (.deleteMessage messageId) fun _ _ => pure (some unlinked))
    fun unlinked => onDb (.adjustUndecryptedCount unlinked)

/-- The transaction of `prune_old_undecrypted`. -/
def pruneOldUndecryptedTx (cutoff : Int) : CountTask Unit :=
  tx (execute (.deleteUndecryptedBefore cutoff) fun rowcount _ => pure (some rowcount))
    fun rowcount => onDb (.adjustUndecryptedCount (-rowcount))

/-- The transaction of `purge_linked_to_messages`. -/
def purgeLinkedToMessagesTx : CountTask Unit :=
  tx (execute .deleteLinked fun rowcount _ => pure (some rowcount)) fun _ => pure ()

/-- `get_undecrypted_count`: the cached count, or a recount. -/
def getUndecryptedCount : CountTask Unit := do
  let cached ← onDb .readCount
  match cached with
  | some _ => pure ()
  | none =>
      tx (execute .countUndecrypted fun count _ => do
          onDb (.storeCount count)
          pure (some ()))
        fun _ => pure ()

end RawPacketRepository

end Transactions

/-- The tasks that read or change the count. -/
inductive CountWork where
  | create (data : Bytes) (timestamp : Int)
  | markDecrypted (packetId messageId : Nat)
  | deleteById (messageId : Nat)
  | pruneOldUndecrypted (cutoff : Int)
  | purgeLinkedToMessages
  | getUndecryptedCount

/-- The program of a task. -/
def CountWork.task (sha256 : Bytes → Bytes) : CountWork → CountTask Unit
  | .create data timestamp => RawPacketRepository.createTx sha256 data timestamp
  | .markDecrypted packetId messageId => RawPacketRepository.markDecryptedTx packetId messageId
  | .deleteById messageId => RawPacketRepository.deleteByIdTx messageId
  | .pruneOldUndecrypted cutoff => RawPacketRepository.pruneOldUndecryptedTx cutoff
  | .purgeLinkedToMessages => RawPacketRepository.purgeLinkedToMessagesTx
  | .getUndecryptedCount => RawPacketRepository.getUndecryptedCount

/-- Tasks that run at once, from a database whose packets are not counted yet. -/
def countPool (sha256 : Bytes → Bytes) (works : List CountWork) (t : RawPacketTable) :
    Pool CountOp CountOp.Ans Unit PacketDb :=
  ⟨.start t, works.map (CountWork.task sha256)⟩

end RemoteTerm
