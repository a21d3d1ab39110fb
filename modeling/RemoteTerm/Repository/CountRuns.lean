import RemoteTerm.Library.Protocol
import RemoteTerm.Repository.UndecryptedCount

/-!
# The count of undecrypted packets in every run

Writes and recounts run as tasks of one process, and any of them may fail or be
cancelled. While nobody has the lock of the writer connection, the cached count
is the number of undecrypted packets, unless a task was cancelled during the
commit of a change to that number or the commit failed and was left open.

## Implementation notes

What a task has done to the open transaction is the local state of a protocol.
At most one task is in any phase but the idle one.
-/

namespace RemoteTerm

open Library Library.Protocol RawPacketRepository

section Statements

variable {t : RawPacketTable} {p : RawPacketRow → Bool}

theorem setLink_rows (messageId : Option Nat) :
    (setLink t p messageId).rows =
      t.rows.map fun r => if p r then { r with messageId := messageId } else r := rfl

/-- Linking rows removes those of them that were not linked from the count. -/
theorem countUndecrypted_setLink_some (messageId : Nat) :
    countUndecrypted (setLink t p (some messageId)) +
      t.rows.countP (fun r => p r && r.undecrypted) = countUndecrypted t := by
  have hlinked : ∀ r : RawPacketRow,
      ({ r with messageId := some messageId } : RawPacketRow).undecrypted = false := fun _ => rfl
  rw [countUndecrypted, setLink_rows, countUndecrypted]
  induction t.rows with
  | nil => rfl
  | cons r rest ih =>
      simp only [List.map_cons, List.countP_cons]
      cases hp : p r <;> cases hr : r.undecrypted <;> simp [hr, hlinked, -List.countP_map] <;> omega

/-- Unlinking rows adds those of them that were linked to the count. -/
theorem countUndecrypted_setLink_none :
    countUndecrypted (setLink t p none) =
      countUndecrypted t + t.rows.countP (fun r => p r && !r.undecrypted) := by
  have hunlinked : ∀ r : RawPacketRow,
      ({ r with messageId := none } : RawPacketRow).undecrypted = true := fun _ => rfl
  rw [countUndecrypted, setLink_rows, countUndecrypted]
  induction t.rows with
  | nil => rfl
  | cons r rest ih =>
      simp only [List.map_cons, List.countP_cons]
      cases hp : p r <;> cases hr : r.undecrypted <;>
        simp [hr, hunlinked, -List.countP_map] <;> omega

/-- Deleting rows removes the undecrypted ones of them from the count. -/
theorem countUndecrypted_delete :
    countUndecrypted (t.delete p) + t.rows.countP (fun r => p r && r.undecrypted) =
      countUndecrypted t := by
  have hrows : (t.delete p).rows = t.rows.filter fun r => !p r := rfl
  rw [countUndecrypted, hrows, countUndecrypted]
  induction t.rows with
  | nil => rfl
  | cons r rest ih =>
      simp only [List.filter_cons, List.countP_cons]
      cases hp : p r <;> cases hr : r.undecrypted <;> simp [hr] <;> omega

end Statements

/-- What a statement leaves for the next one of its transaction. -/
inductive PacketFact where
  | none
  | taken (hash : Bytes)
  | linked (packetId : Nat)
  | unlinked (messageId : Nat)

/-- The rows are as the statement left them. -/
def PacketFact.Holds (t : RawPacketTable) : PacketFact → Prop
  | .none => True
  | .taken hash => t.holder hash ≠ Option.none
  | .linked packetId => ∀ r ∈ t.rows, r.id = packetId → r.undecrypted = false
  | .unlinked messageId => ∀ r ∈ t.rows, r.messageId ≠ some messageId

section RowCounts

variable {t : RawPacketTable}

/-! ### The row counts of the statements -/

/-- An insert that is ignored changes nothing: a row has the hash already. -/
theorem insertOrIgnore_ignored {sha256 : Bytes → Bytes} {data : Bytes} {timestamp : Int}
    {packets : RawPacketTable}
    (h : t.insertOrIgnore (newRow sha256 data timestamp) (newRow_id sha256 data timestamp) =
      (none, packets)) : packets = t ∧ t.holder (payloadHash sha256 data) ≠ none := by
  have hnone : (t.insertOrIgnore (newRow sha256 data timestamp)
      (newRow_id sha256 data timestamp)).1 = none := by rw [h]
  have hsame := t.insertOrIgnore_of_none hnone
  rw [h] at hsame
  obtain ⟨key, r, hkey, hr⟩ := t.insertOrIgnore_eq_none_iff.mp hnone
  obtain rfl : payloadHash sha256 data = key := Option.some.inj hkey
  exact ⟨hsame, by simp [hr]⟩

/-- A row that is inserted is not linked. -/
theorem countUndecrypted_inserted {sha256 : Bytes → Bytes} {data : Bytes} {timestamp : Int}
    {id : Nat} {packets : RawPacketTable}
    (h : t.insertOrIgnore (newRow sha256 data timestamp) (newRow_id sha256 data timestamp) =
      (some id, packets)) : countUndecrypted packets = countUndecrypted t + 1 := by
  have hsome : (t.insertOrIgnore (newRow sha256 data timestamp)
      (newRow_id sha256 data timestamp)).1 = some id := by rw [h]
  obtain ⟨-, hrows, -⟩ := t.insertOrIgnore_of_some hsome
  rw [h] at hrows
  change packets.rows = _ at hrows
  have hnew : (newRow sha256 data timestamp t.nextId).undecrypted = true := rfl
  simp [countUndecrypted, hrows, hnew]

theorem countUndecrypted_link (packetId messageId : Nat) :
    countUndecrypted
        (setLink t (fun r => decide (r.id = packetId) && r.undecrypted) (some messageId)) +
      t.rows.countP (fun r => decide (r.id = packetId) && r.undecrypted) =
        countUndecrypted t := by
  have hlinked := countUndecrypted_setLink_some (t := t)
    (p := fun r => decide (r.id = packetId) && r.undecrypted) messageId
  simpa only [Bool.and_assoc, Bool.and_self] using hlinked

/-- A link that affects no row finds the packet linked. -/
theorem linked_of_link_none {packetId : Nat} (messageId : Option Nat)
    (hnone : t.rows.countP (fun r => decide (r.id = packetId) && r.undecrypted) = 0) :
    (PacketFact.linked packetId).Holds
      (setLink t (fun r => decide (r.id = packetId) && r.undecrypted) messageId) := by
  intro r hr hid
  rw [List.countP_eq_zero] at hnone
  rw [setLink_rows, List.mem_map] at hr
  obtain ⟨r', hr', rfl⟩ := hr
  rw [if_neg (hnone r' hr')] at hid ⊢
  simpa [hid] using hnone r' hr'

theorem countUndecrypted_relink {packetId : Nat} (messageId : Nat)
    (hlinked : (PacketFact.linked packetId).Holds t) :
    countUndecrypted (setLink t (fun r => decide (r.id = packetId)) (some messageId)) =
      countUndecrypted t := by
  have hzero : t.rows.countP (fun r => decide (r.id = packetId) && r.undecrypted) = 0 := by
    rw [List.countP_eq_zero]
    intro r hr
    simp only [Bool.and_eq_true, decide_eq_true_eq, not_and, Bool.not_eq_true]
    exact hlinked r hr
  have hrelinked := countUndecrypted_setLink_some (t := t)
    (p := fun r => decide (r.id = packetId)) messageId
  rwa [hzero, Nat.add_zero] at hrelinked

theorem countUndecrypted_unlink (messageId : Nat) :
    countUndecrypted (setLink t (fun r => decide (r.messageId = some messageId)) none) =
      countUndecrypted t + t.rows.countP fun r => decide (r.messageId = some messageId) := by
  rw [countUndecrypted_setLink_none]
  congr 1
  apply List.countP_congr
  intro r _
  by_cases hr : r.messageId = some messageId <;> simp [hr, RawPacketRow.undecrypted]

/-- No row is linked to the message after the rows that were are unlinked. -/
theorem unlinked_unlink (messageId : Nat) :
    (PacketFact.unlinked messageId).Holds
      (setLink t (fun r => decide (r.messageId = some messageId)) none) := by
  intro r hr
  simp only [setLink_rows, List.mem_map] at hr
  obtain ⟨r', hr', rfl⟩ := hr
  split
  next => simp
  next hother => simpa using hother

theorem countUndecrypted_deleteMessage {messageId : Nat}
    (hunlinked : (PacketFact.unlinked messageId).Holds t) :
    countUndecrypted (setLink t (fun r => decide (r.messageId = some messageId)) none) =
      countUndecrypted t := by
  have hzero : t.rows.countP (fun r => decide (r.messageId = some messageId)) = 0 := by
    rw [List.countP_eq_zero]
    intro r hr
    simp [hunlinked r hr]
  rw [countUndecrypted_unlink, hzero, Nat.add_zero]

theorem countUndecrypted_prune (cutoff : Int) :
    countUndecrypted (t.delete fun r => r.undecrypted && decide (r.timestamp < cutoff)) +
      t.rows.countP (fun r => r.undecrypted && decide (r.timestamp < cutoff)) =
        countUndecrypted t := by
  have hdeleted := countUndecrypted_delete (t := t)
    (p := fun r => r.undecrypted && decide (r.timestamp < cutoff))
  have hall : t.rows.countP
      (fun r => (r.undecrypted && decide (r.timestamp < cutoff)) && r.undecrypted) =
        t.rows.countP fun r => r.undecrypted && decide (r.timestamp < cutoff) := by
    apply List.countP_congr
    intro r _
    cases r.undecrypted <;> simp
  rwa [hall] at hdeleted

theorem countUndecrypted_purge :
    countUndecrypted (t.delete fun r => !r.undecrypted) = countUndecrypted t := by
  have hdeleted := countUndecrypted_delete (t := t) (p := fun r => !r.undecrypted)
  have hnone : t.rows.countP (fun r => !r.undecrypted && r.undecrypted) = 0 := by
    rw [List.countP_eq_zero]
    intro r _
    simp
  rwa [hnone, Nat.add_zero] at hdeleted

end RowCounts

/-- What a task has done: its open transaction with the change to the count so far, and the change
that it still has to make to the cached count. -/
inductive CountPhase where
  | idle
  | working (delta : Int) (fact : PacketFact)
  | failing
  | counted (count : Nat)
  | owing (delta : Int)
  | settled
  | impossible

namespace CountPhase

/-- The statements of a transaction. -/
def AllowsStatement (fact : PacketFact) : PacketStatement → Prop
  | .selectByHash hash => fact = .taken hash
  | .relink packetId _ => fact = .linked packetId
  | .deleteMessage messageId => fact = .unlinked messageId
  | _ => fact = .none

/-- The calls of a task in each phase. -/
def Allows : CountPhase → CountOp → Prop
  | .idle, .readCount | .idle, .acquireLock | .working .., .commit | .failing, .rollback
  | .settled, .releaseLock | .impossible, _ => True
  | .working delta fact, .execute statement =>
      AllowsStatement fact statement ∧ (statement matches .countUndecrypted → delta = 0)
  | .counted count, .storeCount stored => stored = count
  | .owing delta, .adjustUndecryptedCount adjusted => adjusted = delta
  | .owing delta, .releaseLock => delta = 0
  | _, _ => False

/-- The phase after a statement. -/
def afterStatement (sha256 : Bytes → Bytes) (delta : Int) (rowcount : Nat) (row : Option Nat) :
    PacketStatement → CountPhase
  | .insertOrIgnore data _ =>
      match rowcount with
      | 0 => .working delta (.taken (payloadHash sha256 data))
      | 1 => .working (delta + 1) .none
      | _ => .impossible
  | .selectByHash _ => if row.isSome then .working delta .none else .impossible
  | .link packetId _ =>
      if rowcount = 0 then .working delta (.linked packetId) else .working (delta - rowcount) .none
  | .relink .. => .working delta .none
  | .unlink messageId => .working (delta + rowcount) (.unlinked messageId)
  | .deleteMessage _ => .working delta .none
  | .countUndecrypted => .counted rowcount
  | .deleteUndecryptedBefore _ => .working (delta - rowcount) .none
  | .deleteLinked => .working delta .none

/-- The phase after a call and its answer. -/
def after (sha256 : Bytes → Bytes) : CountPhase → (op : CountOp) → op.Ans → CountPhase
  | .idle, .acquireLock, acquired => if acquired then .working 0 .none else .idle
  | .working delta _, .execute statement, .ok rowcount row =>
      afterStatement sha256 delta rowcount row statement
  | .working .., .execute _, _ => .failing
  | .working delta _, .commit, ended => if ended = .done then .owing delta else .settled
  | .failing, .rollback, _ => .settled
  | .counted _, .storeCount _, _ => .working 0 .none
  | .owing _, .adjustUndecryptedCount _, _ => .settled
  | .owing _, .releaseLock, _ => .idle
  | .settled, .releaseLock, _ => .idle
  | l, _, _ => l

end CountPhase

/-- The protocol of writes and recounts. -/
def countProtocol (sha256 : Bytes → Bytes) : Protocol CountOp CountOp.Ans CountPhase :=
  ⟨CountPhase.Allows, CountPhase.after sha256⟩

section Tasks

variable {sha256 : Bytes → Bytes} {α : Type}

/-- A task ends without the lock. -/
abbrev CountEnds : Unit → CountPhase → Prop := fun _ l => l = .idle ∨ l = .impossible

/-- What cannot happen is followed by anything. -/
theorem follows_impossible {Q : α → CountPhase → Prop} (hQ : ∀ a, Q a .impossible)
    (p : CountTask α) : (countProtocol sha256).Follows Q p .impossible := by
  induction p with
  | pure a => exact hQ a
  | call op next ih => exact ⟨trivial, fun x => ih x⟩

/-- What a block leaves: an open transaction, and a caller that adjusts the count by its change. -/
def BlockEnds (sha256 : Bytes → Bytes) (committed : α → CountTask Unit) :
    Option α → CountPhase → Prop
  | _, .impossible => True
  | none, l => l = .failing
  | some value, .working delta _ => (countProtocol sha256).Follows
      (fun _ l => l = .settled ∨ l = .owing 0) (committed value) (.owing delta)
  | some _, _ => False

theorem execute_follows {statement : PacketStatement} {next : Nat → Option Nat → CountTask (Option α)}
    {committed : α → CountTask Unit} {delta : Int} {fact : PacketFact}
    (hallowed : (CountPhase.working delta fact).Allows (.execute statement))
    (hnext : ∀ rowcount row, (countProtocol sha256).Follows (BlockEnds sha256 committed)
      (next rowcount row) (CountPhase.afterStatement sha256 delta rowcount row statement)) :
    (countProtocol sha256).Follows (BlockEnds sha256 committed) (execute statement next)
      (.working delta fact) := by
  refine follows_await_bind.mpr ⟨hallowed, fun executed => ?_⟩
  cases executed with
  | ok rowcount row => exact hnext rowcount row
  | failed => rfl
  | cancelled => rfl

theorem tx_follows {block : CountTask (Option α)} {committed : α → CountTask Unit}
    (hblock : (countProtocol sha256).Follows (BlockEnds sha256 committed) block
      (.working 0 .none)) :
    (countProtocol sha256).Follows CountEnds (tx block committed) .idle := by
  refine follows_await_bind.mpr ⟨trivial, fun acquired => ?_⟩
  cases acquired with
  | false => exact .inl rfl
  | true =>
      refine Follows.bind (hblock.mono ?_)
      intro value l hl
      cases l with
      | impossible => exact follows_impossible (fun _ => .inr rfl) _
      | failing =>
          cases value with
          | none => exact ⟨trivial, fun _ => ⟨trivial, fun _ => .inl rfl⟩⟩
          | some value => exact hl.elim
      | working delta fact =>
          cases value with
          | none => exact (nomatch hl)
          | some value =>
              refine follows_await_bind.mpr ⟨trivial, fun ended => ?_⟩
              cases ended with
              | done =>
                  refine Follows.bind (Follows.mono ?_ hl)
                  rintro _ l (rfl | rfl)
                  · exact ⟨trivial, fun _ => .inl rfl⟩
                  · exact ⟨rfl, fun _ => .inl rfl⟩
              | cancelled => exact ⟨trivial, fun _ => .inl rfl⟩
              | failed rolledBack => exact ⟨trivial, fun _ => .inl rfl⟩
      | idle => cases value <;> exact (nomatch hl)
      | counted count => cases value <;> exact (nomatch hl)
      | owing delta => cases value <;> exact (nomatch hl)
      | settled => cases value <;> exact (nomatch hl)

theorem adjust_follows (delta : Int) :
    (countProtocol sha256).Follows (fun _ l => l = .settled ∨ l = .owing 0)
      (onDb (.adjustUndecryptedCount delta)) (.owing delta) :=
  ⟨rfl, fun _ => .inl rfl⟩

theorem createTx_follows (data : Bytes) (timestamp : Int) :
    (countProtocol sha256).Follows CountEnds (createTx sha256 data timestamp) .idle := by
  refine tx_follows (execute_follows ⟨rfl, fun _ => rfl⟩ fun rowcount id => ?_)
  match rowcount with
  | 0 =>
      refine execute_follows ⟨rfl, fun _ => rfl⟩ fun rowcount existing => ?_
      cases existing with
      | none => trivial
      | some id => exact .inr rfl
  | 1 => exact adjust_follows _
  | rowcount + 2 => trivial

theorem markDecryptedTx_follows (packetId messageId : Nat) :
    (countProtocol sha256).Follows CountEnds (markDecryptedTx packetId messageId) .idle := by
  refine tx_follows (execute_follows ⟨rfl, fun _ => rfl⟩ fun newlyLinked _ => ?_)
  simp only [CountPhase.afterStatement]
  split
  next hzero =>
    refine execute_follows ⟨rfl, fun _ => rfl⟩ fun rowcount _ => ?_
    subst hzero
    exact adjust_follows _
  next =>
    rw [Int.zero_sub]
    exact adjust_follows _

theorem deleteByIdTx_follows (messageId : Nat) :
    (countProtocol sha256).Follows CountEnds (deleteByIdTx messageId) .idle := by
  refine tx_follows (execute_follows ⟨rfl, fun _ => rfl⟩ fun unlinked _ => ?_)
  refine execute_follows ⟨rfl, fun h => (nomatch h)⟩ fun _ _ => ?_
  simp only [CountPhase.afterStatement, Int.zero_add]
  exact adjust_follows _

theorem pruneOldUndecryptedTx_follows (cutoff : Int) :
    (countProtocol sha256).Follows CountEnds (pruneOldUndecryptedTx cutoff) .idle := by
  refine tx_follows (execute_follows ⟨rfl, fun _ => rfl⟩ fun rowcount _ => ?_)
  simp only [CountPhase.afterStatement, Int.zero_sub]
  exact adjust_follows _

theorem purgeLinkedToMessagesTx_follows :
    (countProtocol sha256).Follows CountEnds purgeLinkedToMessagesTx .idle :=
  tx_follows (execute_follows ⟨rfl, fun _ => rfl⟩ fun _ _ => .inr rfl)

theorem getUndecryptedCount_follows :
    (countProtocol sha256).Follows CountEnds getUndecryptedCount .idle := by
  refine follows_await_bind.mpr ⟨trivial, fun cached => ?_⟩
  cases cached with
  | some count => exact .inl rfl
  | none =>
      refine tx_follows (execute_follows ⟨rfl, fun _ => rfl⟩ fun count _ => ?_)
      exact ⟨rfl, fun _ => .inr rfl⟩

theorem CountWork.task_follows (w : CountWork) :
    (countProtocol sha256).Follows CountEnds (w.task sha256) .idle := by
  cases w with
  | create data timestamp => exact createTx_follows data timestamp
  | markDecrypted packetId messageId => exact markDecryptedTx_follows packetId messageId
  | deleteById messageId => exact deleteByIdTx_follows messageId
  | pruneOldUndecrypted cutoff => exact pruneOldUndecryptedTx_follows cutoff
  | purgeLinkedToMessages => exact purgeLinkedToMessagesTx_follows
  | getUndecryptedCount => exact getUndecryptedCount_follows

end Tasks

section Invariant

variable {sha256 : Bytes → Bytes} {s s' : PacketDb} {ls : Nat → CountPhase} {i : Nat}

/-- The cached count is the number of undecrypted packets that were committed. -/
def PacketDb.CountOk (s : PacketDb) (owed : Int) : Prop :=
  ∀ n ∈ s.undecryptedCount, n + owed = countUndecrypted s.committed

/-- Nothing is owed: no open transaction changes the number of undecrypted packets, and the cached
count is that number. -/
def PacketDb.Exact (s : PacketDb) : Prop :=
  countUndecrypted s.packets = countUndecrypted s.committed ∧ s.CountOk 0

/-- What a task relies on in each phase but the idle one. -/
def CountPhase.Ok (s : PacketDb) : CountPhase → Prop
  | .idle => False
  | .working delta fact => s.CountOk 0 ∧ fact.Holds s.packets ∧
      (countUndecrypted s.packets : Int) = countUndecrypted s.committed + delta
  | .failing => s.CountOk 0
  | .counted count => count = countUndecrypted s.packets ∧
      countUndecrypted s.packets = countUndecrypted s.committed
  | .owing delta => s.CountOk delta ∧ countUndecrypted s.packets = countUndecrypted s.committed
  | .settled => s.Exact
  | .impossible => False

/-- Nobody has the lock and nothing is owed, or one task has the lock and owes what its phase
says. -/
def CountSafe (s : PacketDb) (ls : Nat → CountPhase) : Prop :=
  ((∀ i, ls i = .idle) ∧ s.Exact) ∨
    ∃ i, (∀ j, j ≠ i → ls j = .idle) ∧ s.lock = true ∧ (ls i).Ok s

/-- The commit of a change to the number of undecrypted packets goes through or is rolled back; one
that is cancelled may go through while the count is not cached. -/
def CommitSettles : (op : CountOp) → PacketDb → op.Ans → Prop
  | .commit, s, ended => ended = .done ∨ ended = .failed true ∨
      countUndecrypted s.packets = countUndecrypted s.committed ∨
      (ended = .cancelled ∧ s.undecryptedCount = none)
  | _, _, _ => True

/-- The calls on the raw packets, where no commit of a change to the count is disturbed. -/
def countingSettled (sha256 : Bytes → Bytes) :
    Program.Semantics CountOp CountOp.Ans PacketDb :=
  fun op s x s' => counting sha256 op s x s' ∧ CommitSettles op s x

/-- The only task with the lock moves. -/
theorem CountSafe.move {l : CountPhase} (hothers : ∀ j, j ≠ i → ls j = .idle)
    (hlock : s'.lock = true) (hok : l.Ok s') : CountSafe s' (Function.update ls i l) := by
  refine .inr ⟨i, fun j hj => ?_, hlock, ?_⟩
  · rw [Function.update_of_ne hj]
    exact hothers j hj
  · rw [Function.update_self]
    exact hok

/-- The only task with the lock gives it back. -/
theorem CountSafe.release (hothers : ∀ j, j ≠ i → ls j = .idle) (hexact : s'.Exact) :
    CountSafe s' (Function.update ls i .idle) := by
  refine .inl ⟨fun j => ?_, hexact⟩
  by_cases hj : j = i
  · rw [hj, Function.update_self]
  · rw [Function.update_of_ne hj]
    exact hothers j hj

/-- A statement changes the number of undecrypted packets as its row count says. -/
theorem statement_ok (sha256 : Bytes → Bytes) {delta : Int} {fact : PacketFact}
    {statement : PacketStatement}
    (hallowed : (CountPhase.working delta fact).Allows (.execute statement))
    (hok : (CountPhase.working delta fact).Ok s) :
    let (rowcount, row, packets) := runStatement sha256 s.packets statement
    (CountPhase.afterStatement sha256 delta rowcount row statement).Ok
      { s with packets := packets } := by
  obtain ⟨hfact, hzero⟩ := hallowed
  obtain ⟨hcount, hholds, hdelta⟩ := hok
  cases statement with
  | insertOrIgnore data timestamp =>
      obtain rfl : fact = .none := hfact
      simp only [runStatement]
      split
      next id packets hins =>
        have hadded := countUndecrypted_inserted hins
        refine ⟨hcount, trivial, ?_⟩
        dsimp only
        omega
      next packets hins =>
        obtain ⟨rfl, htaken⟩ := insertOrIgnore_ignored hins
        exact ⟨hcount, htaken, hdelta⟩
  | selectByHash hash =>
      obtain rfl : fact = .taken hash := hfact
      obtain ⟨r, hr⟩ := Option.ne_none_iff_exists'.mp hholds
      simp only [runStatement, CountPhase.afterStatement, hr, Option.map_some, Option.isSome_some,
        if_true]
      exact ⟨hcount, trivial, hdelta⟩
  | link packetId messageId =>
      obtain rfl : fact = .none := hfact
      have hlinked := countUndecrypted_link (t := s.packets) packetId messageId
      change CountPhase.Ok _ (if s.packets.rows.countP
        (fun r => decide (r.id = packetId) && r.undecrypted) = 0 then _ else _)
      by_cases hnone : s.packets.rows.countP
          (fun r => decide (r.id = packetId) && r.undecrypted) = 0
      · rw [if_pos hnone]
        exact ⟨hcount, linked_of_link_none (some messageId) hnone, by dsimp only; omega⟩
      · rw [if_neg hnone]
        exact ⟨hcount, trivial, by dsimp only; omega⟩
  | relink packetId messageId =>
      obtain rfl : fact = .linked packetId := hfact
      have hrelinked := countUndecrypted_relink messageId hholds
      refine ⟨hcount, trivial, ?_⟩
      dsimp only
      omega
  | unlink messageId =>
      obtain rfl : fact = .none := hfact
      have hunlinked := countUndecrypted_unlink (t := s.packets) messageId
      refine ⟨hcount, unlinked_unlink messageId, ?_⟩
      dsimp only
      omega
  | deleteMessage messageId =>
      obtain rfl : fact = .unlinked messageId := hfact
      have hunlinked := countUndecrypted_deleteMessage hholds
      refine ⟨hcount, trivial, ?_⟩
      dsimp only
      omega
  | countUndecrypted =>
      obtain rfl : delta = 0 := hzero rfl
      refine ⟨rfl, ?_⟩
      dsimp only
      omega
  | deleteUndecryptedBefore cutoff =>
      obtain rfl : fact = .none := hfact
      have hdeleted := countUndecrypted_prune (t := s.packets) cutoff
      refine ⟨hcount, trivial, ?_⟩
      dsimp only
      omega
  | deleteLinked =>
      obtain rfl : fact = .none := hfact
      have hdeleted := countUndecrypted_purge (t := s.packets)
      refine ⟨hcount, trivial, ?_⟩
      dsimp only
      omega

/-- A task without the lock reads the count or takes the lock while it is free. -/
theorem countSafe_idle {op : CountOp} {x : op.Ans} (h : CountSafe s ls) (hi : ls i = .idle)
    (hallowed : CountPhase.idle.Allows op) (hx : counting sha256 op s x s') :
    CountSafe s' (Function.update ls i (CountPhase.idle.after sha256 op x)) := by
  obtain ⟨c, hc⟩ := hx
  have hsame : CountSafe s (Function.update ls i .idle) := by
    rw [← hi, Function.update_eq_self]
    exact h
  cases op with
  | readCount =>
      simp only [PacketDb.perform, Option.some.injEq, Prod.mk.injEq] at hc
      obtain ⟨-, rfl⟩ := hc
      exact hsame
  | acquireLock =>
      simp only [PacketDb.perform] at hc
      split at hc
      next =>
        simp only [Option.some.injEq, Prod.mk.injEq] at hc
        obtain ⟨rfl, rfl⟩ := hc
        exact hsame
      next =>
        simp only [Option.ite_none_left_eq_some, Option.some.injEq, Prod.mk.injEq] at hc
        obtain ⟨hfree, rfl, rfl⟩ := hc
        rcases h with ⟨hidle, hexact⟩ | ⟨holder, -, hlock, -⟩
        · refine CountSafe.move (fun j _ => hidle j) rfl ⟨hexact.2, trivial, ?_⟩
          have hequal := hexact.1
          dsimp only
          omega
        · exact absurd hlock hfree
  | _ => exact hallowed.elim

/-- The commit of an undisturbed transaction leaves what its task owes. -/
theorem commit_ok {delta : Int} {fact : PacketFact} {ended : Committed}
    (hok : (CountPhase.working delta fact).Ok s) (hsettles : CommitSettles .commit s ended) :
    (if ended = .done then CountPhase.owing delta else .settled).Ok (s.afterCommit ended) := by
  obtain ⟨hcount, -, hdelta⟩ := hok
  by_cases hdone : ended = .done
  · subst hdone
    rw [if_pos rfl]
    refine ⟨fun n hn => ?_, rfl⟩
    have hn' := hcount n hn
    simp only [PacketDb.afterCommit]
    omega
  · rw [if_neg hdone]
    rcases hsettles with rfl | rfl | hequal | ⟨rfl, hnone⟩
    · exact absurd rfl hdone
    · exact ⟨rfl, hcount⟩
    · cases ended with
      | done => exact absurd rfl hdone
      | cancelled =>
          refine ⟨rfl, fun n hn => ?_⟩
          have hn' := hcount n hn
          simp only [PacketDb.afterCommit]
          omega
      | failed rolledBack =>
          cases rolledBack with
          | true => exact ⟨rfl, hcount⟩
          | false => exact ⟨hequal, hcount⟩
    · refine ⟨rfl, fun n hn => ?_⟩
      rw [show (s.afterCommit .cancelled).undecryptedCount = s.undecryptedCount from rfl,
        hnone] at hn
      exact (nomatch hn)

/-- One call of a task, where its phase allows it and no commit of a change to the count is
disturbed, keeps the invariant. -/
theorem countSafe_step {op : CountOp} {x : op.Ans} (h : CountSafe s ls)
    (hallowed : (ls i).Allows op) (hx : countingSettled sha256 op s x s') :
    CountSafe s' (Function.update ls i ((ls i).after sha256 op x)) := by
  obtain ⟨hx, hsettles⟩ := hx
  by_cases hi : ls i = .idle
  · rw [hi] at hallowed ⊢
    exact countSafe_idle h hi hallowed hx
  obtain ⟨c, hc⟩ := hx
  rcases h with ⟨hidle, -⟩ | ⟨holder, hothers, hlock, hok⟩
  · exact absurd (hidle i) hi
  obtain rfl : i = holder := by
    by_contra hne
    exact hi (hothers i hne)
  cases hphase : ls i with
  | idle => exact absurd hphase hi
  | working delta fact =>
      rw [hphase] at hallowed hok
      cases op with
      | execute statement =>
          have hdone := statement_ok sha256 hallowed hok
          simp only [PacketDb.perform] at hc
          split at hc <;> simp only [Option.some.injEq, Prod.mk.injEq] at hc <;>
            obtain ⟨rfl, rfl⟩ := hc
          · exact CountSafe.move hothers hlock hdone
          · exact CountSafe.move hothers hlock hok.1
          · refine CountSafe.move hothers ?_ ?_
            · split <;> exact hlock
            · split <;> exact hok.1
      | commit =>
          simp only [PacketDb.perform, Option.some.injEq, Prod.mk.injEq] at hc
          obtain ⟨rfl, rfl⟩ := hc
          refine CountSafe.move hothers ?_ (commit_ok hok hsettles)
          cases c.commit with
          | failed rolledBack => cases rolledBack <;> exact hlock
          | _ => exact hlock
      | _ => exact hallowed.elim
  | failing =>
      rw [hphase] at hallowed hok
      cases op with
      | rollback =>
          simp only [PacketDb.perform, Option.some.injEq, Prod.mk.injEq] at hc
          obtain ⟨-, rfl⟩ := hc
          exact CountSafe.move hothers hlock ⟨rfl, hok⟩
      | _ => exact hallowed.elim
  | counted count =>
      rw [hphase] at hallowed hok
      obtain ⟨rfl, hequal⟩ := hok
      cases op with
      | storeCount stored =>
          obtain rfl : stored = countUndecrypted s.packets := hallowed
          simp only [PacketDb.perform, Option.some.injEq, Prod.mk.injEq] at hc
          obtain ⟨-, rfl⟩ := hc
          refine CountSafe.move hothers hlock ⟨fun n hn => ?_, trivial, ?_⟩
          · obtain rfl := Option.some.inj hn
            dsimp only
            omega
          · dsimp only
            omega
      | _ => exact hallowed.elim
  | owing delta =>
      rw [hphase] at hallowed hok
      obtain ⟨hcount, hequal⟩ := hok
      cases op with
      | adjustUndecryptedCount adjusted =>
          obtain rfl : adjusted = delta := hallowed
          simp only [PacketDb.perform, Option.some.injEq, Prod.mk.injEq] at hc
          obtain ⟨-, rfl⟩ := hc
          refine CountSafe.move hothers hlock ⟨hequal, fun n hn => ?_⟩
          obtain ⟨m, hm, rfl⟩ := Option.map_eq_some_iff.mp hn
          have hm' := hcount m hm
          dsimp only
          omega
      | releaseLock =>
          obtain rfl : delta = 0 := hallowed
          simp only [PacketDb.perform, Option.some.injEq, Prod.mk.injEq] at hc
          obtain ⟨-, rfl⟩ := hc
          exact CountSafe.release hothers ⟨hequal, hcount⟩
      | _ => exact hallowed.elim
  | settled =>
      rw [hphase] at hallowed hok
      cases op with
      | releaseLock =>
          simp only [PacketDb.perform, Option.some.injEq, Prod.mk.injEq] at hc
          obtain ⟨-, rfl⟩ := hc
          exact CountSafe.release hothers hok
      | _ => exact hallowed.elim
  | impossible =>
      rw [hphase] at hok
      exact hok.elim

end Invariant

section Runs

/-- While nobody has the lock of the writer connection, a cached count is the number of undecrypted
packets, in every run without a disturbed commit of a change to that number. -/
theorem undecryptedCount_exact (sha256 : Bytes → Bytes) {works : List CountWork}
    {t : RawPacketTable} {q : Pool CountOp CountOp.Ans Unit PacketDb}
    (run : Pool.Run (countingSettled sha256) Pool.always (countPool sha256 works t) q)
    (hfree : q.shared.lock = false) {n : Int} (hn : q.shared.undecryptedCount = some n) :
    n = countUndecrypted q.shared.packets ∧ n = countUndecrypted q.shared.committed := by
  have hstart : (countProtocol sha256).Follow CountEnds .idle (countPool sha256 works t)
      fun _ => .idle := by
    apply follow_idle
    intro u hu
    obtain ⟨w, -, rfl⟩ := List.mem_map.mp hu
    exact w.task_follows
  have hsafe : CountSafe (PacketDb.start t) fun _ => .idle :=
    .inl ⟨fun _ => rfl, rfl, fun _ h => (nomatch h)⟩
  obtain ⟨ls, -, hq⟩ := Follow.run (I := CountSafe) run
    (fun _ hI _ _ hallowed hx => countSafe_step hI hallowed hx) hstart hsafe
  rcases hq with ⟨-, hequal, hcount⟩ | ⟨_, -, hlock, -⟩
  · have hexact := hcount n hn
    constructor <;> omega
  · rw [hfree] at hlock
    exact (nomatch hlock)

end Runs

section Sample

/-- A recount, and then a packet. -/
def countedPacket : List CountWork := [.getUndecryptedCount, .create [1] 0]

/-- The count follows the packet. -/
theorem undecryptedCount_exact_countedPacket :
    ∃ q, Pool.Run (countingSettled id) Pool.always (countPool id countedPacket .empty) q ∧
      q.Finished ∧ q.shared.undecryptedCount = some 1 ∧
      (1 : Int) = countUndecrypted q.shared.packets ∧
      (1 : Int) = countUndecrypted q.shared.committed := by
  have hexec : (Pool.exec (fun (c : CountChoice) => PacketDb.perform id { c with commit := .done })
      (fun _ _ _ => true) ((List.replicate 6 0 ++ List.replicate 5 1).map (·, default))
      (countPool id countedPacket .empty)).any (fun q => decide (q.Finished ∧
        q.shared.lock = false ∧ q.shared.undecryptedCount = some 1)) = true := by
    decide +kernel
  obtain ⟨q, hrun, hfinished, hfree, hcount⟩ := Pool.exec_reaches hexec
  have run : Pool.Run (countingSettled id) Pool.always (countPool id countedPacket .empty) q := by
    refine (hrun.mono fun _ _ _ => trivial).ofSemantics fun op s x s' hx => ?_
    obtain ⟨c, hc⟩ := hx
    refine ⟨⟨_, hc⟩, ?_⟩
    cases op with
    | commit =>
        simp only [PacketDb.perform, Option.some.injEq, Prod.mk.injEq] at hc
        exact .inl hc.1.symm
    | _ => trivial
  exact ⟨q, run, hfinished, hcount, undecryptedCount_exact id run hfree hcount⟩

/-- The task that stores the packet is cancelled while it awaits the commit. -/
def cancelledCommit : List (Nat × CountChoice) :=
  (List.replicate 6 0 ++ List.replicate 4 1).map (·, { commit := .cancelled })

/-- The packet is stored, and the count does not know it. -/
theorem undecryptedCount_stale :
    ∃ q, Pool.Run (counting id) Pool.always (countPool id countedPacket .empty) q ∧ q.Finished ∧
      q.shared.lock = false ∧ q.shared.undecryptedCount = some 0 ∧
      countUndecrypted q.shared.packets = 1 ∧ countUndecrypted q.shared.committed = 1 := by
  have hexec : (Pool.exec (PacketDb.perform id) (fun _ _ _ => true) cancelledCommit
      (countPool id countedPacket .empty)).any (fun q => decide (q.Finished ∧
        q.shared.lock = false ∧ q.shared.undecryptedCount = some 0 ∧
        countUndecrypted q.shared.packets = 1 ∧ countUndecrypted q.shared.committed = 1)) =
      true := by
    decide +kernel
  obtain ⟨q, hrun, hend⟩ := Pool.exec_reaches hexec
  exact ⟨q, hrun.mono fun _ _ _ => trivial, hend⟩

end Sample

end RemoteTerm
