import Mathlib
import RemoteTerm.Library.Machine
import RemoteTerm.Settings.Toggles

/-!
# Concurrent toggles

Requests run interleaved at their database calls. A toggle that reads in one
call and writes in another is linear when what it read is still stored where it
writes: the requests that succeed then answer and store what they would one
after another, in the order of their writes.

## Implementation notes

A thread remembers the database at its first call, and a run the entries that
were written; neither is visible to the program. What a request does alone is
its program run to the end without interruption.
-/

namespace RemoteTerm

open Library

section Alone

/-- A program run to the end alone. -/
def ToggleTask.exec {α : Type} : ToggleTask α → SettingsDb → α × SettingsDb
  | .pure a, db => (a, db)
  | .call op next, db => ToggleTask.exec (next (db.process op).1) (db.process op).2

variable {α β : Type}

@[simp] theorem exec_pure (a : α) (db : SettingsDb) :
    ToggleTask.exec (Program.pure a) db = (a, db) := rfl

@[simp] theorem exec_call (op : ToggleOp) (next : op.Ans → ToggleTask α) (db : SettingsDb) :
    ToggleTask.exec (Program.call op next) db =
      ToggleTask.exec (next (db.process op).1) (db.process op).2 := rfl

theorem exec_bind (p : ToggleTask α) (f : α → ToggleTask β) (db : SettingsDb) :
    ToggleTask.exec (p >>= f) db =
      ToggleTask.exec (f (ToggleTask.exec p db).1) (ToggleTask.exec p db).2 := by
  induction p generalizing db with
  | pure a => rfl
  | call op next ih => exact ih _ _

/-- The parts of the database that no toggle writes are equal. -/
structure SettingsDb.Static (d db : SettingsDb) : Prop where
  contacts : d.contacts = db.contacts
  channels : d.channels = db.channels
  interval : d.telemetryIntervalHours = db.telemetryIntervalHours
  routed : d.telemetryRoutedHourly = db.telemetryRoutedHourly

theorem SettingsDb.Static.refl (db : SettingsDb) : db.Static db := ⟨rfl, rfl, rfl, rfl⟩

theorem SettingsDb.Static.symm {d db : SettingsDb} (h : d.Static db) : db.Static d :=
  ⟨h.contacts.symm, h.channels.symm, h.interval.symm, h.routed.symm⟩

theorem SettingsDb.Static.trans {a b c : SettingsDb} (h : a.Static b) (h' : b.Static c) :
    a.Static c :=
  ⟨h.contacts.trans h'.contacts, h.channels.trans h'.channels, h.interval.trans h'.interval,
    h.routed.trans h'.routed⟩

/-- No call writes the static parts. -/
theorem static_process (db : SettingsDb) (op : ToggleOp) : db.Static (db.process op).2 := by
  cases op <;> exact ⟨rfl, rfl, rfl, rfl⟩

theorem SettingsDb.Static.hasRow {d db : SettingsDb} (h : d.Static db) (column : FlagColumn)
    (id : Text) : d.hasRow column id = db.hasRow column id := by
  cases column <;> simp [SettingsDb.hasRow, h.contacts, h.channels]

/-- The call writes. -/
def ToggleOp.writes : ToggleOp → Bool
  | .updateSettings .. => true
  | .toggleEntry .. => true
  | .setFlag .. => true
  | _ => false

theorem process_of_reads {op : ToggleOp} (h : op.writes = false) (db : SettingsDb) :
    (db.process op).2 = db := by
  cases op <;> first | rfl | cases h

/-- What a list or flag of one database holds where the call writes, another holds too. A toggle
in one transaction reads where it writes, so it asks for nothing. -/
def ToggleOp.SameTarget (d db : SettingsDb) : ToggleOp → Prop
  | .updateSettings l _ => d.lists l = db.lists l
  | .setFlag column id _ =>
      d.flags (column, column.rowKey id) = db.flags (column, column.rowKey id)
  | _ => True

end Alone

section Threads

/-- A request on its way; `readAt` is the database at its first call. -/
structure ToggleThread where
  request : ToggleRequest
  rest : ToggleTask ToggleOutcome
  readAt : Option SettingsDb := none
  written : Bool := false

/-- A request that has not started. -/
def ToggleRequest.waiting (r : ToggleRequest) : ToggleThread where
  request := r
  rest := r.task

/-- A request that wrote, and its answer. -/
structure ToggleEntry where
  thread : Nat
  request : ToggleRequest
  outcome : ToggleOutcome
  deriving DecidableEq

/-- The database, the requests and what was written in which order. -/
structure ToggleState where
  db : SettingsDb
  threads : List ToggleThread
  log : List ToggleEntry := []

/-- The state when all requests arrive. -/
def ToggleState.arrived (db : SettingsDb) (requests : List ToggleRequest) : ToggleState where
  db := db
  threads := requests.map ToggleRequest.waiting

/-- A thread after its call. -/
def ToggleThread.after (t : ToggleThread) (db : SettingsDb) (op : ToggleOp)
    (rest : ToggleTask ToggleOutcome) : ToggleThread where
  request := t.request
  rest := rest
  readAt := t.readAt <|> some db
  written := t.written || op.writes

/-- What is known to be written after a call of thread `i`. -/
def ToggleState.logged (s : ToggleState) (i : Nat) (t : ToggleThread) (op : ToggleOp) :
    List ToggleEntry :=
  if op.writes then s.log ++ [⟨i, t.request, (ToggleTask.exec t.request.task s.db).1⟩] else s.log

/-- Thread `i` makes its next call. -/
def ToggleState.apply (s : ToggleState) (i : Nat) : ToggleState :=
  match s.threads[i]? with
  | none => s
  | some t =>
      match t.rest with
      | .pure _ => s
      | .call op next =>
          { db := (s.db.process op).2
            threads := s.threads.set i (t.after s.db op (next (s.db.process op).1))
            log := s.logged i t op }

/-- Thread `i` does not write over something else than what its request read. -/
def Unchanged (s : ToggleState) (i : Nat) : Prop :=
  ∀ t ∈ s.threads[i]?, ∀ d ∈ t.readAt, ∀ op ∈ t.rest.nextCall, op.SameTarget d s.db

instance (d db : SettingsDb) : ∀ op : ToggleOp, Decidable (op.SameTarget d db)
  | .updateSettings l _ => inferInstanceAs (Decidable (d.lists l = db.lists l))
  | .setFlag column id _ => inferInstanceAs (Decidable
      (d.flags (column, column.rowKey id) = db.flags (column, column.rowKey id)))
  | .getSettings _ | .toggleEntry .. | .getContact _ | .getFlag .. => .isTrue trivial

instance (s : ToggleState) (i : Nat) : Decidable (Unchanged s i) :=
  inferInstanceAs (Decidable
    (∀ t ∈ s.threads[i]?, ∀ d ∈ t.readAt, ∀ op ∈ t.rest.nextCall, op.SameTarget d s.db))

/-- A run of the requests under a condition. -/
abbrev ToggleRun (ok : ToggleState → Nat → Prop) : ToggleState → ToggleState → Prop :=
  Machine ToggleState.apply ok

/-- Requests that run one after another and succeed, with their answers. -/
inductive Sequential : SettingsDb → List ToggleEntry → SettingsDb → Prop
  | nil (db : SettingsDb) : Sequential db [] db
  | snoc {db db' : SettingsDb} {log : List ToggleEntry} (h : Sequential db log db')
      (e : ToggleEntry) (houtcome : (ToggleTask.exec e.request.task db').1 = e.outcome)
      (hsucceeded : e.outcome.succeeded = true) :
      Sequential db (log ++ [e]) (ToggleTask.exec e.request.task db').2

/-- The requests that succeeded ran, as far as their answers and the database show, one after
another. -/
structure Linearized (db : SettingsDb) (s : ToggleState) (log : List ToggleEntry) : Prop where
  sequential : Sequential db log s.db
  once : (log.map ToggleEntry.thread).Nodup
  requests : ∀ e ∈ log, ∃ t, s.threads[e.thread]? = some t ∧ t.request = e.request
  answers : ∀ i t o, s.threads[i]? = some t → t.rest.returned = some o →
    ((∃ e ∈ log, e.thread = i) ∨ o.succeeded = true → ⟨i, t.request, o⟩ ∈ log)

end Threads

section Shape

variable {r : ToggleRequest} {α : Type}

/-- What a request reads and writes is equal in two databases. -/
def ToggleRequest.Same (r : ToggleRequest) (d db : SettingsDb) : Prop :=
  match r with
  | .trackedTelemetry _ => d.lists .trackedTelemetryRepeaters = db.lists .trackedTelemetryRepeaters
  | .trackedTelemetryContact _ =>
      d.lists .trackedTelemetryContacts = db.lists .trackedTelemetryContacts
  | .blockedKey _ => True
  | .blockedName _ => True
  | .favoriteContact id =>
      d.flags (.contactFavorite, lower id) = db.flags (.contactFavorite, lower id)
  | .favoriteChannel id =>
      d.flags (.channelFavorite, upper id) = db.flags (.channelFavorite, upper id)
  | .mutedChannel key => d.flags (.channelMuted, upper key) = db.flags (.channelMuted, upper key)

/-- A program that only reads and answers `a`, whatever it reads outside the static parts. -/
def AnsweredAs (d : SettingsDb) (a : α) : ToggleTask α → Prop
  | .pure b => b = a
  | .call op next =>
      op.writes = false ∧ ∀ db : SettingsDb, d.Static db → AnsweredAs d a (next (db.process op).1)

/-- A program that only reads, and whose answer the static parts determine. -/
def Answered (p : ToggleTask α) (good : α → Prop) : Prop :=
  ∀ d : SettingsDb, ∃ a, good a ∧ AnsweredAs d a p

/-- The answers of a call are determined by what the request reads. -/
def ToggleRequest.Reads (r : ToggleRequest) (op : ToggleOp) : Prop :=
  ∀ d db : SettingsDb, d.Static db → r.Same d db → (d.process op).1 = (db.process op).1

/-- The answers of a call are determined by the static parts. -/
def ToggleOp.ReadsStatic (op : ToggleOp) : Prop :=
  ∀ d db : SettingsDb, d.Static db → (d.process op).1 = (db.process op).1

/-- The write of a request writes what the request read, and the request then succeeds. -/
def ToggleRequest.Commits (r : ToggleRequest) (op : ToggleOp)
    (next : op.Ans → ToggleTask ToggleOutcome) : Prop :=
  (∀ d db : SettingsDb, op.SameTarget d db → r.Same d db) ∧
    ∀ x, Answered (next x) fun o => o.succeeded = true

/-- A program that fails, or writes once and succeeds; before that it reads static parts. -/
def WritesOnce (r : ToggleRequest) : ToggleTask ToggleOutcome → Prop
  | .pure o => o.succeeded = false
  | .call op next =>
      if op.writes then r.Commits op next else op.ReadsStatic ∧ ∀ x, WritesOnce r (next x)

/-- A program whose first call may also read what the request toggles. -/
def ReadsFirst (r : ToggleRequest) : ToggleTask ToggleOutcome → Prop
  | .pure o => o.succeeded = false
  | .call op next =>
      if op.writes then r.Commits op next else r.Reads op ∧ ∀ x, WritesOnce r (next x)

theorem AnsweredAs.bind {β : Type} {d : SettingsDb} {p : ToggleTask α} {f : α → ToggleTask β}
    {a : α} {b : β} (h : AnsweredAs d a p) (hf : AnsweredAs d b (f a)) :
    AnsweredAs d b (p >>= f) := by
  induction p with
  | pure a' =>
      obtain rfl : a' = a := h
      exact hf
  | call op next ih => exact ⟨h.1, fun db hstatic => ih _ (h.2 db hstatic)⟩

theorem AnsweredAs.exec {d db : SettingsDb} {p : ToggleTask α} {a : α} (h : AnsweredAs d a p)
    (hstatic : d.Static db) : ToggleTask.exec p db = (a, db) := by
  induction p with
  | pure a' =>
      obtain rfl : a' = a := h
      rfl
  | call op next ih =>
      rw [exec_call, process_of_reads h.1]
      exact ih _ (h.2 db hstatic)

theorem Answered.pure {a : α} {good : α → Prop} (h : good a) :
    Answered (Program.pure a) good :=
  fun _ => ⟨a, h, rfl⟩

theorem Answered.bind {β : Type} {p : ToggleTask α} {f : α → ToggleTask β} {good : α → Prop}
    {good' : β → Prop} (h : Answered p good) (hf : ∀ a, good a → Answered (f a) good') :
    Answered (p >>= f) good' := by
  intro d
  obtain ⟨a, ha, hp⟩ := h d
  obtain ⟨b, hb, hfa⟩ := hf a ha d
  exact ⟨b, hb, hp.bind hfa⟩

/-- The name of a contact is static. -/
theorem resolveNames_answered (keys : List Text) : Answered (resolveNames keys) fun _ => True := by
  induction keys with
  | nil => exact Answered.pure trivial
  | cons key keys ih =>
      have hcontact : Answered (callDb (.getContact key)) fun _ => True := by
        intro d
        refine ⟨d.contacts (lower key), trivial, rfl, fun db hstatic => ?_⟩
        rw [hstatic.contacts]
        rfl
      exact hcontact.bind fun contact _ => ih.bind fun names _ => Answered.pure trivial

/-- A program may read static parts before it writes. -/
theorem WritesOnce.of_calls {p : ToggleTask α} {f : α → ToggleTask ToggleOutcome}
    (hp : p.Calls fun op => op.writes = false ∧ op.ReadsStatic) (hf : ∀ a, WritesOnce r (f a)) :
    WritesOnce r (p >>= f) := by
  induction p with
  | pure a => exact hf a
  | call op next ih =>
      obtain ⟨⟨hreads, hop⟩, hnext⟩ := hp
      change if op.writes then _ else _
      rw [hreads]
      exact ⟨hop, fun x => ih x (hnext x)⟩

theorem readsStatic_getContact (key : Text) : ToggleOp.ReadsStatic (.getContact key) := by
  intro d db hstatic
  change d.contacts (lower key) = db.contacts (lower key)
  rw [hstatic.contacts]

theorem resolveNames_calls (keys : List Text) :
    (resolveNames keys).Calls fun op => op.writes = false ∧ op.ReadsStatic := by
  induction keys with
  | nil => exact trivial
  | cons key keys ih =>
      exact ⟨⟨rfl, readsStatic_getContact key⟩, fun _ => ih.bind fun _ => trivial⟩

theorem saveTracked_writesOnce {l : SettingsList} {settings : TrackedSettings}
    {newList : List Text} (h : ∀ d db : SettingsDb, d.lists l = db.lists l → r.Same d db) :
    WritesOnce r (saveTracked l settings newList) :=
  ⟨h, fun _ => (resolveNames_answered newList).bind fun _ _ => Answered.pure rfl⟩

theorem toggleTracked_readsFirst {c : TrackedChecks} {publicKey : Text}
    (h : ∀ d db : SettingsDb, d.lists c.list = db.lists c.list ↔ r.Same d db) :
    ReadsFirst r (toggleTracked c publicKey) := by
  refine ⟨?_, fun settings => ?_⟩
  · intro d db hstatic hsame
    change (⟨_, _, _⟩ : TrackedSettings) = ⟨_, _, _⟩
    rw [(h d db).mpr hsame, hstatic.interval, hstatic.routed]
  · change WritesOnce r (if lower publicKey ∈ TrackedSettings.tracked settings then _ else _)
    split
    · exact saveTracked_writesOnce fun d db => (h d db).mp
    · refine ⟨readsStatic_getContact _, fun contact => ?_⟩
      change WritesOnce r (addTracked c (lower publicKey) settings contact)
      unfold addTracked
      split
      · rfl
      · split
        · split
          · exact WritesOnce.of_calls (resolveNames_calls _) fun _ => rfl
          · exact saveTracked_writesOnce fun d db => (h d db).mp
        · rfl

theorem reads_getFlag {column : FlagColumn} {id : Text}
    (h : ∀ d db : SettingsDb, r.Same d db →
      d.flags (column, column.rowKey id) = db.flags (column, column.rowKey id)) :
    r.Reads (.getFlag column id) := by
  intro d db hstatic hsame
  change (if _ then _ else _) = (if _ then _ else _)
  rw [hstatic.hasRow, h d db hsame]

theorem toggleFavoriteOf_readsFirst {column : FlagColumn} {missing id : Text}
    (h : ∀ d db : SettingsDb, d.flags (column, column.rowKey id) =
      db.flags (column, column.rowKey id) ↔ r.Same d db) :
    ReadsFirst r (toggleFavoriteOf column missing id) := by
  refine ⟨reads_getFlag fun d db => (h d db).mpr, fun row => ?_⟩
  cases row with
  | none => rfl
  | some favorite => exact ⟨fun d db => (h d db).mp, fun _ => Answered.pure rfl⟩

theorem toggleMutedChannel_readsFirst (key : Text) :
    ReadsFirst (.mutedChannel key) (toggleMutedChannel key) := by
  refine ⟨reads_getFlag fun _ _ hsame => hsame, fun row => ?_⟩
  cases row with
  | none => rfl
  | some muted =>
      exact ⟨fun _ _ hsame => hsame, fun _ _ => ⟨.flag !muted, rfl, rfl, fun _ _ => rfl⟩⟩

/-- Every request reads, and then fails or writes once and answers. -/
theorem ToggleRequest.task_readsFirst (r : ToggleRequest) : ReadsFirst r r.task := by
  cases r with
  | trackedTelemetry publicKey => exact toggleTracked_readsFirst fun _ _ => Iff.rfl
  | trackedTelemetryContact publicKey => exact toggleTracked_readsFirst fun _ _ => Iff.rfl
  | blockedKey key => exact ⟨fun _ _ _ => trivial, fun _ => Answered.pure rfl⟩
  | blockedName name => exact ⟨fun _ _ _ => trivial, fun _ => Answered.pure rfl⟩
  | favoriteContact id => exact toggleFavoriteOf_readsFirst fun _ _ => Iff.rfl
  | favoriteChannel id => exact toggleFavoriteOf_readsFirst fun _ _ => Iff.rfl
  | mutedChannel key => exact toggleMutedChannel_readsFirst key

end Shape

section Invariant

variable {db₀ : SettingsDb} {s : ToggleState} {i : Nat} {t : ToggleThread}

/-- What holds of a thread that has not written. -/
structure ToggleThread.Pending (t : ToggleThread) (s : ToggleState) (i : Nat) : Prop where
  unlogged : i ∉ s.log.map ToggleEntry.thread
  fresh : t.readAt = none → t.rest = t.request.task
  shape : t.readAt ≠ none → WritesOnce t.request t.rest
  alone : ∀ d ∈ t.readAt, ∀ db : SettingsDb, d.Static db → t.request.Same d db →
    ToggleTask.exec t.rest db = ToggleTask.exec t.request.task db
  static : ∀ d ∈ t.readAt, d.Static s.db

/-- What holds of a thread that has written. -/
def ToggleThread.Done (t : ToggleThread) (db₀ : SettingsDb) (s : ToggleState) (i : Nat) : Prop :=
  ∃ o, ⟨i, t.request, o⟩ ∈ s.log ∧ AnsweredAs db₀ o t.rest

/-- The log is a sequential run, and every thread is where the log says. -/
structure ToggleState.Linear (db₀ : SettingsDb) (s : ToggleState) : Prop where
  sequential : Sequential db₀ s.log s.db
  static : db₀.Static s.db
  once : (s.log.map ToggleEntry.thread).Nodup
  requests : ∀ e ∈ s.log, ∃ t, s.threads[e.thread]? = some t ∧ t.request = e.request
  pending : ∀ (i : Nat) (t : ToggleThread), s.threads[i]? = some t → t.written = false →
    t.Pending s i
  done : ∀ (i : Nat) (t : ToggleThread), s.threads[i]? = some t → t.written = true →
    t.Done db₀ s i

theorem linear_arrived (db : SettingsDb) (requests : List ToggleRequest) :
    (ToggleState.arrived db requests).Linear db where
  sequential := .nil db
  static := .refl db
  once := List.nodup_nil
  requests e he := by cases he
  pending i t ht _ := by
    obtain ⟨r, -, rfl⟩ := List.mem_map.mp (List.mem_of_getElem? ht)
    exact ⟨List.not_mem_nil, fun _ => rfl, fun h => absurd rfl h, fun d hd => (by cases hd),
      fun d hd => (by cases hd)⟩
  done i t ht hwritten := by
    obtain ⟨r, -, rfl⟩ := List.mem_map.mp (List.mem_of_getElem? ht)
    cases hwritten

/-- The answer to a read of a request that runs alone. -/
theorem exec_next {op : ToggleOp} {next : op.Ans → ToggleTask ToggleOutcome} {d db : SettingsDb}
    (hreads : op.writes = false) (hanswer : (d.process op).1 = (db.process op).1) :
    ToggleTask.exec (next (d.process op).1) db = ToggleTask.exec (.call op next) db := by
  rw [exec_call, process_of_reads hreads, hanswer]

/-- A thread that has not written stays so at a read. -/
theorem ToggleThread.Pending.read (h : t.Pending s i) {op : ToggleOp}
    {next : op.Ans → ToggleTask ToggleOutcome} (hrest : t.rest = .call op next)
    (hreads : op.writes = false) {s' : ToggleState} (hdb : s'.db = s.db) (hlog : s'.log = s.log) :
    (t.after s.db op (next (s.db.process op).1)).Pending s' i := by
  have hunlogged : i ∉ s'.log.map ToggleEntry.thread := hlog ▸ h.unlogged
  cases hread : t.readAt with
  | none =>
      have htask : t.request.task = .call op next := (h.fresh hread).symm.trans hrest
      have hfirst := t.request.task_readsFirst
      rw [htask, ReadsFirst, hreads] at hfirst
      obtain ⟨hop, hnext⟩ := hfirst
      refine ⟨hunlogged, ?_, fun _ => hnext _, ?_, ?_⟩
      · simp [ToggleThread.after, hread]
      · intro d hd db hstatic hsame
        obtain rfl : s.db = d := by simpa [ToggleThread.after, hread] using hd
        exact (exec_next hreads (hop _ _ hstatic hsame)).trans (by rw [← htask]; rfl)
      · intro d hd
        obtain rfl : s.db = d := by simpa [ToggleThread.after, hread] using hd
        exact hdb ▸ .refl _
  | some d =>
      have hshape := h.shape (by rw [hread]; exact Option.some_ne_none d)
      rw [hrest, WritesOnce, hreads] at hshape
      obtain ⟨hop, hnext⟩ := hshape
      refine ⟨hunlogged, ?_, fun _ => hnext _, ?_, ?_⟩
      · simp [ToggleThread.after, hread]
      · intro d' hd db hstatic hsame
        obtain rfl : d = d' := by simpa [ToggleThread.after, hread] using hd
        have halone := h.alone d hread db hstatic hsame
        rw [hrest] at halone
        have hanswer : (s.db.process op).1 = (db.process op).1 :=
          hop _ _ ((h.static d hread).symm.trans hstatic)
        exact (exec_next hreads hanswer).trans halone
      · intro d' hd
        obtain rfl : d = d' := by simpa [ToggleThread.after, hread] using hd
        exact hdb ▸ h.static d hread

/-- A call that reads changes only its own thread. -/
theorem ToggleState.Linear.read (h : s.Linear db₀) (ht : s.threads[i]? = some t) {op : ToggleOp}
    {next : op.Ans → ToggleTask ToggleOutcome} (hrest : t.rest = .call op next)
    (hreads : op.writes = false) : (s.apply i).Linear db₀ := by
  have happly : s.apply i = { s with
      threads := s.threads.set i (t.after s.db op (next (s.db.process op).1)) } := by
    simp only [ToggleState.apply, ht, hrest, ToggleState.logged, hreads,
      process_of_reads hreads]
    rfl
  have hlength : i < s.threads.length := (List.getElem?_eq_some_iff.mp ht).1
  rw [happly]
  refine ⟨h.sequential, h.static, h.once, ?_, ?_, ?_⟩
  · intro e he
    obtain ⟨t', ht', hrequest⟩ := h.requests e he
    by_cases hi : i = e.thread
    · subst hi
      obtain rfl : t = t' := Option.some.inj (ht.symm.trans ht')
      exact ⟨_, List.getElem?_set_self hlength, hrequest⟩
    · exact ⟨t', (List.getElem?_set_ne hi).trans ht', hrequest⟩
  · intro j t' ht' hwritten
    by_cases hi : i = j
    · subst hi
      obtain rfl := Option.some.inj ((List.getElem?_set_self hlength).symm.trans ht')
      have hwritten' : t.written = false := by simpa [ToggleThread.after, hreads] using hwritten
      exact (h.pending i t ht hwritten').read hrest hreads rfl rfl
    · rw [List.getElem?_set_ne hi] at ht'
      have hpending := h.pending j t' ht' hwritten
      exact ⟨hpending.unlogged, hpending.fresh, hpending.shape, hpending.alone, hpending.static⟩
  · intro j t' ht' hwritten
    by_cases hi : i = j
    · subst hi
      obtain rfl := Option.some.inj ((List.getElem?_set_self hlength).symm.trans ht')
      have hwritten' : t.written = true := by simpa [ToggleThread.after, hreads] using hwritten
      obtain ⟨o, ho, hanswered⟩ := h.done i t ht hwritten'
      rw [hrest] at hanswered
      exact ⟨o, ho, hanswered.2 s.db h.static⟩
    · rw [List.getElem?_set_ne hi] at ht'
      exact h.done j t' ht' hwritten

/-- What a thread that is about to write would do alone. -/
theorem ToggleThread.Pending.commit (h : t.Pending s i) {op : ToggleOp}
    {next : op.Ans → ToggleTask ToggleOutcome} (hrest : t.rest = .call op next)
    (hwrites : op.writes = true) (hunchanged : ∀ d ∈ t.readAt, op.SameTarget d s.db)
    (hstatic : db₀.Static s.db) :
    ∃ o, o.succeeded = true ∧ ToggleTask.exec t.request.task s.db = (o, (s.db.process op).2) ∧
      AnsweredAs db₀ o (next (s.db.process op).1) := by
  have hcommits : t.request.Commits op next ∧
      ToggleTask.exec t.request.task s.db = ToggleTask.exec (.call op next) s.db := by
    cases hread : t.readAt with
    | none =>
        have htask : t.request.task = .call op next := (h.fresh hread).symm.trans hrest
        have hfirst := t.request.task_readsFirst
        rw [htask, ReadsFirst, hwrites] at hfirst
        exact ⟨hfirst, by rw [htask]⟩
    | some d =>
        have hshape := h.shape (by rw [hread]; exact Option.some_ne_none d)
        rw [hrest, WritesOnce, hwrites] at hshape
        have hsame := hshape.1 d s.db (hunchanged d hread)
        have halone := h.alone d hread s.db (h.static d hread) hsame
        rw [hrest] at halone
        exact ⟨hshape, halone.symm⟩
  obtain ⟨⟨-, hanswered⟩, halone⟩ := hcommits
  obtain ⟨o, hsucceeded, ho⟩ := hanswered (s.db.process op).1 db₀
  refine ⟨o, hsucceeded, ?_, ho⟩
  rw [halone, exec_call]
  exact ho.exec (hstatic.trans (static_process s.db op))

/-- A write appends its request to the sequential run. -/
theorem ToggleState.Linear.write (h : s.Linear db₀) (ht : s.threads[i]? = some t) {op : ToggleOp}
    {next : op.Ans → ToggleTask ToggleOutcome} (hrest : t.rest = .call op next)
    (hwrites : op.writes = true) (hunchanged : ∀ d ∈ t.readAt, op.SameTarget d s.db) :
    (s.apply i).Linear db₀ := by
  have hpendingNow : t.written = false := by
    cases hwritten : t.written with
    | false => rfl
    | true =>
        obtain ⟨o, -, hanswered⟩ := h.done i t ht hwritten
        rw [hrest] at hanswered
        exact absurd (hanswered.1.symm.trans hwrites) Bool.false_ne_true
  have hpending := h.pending i t ht hpendingNow
  obtain ⟨o, hsucceeded, halone, hanswered⟩ :=
    hpending.commit hrest hwrites hunchanged h.static
  have happly : s.apply i = {
      db := (s.db.process op).2
      threads := s.threads.set i (t.after s.db op (next (s.db.process op).1))
      log := s.log ++ [⟨i, t.request, o⟩] } := by
    simp only [ToggleState.apply, ht, hrest, ToggleState.logged, hwrites, halone]
    rfl
  have hlength : i < s.threads.length := (List.getElem?_eq_some_iff.mp ht).1
  have hstatic : db₀.Static (s.db.process op).2 := h.static.trans (static_process s.db op)
  rw [happly]
  refine ⟨?_, hstatic, ?_, ?_, ?_, ?_⟩
  · have hsnoc := Sequential.snoc h.sequential ⟨i, t.request, o⟩ (by rw [halone]) hsucceeded
    rwa [halone] at hsnoc
  · rw [List.map_append, List.nodup_append]
    refine ⟨h.once, List.nodup_singleton _, ?_⟩
    intro a ha b hb
    obtain rfl := List.mem_singleton.mp hb
    rintro rfl
    exact hpending.unlogged ha
  · intro e he
    have hthread : ∀ t', s.threads[e.thread]? = some t' → t'.request = e.request →
        ∃ t'', (s.threads.set i (t.after s.db op (next (s.db.process op).1)))[e.thread]? =
          some t'' ∧ t''.request = e.request := by
      intro t' ht' hrequest
      by_cases hi : i = e.thread
      · subst hi
        obtain rfl : t = t' := Option.some.inj (ht.symm.trans ht')
        exact ⟨_, List.getElem?_set_self hlength, hrequest⟩
      · exact ⟨t', (List.getElem?_set_ne hi).trans ht', hrequest⟩
    rcases List.mem_append.mp he with he | he
    · obtain ⟨t', ht', hrequest⟩ := h.requests e he
      exact hthread t' ht' hrequest
    · obtain rfl := List.mem_singleton.mp he
      exact hthread t ht rfl
  · intro j t' ht' hwritten
    by_cases hi : i = j
    · subst hi
      obtain rfl := Option.some.inj ((List.getElem?_set_self hlength).symm.trans ht')
      simp [ToggleThread.after, hwrites] at hwritten
    · rw [List.getElem?_set_ne hi] at ht'
      have hother := h.pending j t' ht' hwritten
      refine ⟨?_, hother.fresh, hother.shape, hother.alone, fun d hd =>
        (hother.static d hd).trans (static_process s.db op)⟩
      rw [List.map_append, List.mem_append]
      rintro (hmem | hmem)
      · exact hother.unlogged hmem
      · exact hi (List.mem_singleton.mp hmem).symm
  · intro j t' ht' hwritten
    by_cases hi : i = j
    · subst hi
      obtain rfl := Option.some.inj ((List.getElem?_set_self hlength).symm.trans ht')
      exact ⟨o, List.mem_append_right _ (List.mem_singleton_self _), hanswered⟩
    · rw [List.getElem?_set_ne hi] at ht'
      obtain ⟨o', ho', hanswered'⟩ := h.done j t' ht' hwritten
      exact ⟨o', List.mem_append_left _ ho', hanswered'⟩

/-- A call under the condition keeps the log a sequential run. -/
theorem ToggleState.Linear.apply (h : s.Linear db₀) (i : Nat) (hunchanged : Unchanged s i) :
    (s.apply i).Linear db₀ := by
  cases ht : s.threads[i]? with
  | none =>
      have happly : s.apply i = s := by simp only [ToggleState.apply, ht]
      rw [happly]
      exact h
  | some t =>
      cases hrest : t.rest with
      | pure o =>
          have happly : s.apply i = s := by simp only [ToggleState.apply, ht, hrest]
          rw [happly]
          exact h
      | call op next =>
          cases hwrites : op.writes with
          | false => exact h.read ht hrest hwrites
          | true =>
              refine h.write ht hrest hwrites fun d hd => ?_
              exact hunchanged t ht d hd op (by rw [hrest]; rfl)

theorem ToggleState.Linear.linearized (h : s.Linear db₀) : Linearized db₀ s s.log where
  sequential := h.sequential
  once := h.once
  requests := h.requests
  answers := by
    intro i t o ht hreturned hlogged
    have hrest : t.rest = .pure o := Program.returned_eq_some_iff.mp hreturned
    cases hwritten : t.written with
    | true =>
        obtain ⟨o', ho', hanswered⟩ := h.done i t ht hwritten
        rw [hrest] at hanswered
        obtain rfl : o = o' := hanswered
        exact ho'
    | false =>
        have hpending := h.pending i t ht hwritten
        have hfails : o.succeeded = false := by
          cases hread : t.readAt with
          | none =>
              have hfirst := t.request.task_readsFirst
              rwa [← hpending.fresh hread, hrest] at hfirst
          | some d =>
              have hshape := hpending.shape (by rw [hread]; exact Option.some_ne_none d)
              rwa [hrest] at hshape
        rcases hlogged with ⟨e, he, rfl⟩ | hsucceeded
        · exact absurd (List.mem_map_of_mem he) hpending.unlogged
        · exact absurd (hfails.symm.trans hsucceeded) Bool.false_ne_true

end Invariant

section Effects

/-- What a request switches. -/
inductive ToggleTarget where
  | entry (l : SettingsList) (e : Text)
  | flag (column : FlagColumn) (key : Text)
  deriving DecidableEq

/-- The entry or flag of a request. -/
def ToggleRequest.target : ToggleRequest → ToggleTarget
  | .trackedTelemetry publicKey => .entry .trackedTelemetryRepeaters (lower publicKey)
  | .trackedTelemetryContact publicKey => .entry .trackedTelemetryContacts (lower publicKey)
  | .blockedKey key => .entry .blockedKeys (lower key)
  | .blockedName name => .entry .blockedNames name
  | .favoriteContact id => .flag .contactFavorite (lower id)
  | .favoriteChannel id => .flag .channelFavorite (upper id)
  | .mutedChannel key => .flag .channelMuted (upper key)

namespace SettingsDb

/-- The entry is in its list, or the flag is set. -/
def holds (db : SettingsDb) : ToggleTarget → Bool
  | .entry l e => decide (e ∈ db.lists l)
  | .flag column key => db.flags (column, key)

/-- The database with one entry or flag switched. -/
def toggle (db : SettingsDb) : ToggleTarget → SettingsDb
  | .entry l e => db.setList l (toggled (db.lists l) e)
  | .flag column key => db.writeFlag column key !db.flags (column, key)

/-- No tracked list is longer than its maximum. -/
structure WithinLimits (db : SettingsDb) : Prop where
  repeaters : (db.lists .trackedTelemetryRepeaters).length ≤ maxTrackedTelemetryRepeaters
  contacts : (db.lists .trackedTelemetryContacts).length ≤ maxTrackedTelemetryContacts

end SettingsDb

variable {db db' : SettingsDb}

theorem mem_toggled {entries : List Text} {e e' : Text} :
    e' ∈ toggled entries e ↔ if e' = e then e ∉ entries else e' ∈ entries := by
  unfold toggled
  split
  next hmem =>
    by_cases he : e' = e
    · simp [he, hmem]
    · simp [he]
  next hmem =>
    by_cases he : e' = e
    · simp [he, hmem]
    · simp [he]

/-- A toggle switches its own target and no other. -/
theorem holds_toggle (db : SettingsDb) (target other : ToggleTarget) :
    (db.toggle target).holds other = (db.holds other ^^ decide (other = target)) := by
  cases target with
  | entry l e =>
      cases other with
      | entry l' e' =>
          by_cases hl : l' = l
          · subst hl
            have hmem := @mem_toggled (db.lists l') e e'
            by_cases he : e' = e
            · subst he
              simp [SettingsDb.toggle, SettingsDb.holds, SettingsDb.setList, mem_toggled]
            · simp [SettingsDb.toggle, SettingsDb.holds, SettingsDb.setList, mem_toggled, he]
          · simp [SettingsDb.toggle, SettingsDb.holds, SettingsDb.setList, hl]
      | flag column key => simp [SettingsDb.toggle, SettingsDb.holds, SettingsDb.setList]
  | flag column key =>
      cases other with
      | entry l' e' =>
          rw [show decide (ToggleTarget.entry l' e' = .flag column key) = false by simp,
            Bool.xor_false]
          rfl
      | flag column' key' =>
          by_cases heq : (column', key') = (column, key)
          · obtain ⟨rfl, rfl⟩ := Prod.mk.inj heq
            simp [SettingsDb.toggle, SettingsDb.holds, SettingsDb.writeFlag]
          · have hne : ¬ (column' = column ∧ key' = key) := fun h => heq (Prod.ext h.1 h.2)
            simp [SettingsDb.toggle, SettingsDb.holds, SettingsDb.writeFlag, hne]

/-- Resolving names leaves the database alone. -/
theorem exec_resolveNames (keys : List Text) (db : SettingsDb) :
    (ToggleTask.exec (resolveNames keys) db).2 = db := by
  obtain ⟨names, -, hnames⟩ := resolveNames_answered keys db
  rw [hnames.exec (.refl db)]

theorem exec_saveTracked (l : SettingsList) (settings : TrackedSettings) (newList : List Text)
    (db : SettingsDb) :
    (ToggleTask.exec (saveTracked l settings newList) db).2 = db.setList l newList := by
  change (ToggleTask.exec (resolveNames newList >>= _) (db.setList l newList)).2 = _
  rw [exec_bind]
  exact exec_resolveNames newList _

/-- A successful toggle of a tracked list switches the key, and adds one only below the limit. -/
theorem exec_toggleTracked {c : TrackedChecks} {publicKey : Text}
    (h : (ToggleTask.exec (toggleTracked c publicKey) db).1.succeeded = true) :
    (ToggleTask.exec (toggleTracked c publicKey) db).2 =
        db.setList c.list (toggled (db.lists c.list) (lower publicKey)) ∧
      (lower publicKey ∉ db.lists c.list → (db.lists c.list).length < c.limit) := by
  have hexec : ToggleTask.exec (toggleTracked c publicKey) db =
      if lower publicKey ∈ db.lists c.list then
        ToggleTask.exec (saveTracked c.list ⟨db.lists c.list, db.telemetryIntervalHours,
          db.telemetryRoutedHourly⟩ ((db.lists c.list).filter fun k => decide (k ≠ lower publicKey)))
          db
      else ToggleTask.exec (addTracked c (lower publicKey) ⟨db.lists c.list,
        db.telemetryIntervalHours, db.telemetryRoutedHourly⟩
          (db.contacts (lower (lower publicKey)))) db := by
    change ToggleTask.exec (if lower publicKey ∈ db.lists c.list then _ else _) db = _
    split <;> rfl
  rw [hexec] at h ⊢
  split at h
  next hmem =>
    rw [if_pos hmem, exec_saveTracked, toggled, if_pos hmem]
    exact ⟨rfl, fun hnot => absurd hmem hnot⟩
  next hmem =>
    rw [if_neg hmem]
    unfold addTracked at h ⊢
    split at h
    next => cases h
    next contact =>
      split at h
      next haccepts =>
        split at h
        next hfull =>
          rw [refuseTracked, exec_bind] at h
          cases h
        next hfits =>
          simp only [haccepts, hfits, if_true, if_false]
          rw [exec_saveTracked, toggled, if_neg hmem]
          exact ⟨rfl, fun _ => Nat.lt_of_not_le hfits⟩
      next => cases h

/-- A successful toggle of a favorite switches it. -/
theorem exec_toggleFavoriteOf {column : FlagColumn} {missing id : Text}
    (h : (ToggleTask.exec (toggleFavoriteOf column missing id) db).1.succeeded = true) :
    (ToggleTask.exec (toggleFavoriteOf column missing id) db).2 =
      db.toggle (.flag column (column.rowKey id)) := by
  by_cases hrow : db.hasRow column id = true
  · simp only [toggleFavoriteOf, callDb, Program.await_bind, exec_call, SettingsDb.process, hrow]
    rfl
  · simp only [toggleFavoriteOf, callDb, Program.await_bind, exec_call, SettingsDb.process, hrow] at h
    cases h

theorem exec_toggleMutedChannel {key : Text}
    (h : (ToggleTask.exec (toggleMutedChannel key) db).1.succeeded = true) :
    (ToggleTask.exec (toggleMutedChannel key) db).2 =
      db.toggle (.flag .channelMuted (upper key)) := by
  by_cases hrow : db.hasRow .channelMuted key = true
  · simp only [toggleMutedChannel, callDb, Program.await_bind, exec_call, SettingsDb.process, hrow]
    rfl
  · simp only [toggleMutedChannel, callDb, Program.await_bind, exec_call, SettingsDb.process, hrow]
      at h
    cases h

/-- **What a request does alone**: it switches its target, and keeps the tracked lists within
their limits. -/
theorem ToggleRequest.exec_task {r : ToggleRequest}
    (h : (ToggleTask.exec r.task db).1.succeeded = true) :
    (ToggleTask.exec r.task db).2 = db.toggle r.target ∧
      (db.WithinLimits → (db.toggle r.target).WithinLimits) := by
  have hlength : ∀ {entries : List Text} {e : Text} {limit : Nat}, entries.length ≤ limit →
      (e ∉ entries → entries.length < limit) → (toggled entries e).length ≤ limit := by
    intro entries e limit hle hlt
    unfold toggled
    split
    next => exact (List.length_filter_le ..).trans hle
    next hmem =>
      rw [List.length_append, List.length_singleton]
      exact hlt hmem
  cases r with
  | trackedTelemetry publicKey =>
      obtain ⟨heq, hfits⟩ := exec_toggleTracked h
      refine ⟨heq, fun hlimits => ⟨?_, ?_⟩⟩
      · simpa [SettingsDb.toggle, SettingsDb.setList, ToggleRequest.target] using
          hlength hlimits.repeaters hfits
      · simpa [SettingsDb.toggle, SettingsDb.setList, ToggleRequest.target] using hlimits.contacts
  | trackedTelemetryContact publicKey =>
      obtain ⟨heq, hfits⟩ := exec_toggleTracked h
      refine ⟨heq, fun hlimits => ⟨?_, ?_⟩⟩
      · simpa [SettingsDb.toggle, SettingsDb.setList, ToggleRequest.target] using hlimits.repeaters
      · simpa [SettingsDb.toggle, SettingsDb.setList, ToggleRequest.target] using
          hlength hlimits.contacts hfits
  | blockedKey key => exact ⟨rfl, fun hlimits => ⟨hlimits.repeaters, hlimits.contacts⟩⟩
  | blockedName name => exact ⟨rfl, fun hlimits => ⟨hlimits.repeaters, hlimits.contacts⟩⟩
  | favoriteContact id =>
      exact ⟨exec_toggleFavoriteOf h, fun hlimits => ⟨hlimits.repeaters, hlimits.contacts⟩⟩
  | favoriteChannel id =>
      exact ⟨exec_toggleFavoriteOf h, fun hlimits => ⟨hlimits.repeaters, hlimits.contacts⟩⟩
  | mutedChannel key =>
      exact ⟨exec_toggleMutedChannel h, fun hlimits => ⟨hlimits.repeaters, hlimits.contacts⟩⟩

/-- The number of requests in a log that switch a target. -/
def switches (log : List ToggleEntry) (target : ToggleTarget) : Nat :=
  log.countP fun e => decide (target = e.request.target)

/-- In a sequential run a target is switched by its own requests only, as often as they ran, and
the tracked lists stay within their limits. -/
theorem Sequential.effects {log : List ToggleEntry} (h : Sequential db log db') :
    (∀ target, db'.holds target = (db.holds target ^^ decide (switches log target % 2 = 1))) ∧
      (db.WithinLimits → db'.WithinLimits) := by
  induction h with
  | nil => simp [switches]
  | snoc hlog e houtcome hsucceeded ih =>
      obtain ⟨hholds, hlimits⟩ := ih
      obtain ⟨heq, hkept⟩ := ToggleRequest.exec_task (houtcome ▸ hsucceeded)
      rw [heq]
      refine ⟨fun target => ?_, fun h => hkept (hlimits h)⟩
      have hparity : ∀ n : Nat, decide ((n + 1) % 2 = 1) = !decide (n % 2 = 1) := by
        intro n
        by_cases hodd : n % 2 = 1
        · rw [decide_eq_true hodd, decide_eq_false (by omega), Bool.not_true]
        · rw [decide_eq_false hodd, decide_eq_true (by omega), Bool.not_false]
      rw [holds_toggle, hholds, switches, switches, List.countP_append, List.countP_singleton]
      by_cases htarget : target = e.request.target
      · rw [if_pos (decide_eq_true htarget), hparity, decide_eq_true htarget, Bool.xor_true,
          Bool.xor_not]
      · rw [if_neg (by simpa using htarget), decide_eq_false htarget, Bool.xor_false, Nat.add_zero]

end Effects

/-- **Toggles are linear**: in every run of concurrent toggles that write over what they read,
the database and the answers are those of the successful requests run one after another in the
order of their writes. Then every entry and flag was switched as often as its requests
succeeded, and the tracked lists stay within their limits. -/
theorem toggles_linearized (db : SettingsDb) (requests : List ToggleRequest) {s : ToggleState}
    (run : ToggleRun Unchanged (ToggleState.arrived db requests) s) :
    Linearized db s s.log ∧
      (∀ target, s.db.holds target =
        (db.holds target ^^ decide (switches s.log target % 2 = 1))) ∧
      (db.WithinLimits → s.db.WithinLimits) := by
  have hlinear : s.Linear db :=
    run.invariant (P := ToggleState.Linear db) (fun u i hok hu => hu.apply i hok)
      (linear_arrived db requests)
  exact ⟨hlinear.linearized, hlinear.sequential.effects⟩

section Example

/-- Two repeaters that are not tracked. -/
def repeaterA : Text := List.replicate 64 'a'

def repeaterB : Text := List.replicate 64 'b'

/-- A database that knows the two repeaters and has no entries. -/
def repeatersDb : SettingsDb where
  lists _ := []
  flags _ := false
  contacts key := if key = repeaterA ∨ key = repeaterB then some { type := 2 } else none
  channels _ := false
  telemetryIntervalHours := 8
  telemetryRoutedHourly := false

/-- Both repeaters are toggled: the second request reads before the first one writes. -/
def overlappingToggles : ToggleState :=
  [0, 1, 0, 0, 0, 1, 1, 1].foldl ToggleState.apply
    (ToggleState.arrived repeatersDb [.trackedTelemetry repeaterA, .trackedTelemetry repeaterB])

/-- The answer of a thread. -/
def ToggleThread.answer (t : ToggleThread) : Option ToggleOutcome := t.rest.returned

/-- Threads are in the log of a linear run once, and a thread is the only one of its request. -/
theorem Linearized.switches_eq_one {db : SettingsDb} {s : ToggleState} {log : List ToggleEntry}
    (h : Linearized db s log) {i : Nat} {target : ToggleTarget} {e : ToggleEntry} (he : e ∈ log)
    (htarget : e.request.target = target)
    (honly : ∀ j t, s.threads[j]? = some t → t.request.target = target → j = i) :
    switches log target = 1 := by
  have hthreads : ∀ e' ∈ log.filter fun e => decide (target = e.request.target),
      e'.thread = i := by
    intro e' he'
    obtain ⟨hmem, hp⟩ := List.mem_filter.mp he'
    obtain ⟨t, ht, hrequest⟩ := h.requests e' hmem
    exact honly _ t ht (by rw [hrequest]; exact (of_decide_eq_true hp).symm)
  have hreplicate := List.eq_replicate_of_mem (a := i)
    (l := (log.filter fun e => decide (target = e.request.target)).map ToggleEntry.thread)
    (by
      intro j hj
      obtain ⟨e', he', rfl⟩ := List.mem_map.mp hj
      exact hthreads e' he')
  have hnodup : ((log.filter fun e => decide (target = e.request.target)).map
      ToggleEntry.thread).Nodup := h.once.sublist (List.filter_sublist.map _)
  rw [hreplicate, List.nodup_replicate, List.length_map] at hnodup
  have hpos : 0 < (log.filter fun e => decide (target = e.request.target)).length :=
    List.length_pos_of_mem (List.mem_filter.mpr ⟨he, decide_eq_true htarget.symm⟩)
  rw [switches, List.countP_eq_length_filter]
  omega

/-- Both requests succeed, and the first repeater is not tracked. -/
theorem overlapping_toggle_lost :
    ToggleRun (fun _ _ => True)
        (ToggleState.arrived repeatersDb
          [.trackedTelemetry repeaterA, .trackedTelemetry repeaterB]) overlappingToggles ∧
      overlappingToggles.threads.map ToggleThread.answer =
        [some (.tracked [repeaterA] [(repeaterA, repeaterA.take 12)] 1 8 false),
          some (.tracked [repeaterB] [(repeaterB, repeaterB.take 12)] 1 8 false)] ∧
      overlappingToggles.db.lists .trackedTelemetryRepeaters = [repeaterB] ∧
      ∀ log, ¬ Linearized repeatersDb overlappingToggles log := by
  have hanswers : overlappingToggles.threads.map ToggleThread.answer =
      [some (.tracked [repeaterA] [(repeaterA, repeaterA.take 12)] 1 8 false),
        some (.tracked [repeaterB] [(repeaterB, repeaterB.take 12)] 1 8 false)] := by
    decide +kernel
  have hlist : overlappingToggles.db.lists .trackedTelemetryRepeaters = [repeaterB] := by
    decide +kernel
  have htargets : overlappingToggles.threads.map (fun t => t.request.target) =
      [.entry .trackedTelemetryRepeaters repeaterA,
        .entry .trackedTelemetryRepeaters repeaterB] := by
    decide +kernel
  refine ⟨Machine.foldl .., hanswers, hlist, fun log h => ?_⟩
  have hfirst : (overlappingToggles.threads.map ToggleThread.answer)[0]? = some
      (some (.tracked [repeaterA] [(repeaterA, repeaterA.take 12)] 1 8 false)) := by
    rw [hanswers]
    rfl
  rw [List.getElem?_map, Option.map_eq_some_iff] at hfirst
  obtain ⟨t, ht, hanswer⟩ := hfirst
  have hentry := h.answers 0 t _ ht hanswer (.inr rfl)
  have htarget : ∀ j t', overlappingToggles.threads[j]? = some t' →
      t'.request.target = .entry .trackedTelemetryRepeaters repeaterA → j = 0 := by
    intro j t' ht' htarget
    have hj := congrArg (·[j]?) htargets
    simp only [List.getElem?_map, ht', Option.map_some, htarget] at hj
    match j with
    | 0 => rfl
    | 1 => exact absurd (Option.some.inj hj) (by decide +kernel)
    | j + 2 => cases hj
  have hrequest : t.request.target = .entry .trackedTelemetryRepeaters repeaterA := by
    have h0 := congrArg (·[0]?) htargets
    simpa only [List.getElem?_map, ht, Option.map_some, List.getElem?_cons_zero,
      Option.some.injEq] using h0
  have hholds := h.sequential.effects.1 (.entry .trackedTelemetryRepeaters repeaterA)
  rw [h.switches_eq_one hentry hrequest htarget, SettingsDb.holds, SettingsDb.holds, hlist]
    at hholds
  exact absurd hholds (by decide +kernel)

/-- Requests for other lists and flags overlap, and the second repeater follows the first. -/
def apartRequests : List ToggleRequest :=
  [.trackedTelemetry repeaterA, .favoriteContact repeaterA, .blockedName ['n'],
    .trackedTelemetry repeaterB]

/-- Requests that overlap but toggle different targets meet the condition, and all succeed. -/
theorem toggles_linearized_first :
    ∃ s, ToggleRun Unchanged (ToggleState.arrived repeatersDb apartRequests) s ∧
      s.log.map ToggleEntry.thread = [2, 1, 0, 3] ∧
      s.db.lists .trackedTelemetryRepeaters = [repeaterA, repeaterB] ∧
      s.db.lists .blockedNames = [['n']] ∧ s.db.flags (.contactFavorite, repeaterA) = true ∧
      Linearized repeatersDb s s.log := by
  have run : ToggleRun Unchanged (ToggleState.arrived repeatersDb apartRequests)
      ([0, 1, 2, 0, 1, 0, 0, 3, 3, 3, 3].foldl ToggleState.apply
        (ToggleState.arrived repeatersDb apartRequests)) :=
    Machine.foldl_of_allOk (by decide +kernel)
  exact ⟨_, run, by decide +kernel, by decide +kernel, by decide +kernel, by decide +kernel,
    (toggles_linearized repeatersDb _ run).1⟩

end Example

end RemoteTerm
