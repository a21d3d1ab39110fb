import RemoteTerm.Library.Protocol
import RemoteTerm.Send.SlotCache

/-!
# A reused slot holds its channel

Sends follow a protocol of planning, configuring and using a slot. When no
configuration that takes a cached slot is applied and then lost, by a cancellation
or for want of an answer, every slot that is used as it is holds the secret of the
channel that it is used for.
-/

namespace RemoteTerm

open Library Library.Protocol

/-- What a task does with the radio's slots: nothing, nothing under the lock, or one of the steps
from the plan of a slot to its use. -/
inductive SlotPhase where
  | idle
  | held
  | planned (key : Text) (slot : Int) (evicted : Option Text)
  | configured (key : Text) (slot : Int)
  | refused (evicted : Text) (slot : Int)
  | resident (key : Text) (slot : Int)

/-- Calls that touch neither the cache nor the radio's slots. -/
def ScopedOp.touchesNoSlot : ScopedOp → Bool
  | .getSettings | .rememberPathHashMode _ | .reportError _ => true
  | .command (.setChannel ..) | .command (.sendChanMsg ..) => false
  | .command _ => true
  | _ => false

namespace SlotPhase

/-- The phases under the operation lock. -/
def Holds : SlotPhase → Prop
  | .idle => False
  | _ => True

/-- The phases in which the lock is given back. -/
def Ready : SlotPhase → Prop
  | .held | .resident .. => True
  | _ => False

theorem Ready.holds {l : SlotPhase} (h : l.Ready) : l.Holds := by
  cases l with
  | idle => exact h.elim
  | _ => trivial

/-- The calls of a scoped send in each phase. -/
def AllowsScoped : SlotPhase → ScopedOp → Prop
  | .held, .planChannelSendSlot .. => True
  | .planned key slot _, .command (.setChannel slot' _ secret) =>
      slot' = slot ∧ bytesOfHex key = some secret
  | .configured key slot, .noteChannelSlotLoaded key' slot' => key' = key ∧ slot' = slot
  | .refused evicted _, .invalidateCachedChannelSlot key => key = evicted
  | .resident _ slot, .command (.sendChanMsg slot' _ _) => slot' = slot
  | .resident .., .noteChannelSlotUsed _ | .resident .., .invalidateCachedChannelSlot _ => True
  | l, op => l.Holds ∧ op.touchesNoSlot = true

/-- The phase after the answer to a `set_channel`. -/
def afterConfigure (key : Text) (slot : Int) (evicted : Option Text) : CommandReply → SlotPhase
  | .ok => .configured key slot
  | .error | .raised => evicted.elim .held fun key => .refused key slot
  | .noResponse | .cancelled => .held

/-- The phase of a scoped send after a call and its answer. -/
def afterScoped : SlotPhase → (op : ScopedOp) → op.Ans → SlotPhase
  | .held, .planChannelSendSlot key _, (slot, needsConfigure, evicted) =>
      if needsConfigure then .planned key slot evicted else .resident key slot
  | .planned key slot evicted, .command (.setChannel ..), reply =>
      afterConfigure key slot evicted reply
  | .configured key slot, .noteChannelSlotLoaded .., _ => .resident key slot
  | .refused .., .invalidateCachedChannelSlot _, _ => .held
  | l, _, _ => l

/-- The calls of a task in each phase. -/
def Allows : SlotPhase → SlotOp → Prop
  | .idle, .acquireOperationLock => True
  | l, .releaseOperationLock => l.Ready
  | l, .inSend op => l.AllowsScoped op
  | .held, .reconnect _ | .held, .loadDeviceInfo _ => True
  | _, _ => False

/-- The phase after a call and its answer. -/
def after : SlotPhase → (op : SlotOp) → op.Ans → SlotPhase
  | l, .acquireOperationLock, granted => if granted then .held else l
  | _, .releaseOperationLock, _ => .idle
  | l, .inSend op, x => l.afterScoped op x
  | l, _, _ => l

end SlotPhase

/-- The protocol of a scoped send under the lock. -/
def scopedProtocol : Protocol ScopedOp ScopedOp.Ans SlotPhase :=
  ⟨SlotPhase.AllowsScoped, SlotPhase.afterScoped⟩

/-- The protocol of the tasks that work on the radio's slots. -/
def slotProtocol : Protocol SlotOp SlotOp.Ans SlotPhase := ⟨SlotPhase.Allows, SlotPhase.after⟩

section Tasks

variable {l : SlotPhase} {α : Type}

theorem touchesNoSlot_allowed {op : ScopedOp} (hop : op.touchesNoSlot = true) (hl : l.Holds) :
    l.AllowsScoped op ∧ ∀ x, l.afterScoped op x = l := by
  cases op with
  | getSettings => cases l <;> exact ⟨⟨hl, rfl⟩, fun _ => rfl⟩
  | rememberPathHashMode mode => cases l <;> exact ⟨⟨hl, rfl⟩, fun _ => rfl⟩
  | reportError report => cases l <;> exact ⟨⟨hl, rfl⟩, fun _ => rfl⟩
  | command command =>
      cases command with
      | setChannel slot name secret => exact absurd hop Bool.false_ne_true
      | sendChanMsg slot text timestamp => exact absurd hop Bool.false_ne_true
      | _ => cases l <;> exact ⟨⟨hl, rfl⟩, fun _ => rfl⟩
  | _ => exact absurd hop Bool.false_ne_true

/-- What touches no slot is allowed everywhere under the lock and changes no phase. -/
theorem follows_of_touchesNoSlot {p : ScopedTask α} (hl : l.Holds)
    (hp : p.Calls fun op => op.touchesNoSlot = true) :
    scopedProtocol.Follows (fun _ l' => l' = l) p l :=
  follows_of_calls (fun _ hop => touchesNoSlot_allowed hop hl) hp

theorem transmitFromSlot_follows (c : ChannelSend) (key : Text) (slot : Int)
    (timestampBytes : Bytes) :
    scopedProtocol.Follows (fun _ l => l.Ready) (transmitFromSlot c slot timestampBytes)
      (.resident key slot) := by
  refine follows_await_bind.mpr ⟨rfl, fun reply => ?_⟩
  cases reply with
  | ok => exact ⟨trivial, fun _ => trivial⟩
  | error => exact ⟨trivial, fun _ => trivial⟩
  | noResponse => trivial
  | raised => trivial
  | cancelled => trivial

/-- A configured slot is resident; a send whose configuration failed is where it was. -/
theorem configureSlot_follows (c : KeyedSend) (slot : Int) (evicted : Option Text) :
    scopedProtocol.Follows
      (fun failure l => l = failure.elim (.resident c.channelKey slot) fun _ => .held)
      (configureSlot c.toChannelSend slot evicted) (.planned c.channelKey slot evicted) := by
  refine follows_await_bind.mpr ⟨⟨rfl, c.keyed⟩, fun reply => ?_⟩
  have hevict : scopedProtocol.Follows
      (fun failure l => l = failure.elim (.resident c.channelKey slot) fun _ => .held)
      (do invalidateEvicted evicted; pure (some ScopedOutcome.raised))
      (evicted.elim .held fun key => .refused key slot) := by
    cases evicted with
    | none => rfl
    | some key => exact ⟨rfl, fun _ => rfl⟩
  cases reply with
  | ok => exact ⟨⟨rfl, rfl⟩, fun _ => rfl⟩
  | error => exact hevict
  | raised => exact hevict
  | noResponse => rfl
  | cancelled => rfl

theorem sendFromSlot_follows (c : KeyedSend) (timestampBytes : Bytes) :
    scopedProtocol.Follows (fun _ l => l.Ready) (sendFromSlot c.toChannelSend timestampBytes)
      .held := by
  refine follows_await_bind.mpr ⟨trivial, ?_⟩
  rintro ⟨slot, needsConfigure, evicted⟩
  cases needsConfigure with
  | false => exact transmitFromSlot_follows c.toChannelSend c.channelKey slot timestampBytes
  | true =>
      refine Follows.bind ((configureSlot_follows c slot evicted).mono ?_)
      rintro failure _ rfl
      cases failure with
      | none => exact transmitFromSlot_follows c.toChannelSend c.channelKey slot timestampBytes
      | some outcome => trivial

theorem applyAndSend_follows (c : KeyedSend) (timestampBytes : Bytes)
    {overrides : List RadioCommand}
    (hquiet : ∀ command ∈ overrides, (ScopedOp.command command).touchesNoSlot = true) :
    scopedProtocol.Follows (fun _ l => l.Ready)
      (applyAndSend c.toChannelSend timestampBytes overrides) .held := by
  induction overrides with
  | nil => exact sendFromSlot_follows c timestampBytes
  | cons override overrides ih =>
      have hrest := ih fun command hcommand => hquiet command (List.mem_cons_of_mem _ hcommand)
      obtain ⟨hallowed, hafter⟩ := touchesNoSlot_allowed (l := .held)
        (hquiet override List.mem_cons_self) trivial
      refine Follows.bind (follows_await_bind.mpr ⟨hallowed, fun reply => ?_⟩)
      change scopedProtocol.Follows _ _ (SlotPhase.afterScoped .held _ reply)
      rw [hafter reply]
      cases reply with
      | ok => exact hrest
      | noResponse => exact hrest
      | error => trivial
      | raised => trivial
      | cancelled => trivial

/-- A scope is set by a command that touches no slot. -/
theorem floodScopeCommand_touchesNoSlot (firmwareVersion : Option Nat) (scope : Text) :
    (ScopedOp.command (floodScopeCommand firmwareVersion scope)).touchesNoSlot = true := by
  simp only [floodScopeCommand]
  split_ifs <;> rfl

/-- Settings are restored without a look at the slots. -/
theorem restoreAll_calls (outcome : ScopedOutcome) {restores : List Restore}
    (hquiet : ∀ r ∈ restores, (ScopedOp.command r.command).touchesNoSlot = true ∧
      r.onRestored.Calls fun op => op.touchesNoSlot = true) :
    (restoreAll outcome restores).Calls fun op => op.touchesNoSlot = true := by
  induction restores with
  | nil => trivial
  | cons r rest ih =>
      have hrest := ih fun r' hr' => hquiet r' (List.mem_cons_of_mem _ hr')
      obtain ⟨hcommand, honRestored⟩ := hquiet r List.mem_cons_self
      have htry : (tryRestore r.command r.onRestored).Calls fun op =>
          op.touchesNoSlot = true := by
        refine Program.Calls.bind (Program.calls_await.mpr hcommand) fun reply => ?_
        have hrestored : (r.onRestored >>= fun _ => pure Program.Attempt.done).Calls fun op =>
            op.touchesNoSlot = true := honRestored.bind fun _ => trivial
        cases reply with
        | ok => exact hrestored
        | noResponse => exact hrestored
        | _ => trivial
      refine Program.Calls.bind (Program.Calls.retry htry 3) fun restored => ?_
      cases restored with
      | done => exact hrest
      | failed => exact Program.Calls.bind (Program.calls_await.mpr rfl) fun _ => hrest
      | aborted => trivial

theorem channelScopeChange_calls (c : ChannelSend) :
    (channelScopeChange c).Calls fun op => op.touchesNoSlot = true := by
  unfold channelScopeChange
  split
  split
  · exact Program.Calls.bind (Program.calls_await.mpr rfl) fun _ => trivial
  · trivial

theorem sendChannelMessage_follows (m : ManagerView) (c : KeyedSend) (timestampBytes : Bytes) :
    scopedProtocol.Follows (fun _ l => l.Ready)
      (sendChannelMessageWithEffectiveScope m c.toChannelSend timestampBytes) .held := by
  refine Follows.bind
    ((follows_of_touchesNoSlot (l := .held) trivial (channelScopeChange_calls _)).mono ?_)
  rintro scopeChange _ rfl
  refine Follows.bind ((applyAndSend_follows c timestampBytes ?_).mono fun outcome l hl => ?_)
  · intro command hcommand
    rcases List.mem_append.mp hcommand with hscope | hmode
    · obtain ⟨change, -, rfl⟩ := Option.map_eq_some_iff.mp (Option.mem_toList.mp hscope)
      exact floodScopeCommand_touchesNoSlot m.firmwareVersion change.1
    · obtain ⟨mode, -, rfl⟩ := Option.map_eq_some_iff.mp (Option.mem_toList.mp hmode)
      rfl
  · refine (follows_of_touchesNoSlot hl.holds (restoreAll_calls outcome fun r hr => ?_)).mono ?_
    · rcases List.mem_append.mp hr with hscope | hmode
      · obtain ⟨change, -, rfl⟩ := Option.map_eq_some_iff.mp (Option.mem_toList.mp hscope)
        exact ⟨floodScopeCommand_touchesNoSlot m.firmwareVersion change.2, trivial⟩
      · obtain ⟨mode, -, rfl⟩ := Option.map_eq_some_iff.mp (Option.mem_toList.mp hmode)
        exact ⟨rfl, Program.calls_await.mpr rfl⟩
    · rintro _ _ rfl
      exact hl

/-- A scoped send is a part of a task. -/
theorem follows_inScopedSend {Q : α → SlotPhase → Prop} {p : ScopedTask α}
    (h : scopedProtocol.Follows Q p l) : slotProtocol.Follows Q (inScopedSend p) l := by
  apply Follows.hoist _ h
  intro op l hop
  cases l <;> exact ⟨hop, fun _ => rfl⟩

/-- A part of a task under the lock that gives the lock back where it may. -/
theorem underOperationLock_follows {body : SlotTask α}
    (h : slotProtocol.Follows (fun _ l => l.Ready) body .held) :
    slotProtocol.Follows (fun _ l => l = .idle) (underOperationLock body) .idle := by
  refine follows_await_bind.mpr ⟨trivial, fun granted => ?_⟩
  cases granted with
  | false => rfl
  | true =>
      refine Follows.bind (h.mono fun _ l hl => ?_)
      cases l with
      | held => exact ⟨trivial, fun _ => rfl⟩
      | resident key slot => exact ⟨trivial, fun _ => rfl⟩
      | _ => exact hl.elim

theorem SlotWork.task_follows (w : SlotWork) :
    slotProtocol.Follows (fun _ l => l = .idle) w.task .idle := by
  cases w with
  | send m c timestampBytes =>
      exact underOperationLock_follows
        (follows_inScopedSend (sendChannelMessage_follows m c timestampBytes))
  | reconnect connectionInfo => exact underOperationLock_follows ⟨trivial, fun _ => trivial⟩
  | loadDeviceInfo maxChannels => exact underOperationLock_follows ⟨trivial, fun _ => trivial⟩

end Tasks

section Invariant

/-- Every cached slot but one holds the secret of its key. -/
def SlotState.Coherent (s : SlotState) (but : Option Int) : Prop :=
  ∀ k n, s.slots.slotByKey.get? k = some n → some n ≠ but → s.radio n = bytesOfHex k

/-- What a task relies on in each phase. -/
def SlotPhase.Ok (s : SlotState) : SlotPhase → Prop
  | .idle => True
  | .held => s.operationLock = true ∧ s.Coherent none
  | .planned key slot evicted => s.operationLock = true ∧ s.Coherent none ∧ s.sending = key ∧
      ∀ k, s.slots.slotByKey.get? k = some slot → evicted = some k
  | .configured key slot => s.operationLock = true ∧ s.Coherent (some slot) ∧ s.sending = key ∧
      s.radio slot = bytesOfHex key
  | .refused evicted slot => s.operationLock = true ∧ s.Coherent (some slot) ∧
      ∀ k, s.slots.slotByKey.get? k = some slot → k = evicted
  | .resident key slot => s.operationLock = true ∧ s.Coherent none ∧ s.sending = key ∧
      s.radio slot = bytesOfHex key

/-- Every task has what it relies on, one at most has the lock, the cache is well formed and is
coherent while the lock is free, and what was used so far was right. -/
structure SlotsSafe (s : SlotState) (ls : Nat → SlotPhase) : Prop where
  ok : ∀ i, (ls i).Ok s
  unique : ∀ i j, (ls i).Holds → (ls j).Holds → i = j
  wellFormed : s.slots.WellFormed
  free : s.operationLock = false → s.Coherent none
  reused : ∀ e ∈ s.reused, e.2 = bytesOfHex e.1
  transmitted : ∀ e ∈ s.transmitted, e.2 = bytesOfHex e.1

variable {s s' : SlotState} {ls : Nat → SlotPhase} {i : Nat} {l : SlotPhase}

theorem SlotPhase.Ok.locked (h : l.Ok s) (hl : l.Holds) : s.operationLock = true := by
  cases l with
  | idle => exact hl.elim
  | _ => exact h.1

theorem SlotPhase.Ok.of_not_holds (hl : ¬ l.Holds) : l.Ok s' := by
  cases l with
  | idle => trivial
  | _ => exact absurd trivial hl

/-- The holder of the lock moves. -/
theorem SlotsSafe.move (h : SlotsSafe s ls) (hl : (ls i).Holds) (hmine : l.Ok s')
    (hwellFormed : s'.slots.WellFormed) (hfree : s'.operationLock = false → s'.Coherent none)
    (hreused : ∀ e ∈ s'.reused, e.2 = bytesOfHex e.1)
    (htransmitted : ∀ e ∈ s'.transmitted, e.2 = bytesOfHex e.1) :
    SlotsSafe s' (Function.update ls i l) where
  ok := (Function.forall_update_iff ls fun _ l => l.Ok s').mpr
    ⟨hmine, fun j hj => .of_not_holds fun hother => hj (h.unique j i hother hl)⟩
  unique := unique_update h.unique fun _ j hj hother => hj (h.unique j i hother hl)
  wellFormed := hwellFormed
  free := hfree
  reused := hreused
  transmitted := htransmitted

/-- The holder of the lock moves and keeps the lock. -/
theorem SlotsSafe.stay (h : SlotsSafe s ls) (hl : (ls i).Holds) (hmine : l.Ok s') (hl' : l.Holds)
    (hwellFormed : s'.slots.WellFormed)
    (hreused : ∀ e ∈ s'.reused, e.2 = bytesOfHex e.1)
    (htransmitted : ∀ e ∈ s'.transmitted, e.2 = bytesOfHex e.1) :
    SlotsSafe s' (Function.update ls i l) :=
  h.move hl hmine hwellFormed (fun hfree => (nomatch (hmine.locked hl').symm.trans hfree))
    hreused htransmitted

/-- Nothing is changed by a call that leaves the state and the phase alone. -/
theorem SlotsSafe.same (h : SlotsSafe s ls) (hl : l = ls i) :
    SlotsSafe s (Function.update ls i l) := by
  rw [hl, Function.update_eq_self]
  exact h

/-- The operation lock is taken while nobody has it. -/
theorem SlotsSafe.acquire (h : SlotsSafe s ls) (hlock : s.operationLock = false) :
    SlotsSafe { s with operationLock := true } (Function.update ls i .held) where
  ok := by
    have hnone : ∀ j, ¬ (ls j).Holds := fun j hj =>
      (nomatch hlock.symm.trans ((h.ok j).locked hj))
    exact (Function.forall_update_iff ls fun _ l => l.Ok _).mpr
      ⟨⟨rfl, h.free hlock⟩, fun j _ => .of_not_holds (hnone j)⟩
  unique := by
    have hnone : ∀ j, ¬ (ls j).Holds := fun j hj =>
      (nomatch hlock.symm.trans ((h.ok j).locked hj))
    exact unique_update h.unique fun _ j _ => hnone j
  wellFormed := h.wellFormed
  free := nofun
  reused := h.reused
  transmitted := h.transmitted

/-- A configuration of a cached slot that is applied, and whose end forgets nothing. -/
def SlotChoice.LosesConfiguration (c : SlotChoice) (s : SlotState) : SlotOp → Prop
  | .inSend (.command (.setChannel slot _ _)) =>
      c.applied = true ∧ (c.reply = .noResponse ∨ c.reply = .cancelled) ∧
        s.slots.keyBySlot.get? slot ≠ none
  | _ => False

theorem performScoped_touchesNoSlot {op : ScopedOp} (hop : op.touchesNoSlot = true)
    (c : SlotChoice) (s : SlotState) : (performScoped c op s).2 = s := by
  cases op with
  | getSettings => rfl
  | rememberPathHashMode mode => rfl
  | reportError report => rfl
  | command command =>
      cases command with
      | setChannel slot name secret => exact absurd hop Bool.false_ne_true
      | sendChanMsg slot text timestamp => exact absurd hop Bool.false_ne_true
      | _ => rfl
  | _ => exact absurd hop Bool.false_ne_true

/-- The plan of a send. -/
theorem SlotsSafe.plan (h : SlotsSafe s ls) (hphase : ls i = .held) (channelKey : Text)
    (preferredSlot : Int) :
    SlotsSafe (planSlot channelKey preferredSlot s).2 (Function.update ls i
      (SlotPhase.afterScoped .held (.planChannelSendSlot channelKey preferredSlot)
        (planSlot channelKey preferredSlot s).1)) := by
  have hholds : (ls i).Holds := by
    rw [hphase]
    trivial
  have hi := h.ok i
  rw [hphase] at hi
  obtain ⟨hlock, hcoherent⟩ := hi
  rcases hplan : s.slots.planChannelSendSlot channelKey preferredSlot with
    ⟨slot, needsConfigure, evicted⟩
  have hspec := h.wellFormed.planChannelSendSlot channelKey preferredSlot hplan
  simp only [planSlot, hplan]
  cases needsConfigure with
  | true =>
      rw [if_pos rfl] at hspec
      exact h.stay hholds ⟨hlock, hcoherent, rfl, hspec⟩ trivial h.wellFormed h.reused
        h.transmitted
  | false =>
      have hcached : s.slots.slotByKey.get? (upper channelKey) = some slot := by simpa using hspec
      have hradio : s.radio slot = bytesOfHex channelKey :=
        (hcoherent _ slot hcached (Option.some_ne_none slot)).trans (bytesOfHex_upper channelKey)
      refine h.stay hholds ⟨hlock, hcoherent, rfl, hradio⟩ trivial h.wellFormed ?_ h.transmitted
      intro e he
      rcases List.mem_append.mp he with he | he
      · exact h.reused e he
      · rw [List.mem_singleton.mp he]
        exact hradio

/-- A `set_channel` changes at most its own slot, and does so when it is answered `OK`. -/
theorem commandRadio_setChannel (c : SlotChoice) (slot : Int) (name : Text) (secret : Bytes)
    (s : SlotState) :
    ∃ radio, commandRadio c (.setChannel slot name secret) s = { s with radio } ∧
      (∀ n, n ≠ slot → radio n = s.radio n) ∧ (c.reply = .ok → radio slot = some secret) ∧
      (c.reply ≠ .ok → c.applied = false → radio slot = s.radio slot) := by
  by_cases happlied : c.reply = .ok ∨ c.applied = true
  · refine ⟨_, if_pos happlied, fun n hn => Function.update_of_ne hn .., fun _ =>
      Function.update_self .., fun hok hnot => ?_⟩
    rcases happlied with h | h
    · exact absurd h hok
    · exact (nomatch hnot.symm.trans h)
  · exact ⟨s.radio, if_neg happlied, fun _ _ => rfl, fun hok => absurd (Or.inl hok) happlied,
      fun _ _ => rfl⟩

/-- The configuration of a planned slot, when it is not lost. -/
theorem SlotsSafe.configure (h : SlotsSafe s ls) {key : Text} {slot : Int} {evicted : Option Text}
    (hphase : ls i = .planned key slot evicted) {name : Text} {secret : Bytes}
    (hsecret : bytesOfHex key = some secret) {c : SlotChoice}
    (hkept : ¬ c.LosesConfiguration s (.inSend (.command (.setChannel slot name secret)))) :
    SlotsSafe (commandRadio c (.setChannel slot name secret) s)
      (Function.update ls i (SlotPhase.afterConfigure key slot evicted c.reply)) := by
  have hholds : (ls i).Holds := by
    rw [hphase]
    trivial
  have hi := h.ok i
  rw [hphase] at hi
  obtain ⟨hlock, hcoherent, hsending, hevicted⟩ := hi
  obtain ⟨radio, hs', hothers, hloaded, hunchanged⟩ :=
    commandRadio_setChannel c slot name secret s
  rw [hs']
  have hbut : SlotState.Coherent { s with radio } (some slot) := by
    intro k n hk hn
    have hne : n ≠ slot := fun heq => hn (congrArg some heq)
    exact (hothers n hne).trans (hcoherent k n hk nofun)
  have hmove : ∀ l : SlotPhase, l.Holds → l.Ok { s with radio } →
      SlotsSafe { s with radio } (Function.update ls i l) := fun l hl hmine =>
    h.stay hholds hmine hl h.wellFormed h.reused h.transmitted
  have hforgotten : SlotsSafe { s with radio }
      (Function.update ls i (evicted.elim .held fun key => .refused key slot)) := by
    cases evicted with
    | none =>
        refine hmove .held trivial ⟨hlock, fun k n hk _ => hbut k n hk fun heq => ?_⟩
        exact (nomatch hevicted k (Option.some.inj heq ▸ hk))
    | some evictedKey =>
        exact hmove (.refused evictedKey slot) trivial
          ⟨hlock, hbut, fun k hk => (Option.some.inj (hevicted k hk)).symm⟩
  have hended : c.reply ≠ .ok → (c.reply = .noResponse ∨ c.reply = .cancelled) →
      SlotsSafe { s with radio } (Function.update ls i .held) := by
    intro hok hreply
    refine hmove .held trivial ⟨hlock, fun k n hk _ => ?_⟩
    by_cases hn : n = slot
    · subst hn
      have hcached := (h.wellFormed.paired k n).mp hk
      have hnot : c.applied = false := by
        by_contra happlied
        exact hkept ⟨by simpa using happlied, hreply, by simp [hcached]⟩
      exact (hunchanged hok hnot).trans (hcoherent k n hk nofun)
    · exact hbut k n hk fun heq => hn (Option.some.inj heq)
  cases hreply : c.reply with
  | ok =>
      exact hmove (.configured key slot) trivial
        ⟨hlock, hbut, hsending, (hloaded hreply).trans hsecret.symm⟩
  | error => exact hforgotten
  | raised => exact hforgotten
  | noResponse => exact hended (by simp [hreply]) (Or.inl hreply)
  | cancelled => exact hended (by simp [hreply]) (Or.inr hreply)

/-- A loaded slot is noted. -/
theorem SlotsSafe.noteLoaded (h : SlotsSafe s ls) {key : Text} {slot : Int}
    (hphase : ls i = .configured key slot) :
    SlotsSafe { s with slots := s.slots.noteChannelSlotLoaded key slot }
      (Function.update ls i (.resident key slot)) := by
  have hi := h.ok i
  rw [hphase] at hi
  obtain ⟨hlock, hcoherent, hsending, hradio⟩ := hi
  refine h.stay (by rw [hphase]; trivial) ⟨hlock, ?_, hsending, hradio⟩ trivial
    (h.wellFormed.noteLoaded key slot) h.reused h.transmitted
  intro k n hk _
  by_cases hreuse : s.slots.channelSlotReuseEnabled = true
  · rcases (h.wellFormed.noteLoaded_get? key slot hreuse k n).1.mp hk with
      ⟨rfl, rfl⟩ | ⟨-, hn, hcached⟩
    · exact hradio.trans (bytesOfHex_upper key).symm
    · exact hcoherent k n hcached fun heq => hn (Option.some.inj heq)
  · have hsame : s.slots.noteChannelSlotLoaded key slot = s.slots := if_neg hreuse
    rw [hsame] at hk
    have hnone := h.wellFormed.disabled (by simpa using hreuse) k
    exact (nomatch hnone.symm.trans hk)

/-- A message is transmitted from a resident slot. -/
theorem SlotsSafe.transmit (h : SlotsSafe s ls) {key : Text} {slot : Int}
    (hphase : ls i = .resident key slot) (c : SlotChoice) (text : Text) (timestamp : Bytes) :
    SlotsSafe (commandRadio c (.sendChanMsg slot text timestamp) s)
      (Function.update ls i (.resident key slot)) := by
  have hi := h.ok i
  rw [hphase] at hi
  obtain ⟨hlock, hcoherent, hsending, hradio⟩ := hi
  refine h.stay (by rw [hphase]; trivial) ⟨hlock, hcoherent, hsending, hradio⟩ trivial
    h.wellFormed h.reused ?_
  intro e he
  rcases List.mem_append.mp he with he | he
  · exact h.transmitted e he
  · rw [List.mem_singleton.mp he]
    exact hradio.trans (congrArg bytesOfHex hsending).symm

/-- The place of a used slot is noted. -/
theorem SlotsSafe.noteUsed (h : SlotsSafe s ls) {key : Text} {slot : Int}
    (hphase : ls i = .resident key slot) (channelKey : Text) :
    SlotsSafe { s with slots := s.slots.noteChannelSlotUsed channelKey }
      (Function.update ls i (.resident key slot)) := by
  have hi := h.ok i
  rw [hphase] at hi
  obtain ⟨hlock, hcoherent, hsending, hradio⟩ := hi
  refine h.stay (by rw [hphase]; trivial) ⟨hlock, ?_, hsending, hradio⟩ trivial
    (h.wellFormed.noteUsed channelKey) h.reused h.transmitted
  intro k n hk _
  exact hcoherent k n ((h.wellFormed.noteUsed_get? channelKey k n).1.mp hk) nofun

/-- A key is forgotten; a key whose slot could not be configured is the only one to forget. -/
theorem SlotsSafe.invalidate (h : SlotsSafe s ls) (channelKey : Text)
    (hl : (ls i).Holds) (hl' : l.Holds)
    (hmine : SlotState.Coherent
      { s with slots := s.slots.invalidateCachedChannelSlot channelKey } none →
      l.Ok { s with slots := s.slots.invalidateCachedChannelSlot channelKey })
    (hcoherent : ∀ k n, k ≠ upper channelKey → s.slots.slotByKey.get? k = some n →
      s.radio n = bytesOfHex k) :
    SlotsSafe { s with slots := s.slots.invalidateCachedChannelSlot channelKey }
      (Function.update ls i l) := by
  refine h.stay hl (hmine ?_) hl' (h.wellFormed.invalidate channelKey) h.reused h.transmitted
  intro k n hk _
  obtain ⟨hkey, hcached⟩ := (h.wellFormed.invalidate_get? channelKey k n).1.mp hk
  exact hcoherent k n hkey hcached

/-- One call of a scoped send, where its phase allows it, keeps the invariant when it loses no
configuration. -/
theorem slotsSafe_scoped {op : ScopedOp} {c : SlotChoice} (h : SlotsSafe s ls)
    (hallowed : (ls i).AllowsScoped op) (hkept : ¬ c.LosesConfiguration s (.inSend op)) :
    SlotsSafe (performScoped c op s).2
      (Function.update ls i ((ls i).afterScoped op (performScoped c op s).1)) := by
  by_cases hquiet : op.touchesNoSlot = true
  · rw [performScoped_touchesNoSlot hquiet]
    have hholds : (ls i).Holds := by
      cases hphase : ls i with
      | idle =>
          rw [hphase] at hallowed
          exact hallowed.1
      | _ => trivial
    exact h.same ((touchesNoSlot_allowed hquiet hholds).2 _)
  · cases hphase : ls i with
    | idle =>
        rw [hphase] at hallowed
        exact hallowed.1.elim
    | held =>
        rw [hphase] at hallowed
        cases op with
        | planChannelSendSlot channelKey preferredSlot => exact h.plan hphase channelKey preferredSlot
        | _ => exact absurd hallowed.2 hquiet
    | planned key slot evicted =>
        rw [hphase] at hallowed
        cases op with
        | command command =>
            cases command with
            | setChannel slot' name secret =>
                obtain ⟨rfl, hsecret⟩ := hallowed
                exact h.configure hphase hsecret hkept
            | _ => exact absurd hallowed.2 hquiet
        | _ => exact absurd hallowed.2 hquiet
    | configured key slot =>
        rw [hphase] at hallowed
        cases op with
        | noteChannelSlotLoaded key' slot' =>
            obtain ⟨rfl, rfl⟩ := hallowed
            exact h.noteLoaded hphase
        | _ => exact absurd hallowed.2 hquiet
    | refused evicted slot =>
        rw [hphase] at hallowed
        have hi := h.ok i
        rw [hphase] at hi
        obtain ⟨hlock, hcoherent, hevicted⟩ := hi
        cases op with
        | invalidateCachedChannelSlot key =>
            obtain rfl : key = evicted := hallowed
            refine h.invalidate key (by rw [hphase]; trivial) trivial (fun hmine => ⟨hlock, hmine⟩) ?_
            intro k n hkey hcached
            refine hcoherent k n hcached fun heq => hkey ?_
            obtain rfl := hevicted k (Option.some.inj heq ▸ hcached)
            exact (h.wellFormed.normal k n hcached).symm
        | _ => exact absurd hallowed.2 hquiet
    | resident key slot =>
        rw [hphase] at hallowed
        have hi := h.ok i
        rw [hphase] at hi
        obtain ⟨hlock, hcoherent, hsending, hradio⟩ := hi
        cases op with
        | command command =>
            cases command with
            | sendChanMsg slot' text timestamp =>
                obtain rfl : slot' = slot := hallowed
                exact h.transmit hphase c text timestamp
            | _ => exact absurd hallowed.2 hquiet
        | noteChannelSlotUsed channelKey => exact h.noteUsed hphase channelKey
        | invalidateCachedChannelSlot channelKey =>
            exact h.invalidate channelKey (by rw [hphase]; trivial) trivial
              (fun hmine => ⟨hlock, hmine, hsending, hradio⟩)
              fun k n _ hcached => hcoherent k n hcached nofun
        | _ => exact absurd hallowed.2 hquiet

/-- The calls of the tasks, when no configuration of a cached slot is lost. -/
def slottingKept : Program.Semantics SlotOp SlotOp.Ans SlotState :=
  fun op s x s' => ∃ c : SlotChoice, ¬ c.LosesConfiguration s op ∧
    performSlots c op s = some (x, s')

theorem slotsSafe_step {op : SlotOp} {x : op.Ans} (h : SlotsSafe s ls)
    (hallowed : (ls i).Allows op) (hx : slottingKept op s x s') :
    SlotsSafe s' (Function.update ls i ((ls i).after op x)) := by
  obtain ⟨c, hkept, hc⟩ := hx
  cases op with
  | acquireOperationLock =>
      simp only [performSlots] at hc
      split at hc
      next =>
        simp only [Option.some.injEq, Prod.mk.injEq] at hc
        obtain ⟨rfl, rfl⟩ := hc
        exact h.same (by cases ls i <;> rfl)
      next =>
        simp only [Option.ite_none_left_eq_some, Option.some.injEq, Prod.mk.injEq] at hc
        obtain ⟨hfree, rfl, rfl⟩ := hc
        have hheld : (ls i).after .acquireOperationLock true = .held := by cases ls i <;> rfl
        rw [hheld]
        exact h.acquire (by simpa using hfree)
  | releaseOperationLock =>
      simp only [performSlots, Option.some.injEq, Prod.mk.injEq] at hc
      obtain ⟨-, rfl⟩ := hc
      have hready : (ls i).Ready := by
        cases hphase : ls i <;> rw [hphase] at hallowed <;> exact hallowed
      have hcoherent : s.Coherent none := by
        have hi := h.ok i
        cases hphase : ls i <;> rw [hphase] at hi hready
        case held => exact hi.2
        case resident => exact hi.2.1
        all_goals exact hready.elim
      have hidle : (ls i).after .releaseOperationLock () = .idle := by cases ls i <;> rfl
      rw [hidle]
      exact h.move hready.holds trivial h.wellFormed (fun _ => hcoherent) h.reused h.transmitted
  | inSend op =>
      simp only [performSlots, Option.some.injEq] at hc
      obtain ⟨rfl, rfl⟩ := Prod.mk.inj ((Prod.eta _).trans hc)
      have hscoped : (ls i).AllowsScoped op := by
        cases hphase : ls i <;> rw [hphase] at hallowed <;> exact hallowed
      have hafter : (ls i).after (.inSend op) (performScoped c op s).1 =
          (ls i).afterScoped op (performScoped c op s).1 := by
        cases ls i <;> rfl
      rw [hafter]
      exact slotsSafe_scoped h hscoped hkept
  | reconnect connectionInfo =>
      simp only [performSlots, Option.some.injEq, Prod.mk.injEq] at hc
      obtain ⟨-, rfl⟩ := hc
      cases hphase : ls i <;> rw [hphase] at hallowed
      case held =>
        have hlock := (h.ok i).locked (by rw [hphase]; trivial)
        have hempty : ∀ k n, (OrderedMap.empty : OrderedMap Text Int).get? k = some n → False :=
          fun _ _ hk => (nomatch hk)
        refine h.stay (by rw [hphase]; trivial) ⟨hlock, fun k n hk => (hempty k n hk).elim⟩ trivial
          ⟨fun k n => ?_, fun k n hk => (hempty k n hk).elim, fun _ k => rfl⟩ h.reused h.transmitted
        exact ⟨fun hk => (hempty k n hk).elim, fun hn => (nomatch hn)⟩
      all_goals exact hallowed.elim
  | loadDeviceInfo maxChannels =>
      simp only [performSlots, Option.some.injEq, Prod.mk.injEq] at hc
      obtain ⟨-, rfl⟩ := hc
      cases hphase : ls i <;> rw [hphase] at hallowed
      case held =>
        have hi := h.ok i
        rw [hphase] at hi
        exact h.stay (by rw [hphase]; trivial) hi trivial
          ⟨h.wellFormed.paired, h.wellFormed.normal, h.wellFormed.disabled⟩ h.reused h.transmitted
      all_goals exact hallowed.elim

end Invariant

section Runs

/-- In every run that loses no configuration of a cached slot, a slot that is planned to be used as
it is holds the secret of its key, and so does every slot that a message is transmitted from. -/
theorem channel_slots_coherent {forceChannelSlotReconfigure : Bool} {connectionInfo : Option Text}
    {connectionType : Text} {radio : Int → Option Bytes} {works : List SlotWork}
    {q : Pool SlotOp SlotOp.Ans Unit SlotState}
    (run : Pool.Run slottingKept Pool.always
      (slotPool forceChannelSlotReconfigure connectionInfo connectionType radio works) q) :
    (∀ e ∈ q.shared.reused, e.2 = bytesOfHex e.1) ∧
      ∀ e ∈ q.shared.transmitted, e.2 = bytesOfHex e.1 := by
  have hidle : slotProtocol.Follow (fun _ l => l = .idle) .idle
      (slotPool forceChannelSlotReconfigure connectionInfo connectionType radio works)
      fun _ => .idle := by
    apply follow_idle
    intro t ht
    obtain ⟨w, -, rfl⟩ := List.mem_map.mp ht
    exact w.task_follows
  have hstart : SlotsSafe
      (slotPool forceChannelSlotReconfigure connectionInfo connectionType radio works).shared
      fun _ => .idle :=
    ⟨fun _ => trivial, fun _ _ hl => hl.elim, ChannelSlots.wellFormed_reset
      { forceChannelSlotReconfigure, connectionInfo, connectionType },
      fun _ _ _ hk => (nomatch hk), fun _ he => absurd he List.not_mem_nil,
      fun _ he => absurd he List.not_mem_nil⟩
  obtain ⟨ls, -, hq⟩ := Follow.run (I := SlotsSafe) run
    (fun _ hI _ _ hallowed hx => slotsSafe_step hI hallowed hx) hidle hstart
  exact ⟨hq.reused, hq.transmitted⟩

end Runs

section Sample

/-- Two channels on a radio with one slot. -/
def firstChannel : KeyedSend where
  channelKey := "AA".toList
  keyBytes := [0xAA]
  text := "one".toList
  sentAt := 1700000000
  keyed := by decide

/-- The second channel. -/
def secondChannel : KeyedSend where
  channelKey := "BB".toList
  keyBytes := [0xBB]
  text := "two".toList
  sentAt := 1700000000
  keyed := by decide

/-- The first channel is used, then the second, then the first again. -/
def alternatingSends : Pool SlotOp SlotOp.Ans Unit SlotState :=
  slotPool false none "serial".toList (fun _ => none)
    [.loadDeviceInfo 1, .send {} firstChannel [], .send {} secondChannel [],
      .send {} firstChannel []]

instance (c : SlotChoice) (s : SlotState) (op : SlotOp) : Decidable (c.LosesConfiguration s op) := by
  unfold SlotChoice.LosesConfiguration
  split <;> infer_instance

/-- Perform one call that loses no configuration. -/
def performKept (c : SlotChoice) (op : SlotOp) (s : SlotState) : Option (op.Ans × SlotState) :=
  if c.LosesConfiguration s op then none else performSlots c op s

/-- A command that is answered `OK`. -/
def answered : SlotChoice := {}

/-- The first channel is used twice, then the second, then the first again. -/
def repeatedSends : Pool SlotOp SlotOp.Ans Unit SlotState :=
  slotPool false none "serial".toList (fun _ => none)
    [.loadDeviceInfo 1, .send {} firstChannel [], .send {} firstChannel [],
      .send {} secondChannel [], .send {} firstChannel []]

/-- Every command is answered; the second send finds its channel in the slot. -/
def answeredSends : List (Nat × SlotChoice) :=
  (List.replicate 3 0 ++ List.replicate 7 1 ++ List.replicate 5 2 ++ List.replicate 7 3 ++
    List.replicate 7 4).map (·, answered)

/-- Each of the messages goes out under its own channel, the second from a slot that is reused. -/
theorem channel_slots_coherent_answeredSends :
    ∃ q, Pool.Run slottingKept Pool.always repeatedSends q ∧ q.Finished ∧
      q.shared.transmitted.length = 4 ∧ q.shared.reused.length = 1 ∧
      (∀ e ∈ q.shared.reused, e.2 = bytesOfHex e.1) ∧
        ∀ e ∈ q.shared.transmitted, e.2 = bytesOfHex e.1 := by
  have hexec : (Pool.exec performKept (fun _ _ _ => true) answeredSends repeatedSends).any
      (fun q => decide (q.Finished ∧ q.shared.transmitted.length = 4 ∧
        q.shared.reused.length = 1)) = true := by
    decide +kernel
  obtain ⟨q, hrun, hfinished, hlength, hreused⟩ := Pool.exec_reaches hexec
  have hsemantics : ∀ op s x s', Program.Semantics.ofFunction performKept op s x s' →
      slottingKept op s x s' := by
    rintro op s x s' ⟨c, hc⟩
    simp only [performKept, Option.ite_none_left_eq_some] at hc
    exact ⟨c, hc.1, hc.2⟩
  have run : Pool.Run slottingKept Pool.always repeatedSends q :=
    (hrun.ofSemantics hsemantics).mono fun _ _ _ => trivial
  exact ⟨q, run, hfinished, hlength, hreused, channel_slots_coherent run⟩

/-- The second channel is loaded into the slot of the first, and its send is cancelled there. -/
def cancelledSend : List (Nat × SlotChoice) :=
  (List.replicate 3 0 ++ List.replicate 7 1 ++ [2, 2]).map (·, answered) ++
    [(2, { reply := .cancelled, applied := true })] ++ (2 :: List.replicate 5 3).map (·, answered)

/-- The last message of the first channel goes out under the secret of the second. -/
theorem cancelled_send_mixes_channels :
    ∃ q, Pool.Run slotting Pool.always alternatingSends q ∧ q.Finished ∧
      (∃ e ∈ q.shared.reused, e.2 ≠ bytesOfHex e.1) ∧
      ∃ e ∈ q.shared.transmitted, e.2 ≠ bytesOfHex e.1 := by
  have hexec : (Pool.exec performSlots (fun _ _ _ => true) cancelledSend alternatingSends).any
      (fun q => decide (q.Finished ∧ (∃ e ∈ q.shared.reused, e.2 ≠ bytesOfHex e.1) ∧
        ∃ e ∈ q.shared.transmitted, e.2 ≠ bytesOfHex e.1)) = true := by
    decide +kernel
  obtain ⟨q, hrun, hend⟩ := Pool.exec_reaches hexec
  exact ⟨q, hrun.mono fun _ _ _ => trivial, hend⟩

end Sample

end RemoteTerm
