import Mathlib.Data.Rat.Cast.Order
import Mathlib.Tactic.Linarith
import RemoteTerm.Library.Machine

/-!
# The pacing of sends

`paced_send` and `_wait_for_send_gap`: one send at a time, and each waits for the air to clear.
The senders share one lock and the times of the last send and of the last packet that was
heard; packets are heard, messages are stored, acknowledged and deleted, and the clock goes on
at every point of a wait.

## Implementation notes

Times are exact numbers, in seconds, and no clock runs backwards. The senders that wait for
the lock are not told apart: whichever of them gets it is a new `acquire`. The echo watchdog
takes the lock without a wait and sets the time of the last send, but not its message. What a
wait found out is kept with it: when it began, and the gap that it read.
-/

namespace RemoteTerm

open Library

namespace Pacing

/-- `SEND_GAP_QUIET_SECONDS`. -/
def quietSeconds : ℚ := 3

/-- The locals of `_wait_for_send_gap`, and the time at which they were set. -/
structure Wait where
  since : ℚ
  gap : ℚ
  deadline : ℚ
  echoed : Bool
  deriving DecidableEq

/-- What the holder of `_send_gap_lock` does. -/
inductive Holder where
  | free
  | settling
  | waiting (w : Wait)
  | reading (w : Wait) (now : ℚ)
  | sending (gap : ℚ) (sentIds : List Nat)
  | resending
  deriving DecidableEq

structure State where
  now : ℚ
  lastSend : ℚ := 0
  lastSendId : Option Nat := none
  lastRx : ℚ := 0
  acked : Nat → Nat := fun _ => 0
  deleted : Nat → Bool := fun _ => false
  holder : Holder := .free

/-- The next thing that happens. -/
inductive Event where
  | clock (time : ℚ)
  | noteRadioRx
  | ack (id : Nat)
  | delete (id : Nat)
  | acquire
  | gapRead (gap : ℚ)
  | poll
  | rowRead
  | stored (id : Nat)
  | sent
  | cancelled
  | watchdog
  | resent (attempted : Bool)

namespace State

/-- The first lines of `_wait_for_send_gap`, once the gap is known. -/
def startWait (s : State) (gap : ℚ) : Holder :=
  if gap ≤ 0 then .sending gap []
  else if s.lastSend ≠ 0 ∧ s.now < s.lastSend + gap then
    .waiting ⟨s.now, gap, s.lastSend + gap, false⟩
  else .waiting ⟨s.now, gap, s.now + gap, true⟩

/-- The air was quiet at a time. -/
def quietAt (s : State) (now : ℚ) : Bool := now - s.lastRx ≥ quietSeconds

/-- The row of the previous message shows an echo. -/
def echoSeen (s : State) : Bool :=
  match s.lastSendId with
  | none => false
  | some id => !s.deleted id && s.acked id > 0

/-- The end of a turn of the loop: return, or sleep. -/
def settle (s : State) (w : Wait) (now : ℚ) : Holder :=
  if w.echoed ∧ s.quietAt now then .sending w.gap [] else .waiting w

/-- The start of a turn of the loop. -/
def pollWait (s : State) (w : Wait) : Holder :=
  if s.now < w.deadline then
    if !w.echoed ∧ s.lastSendId.isSome then .reading w s.now else s.settle w s.now
  else .sending w.gap []

/-- What an event does. An event that cannot happen leaves the state alone. -/
def apply (s : State) : Event → State
  | .clock time => { s with now := max s.now time }
  | .noteRadioRx => { s with lastRx := s.now }
  | .ack id => { s with acked := fun i => if i = id then s.acked i + 1 else s.acked i }
  | .delete id => { s with deleted := fun i => s.deleted i || i = id }
  | .acquire =>
      match s.holder with
      | .free => { s with holder := .settling }
      | _ => s
  | .gapRead gap =>
      match s.holder with
      | .settling => { s with holder := s.startWait gap }
      | _ => s
  | .poll =>
      match s.holder with
      | .waiting w => { s with holder := s.pollWait w }
      | _ => s
  | .rowRead =>
      match s.holder with
      | .reading w now => { s with holder := s.settle { w with echoed := s.echoSeen } now }
      | _ => s
  | .stored id =>
      match s.holder with
      | .sending gap sentIds => { s with holder := .sending gap (sentIds ++ [id]) }
      | _ => s
  | .sent =>
      match s.holder with
      | .sending _ sentIds =>
          { s with
            lastSend := s.now
            lastSendId := sentIds.head?
            holder := .free }
      | _ => s
  | .cancelled =>
      match s.holder with
      | .settling | .waiting _ | .reading _ _ => { s with holder := .free }
      | _ => s
  | .watchdog =>
      match s.holder with
      | .free => { s with holder := .resending }
      | _ => s
  | .resent attempted =>
      match s.holder with
      | .resending =>
          { s with
            lastSend := if attempted then s.now else s.lastSend
            holder := .free }
      | _ => s

end State

/-- A run from the start of the process. -/
def Run (s t : State) : Prop := Machine State.apply (fun _ _ => True) s t

/-! ### What a wait knows -/

/-- The message of the previous send was acknowledged. -/
def State.wasAcked (s : State) : Prop := ∃ id, s.lastSendId = some id ∧ 0 < s.acked id

/-- The gap after the previous send is over. -/
def State.gapOver (s : State) (gap : ℚ) (time : ℚ) : Prop :=
  s.lastSend = 0 ∨ s.lastSend + gap ≤ time

/-- What holds of the locals of a wait. -/
structure Wait.Knows (w : Wait) (s : State) : Prop where
  gap_pos : 0 < w.gap
  since_le : w.since ≤ s.now
  deadline_le : w.deadline ≤ w.since + w.gap
  gapOver : s.gapOver w.gap w.deadline
  echoed : w.echoed = true → s.wasAcked ∨ s.gapOver w.gap w.since

/-- What may be said of a send that has just begun. -/
def State.MayStart (s : State) (gap : ℚ) : Prop :=
  gap ≤ 0 ∨ s.gapOver gap s.now ∨ (s.lastRx + quietSeconds ≤ s.now ∧ s.wasAcked)

structure Inv (s : State) : Prop where
  lastRx_le : s.lastRx ≤ s.now
  lastSend_le : s.lastSend ≤ s.now
  waiting : ∀ w, s.holder = .waiting w → w.Knows s
  reading : ∀ w now, s.holder = .reading w now → w.Knows s ∧ now ≤ s.now

variable {s : State} {w : Wait} {gap time time' : ℚ}

theorem State.gapOver.mono (h : s.gapOver gap time) (hle : time ≤ time') : s.gapOver gap time' :=
  h.imp_right fun hover => hover.trans hle

theorem wasAcked_of_echoSeen (h : s.echoSeen = true) : s.wasAcked := by
  unfold State.echoSeen at h
  split at h
  next => cases h
  next id hid =>
    simp only [Bool.and_eq_true, decide_eq_true_eq] at h
    exact ⟨id, hid, h.2⟩

theorem quietAt_iff {now : ℚ} : s.quietAt now = true ↔ s.lastRx + quietSeconds ≤ now := by
  unfold State.quietAt
  rw [decide_eq_true_eq, ge_iff_le, le_sub_iff_add_le, add_comm]

/-- A wait keeps what it knows while the clock goes on and messages are acknowledged. -/
theorem Wait.Knows.mono {t : State} (h : w.Knows s) (hnow : s.now ≤ t.now)
    (hsend : t.lastSend = s.lastSend) (hacked : s.wasAcked → t.wasAcked) : w.Knows t := by
  have hover {time : ℚ} (hover : s.gapOver w.gap time) : t.gapOver w.gap time := by
    unfold State.gapOver at hover ⊢
    rwa [hsend]
  exact ⟨h.gap_pos, h.since_le.trans hnow, h.deadline_le, hover h.gapOver,
    fun he => (h.echoed he).imp hacked hover⟩

/-- The start of a wait. -/
theorem knows_of_startWait (h : Inv s) (hw : s.startWait gap = .waiting w) : w.Knows s := by
  unfold State.startWait at hw
  split at hw
  next => cases hw
  next hpos =>
    have hgap : 0 < gap := not_le.mp hpos
    split at hw
    next hflight =>
      obtain rfl := Holder.waiting.inj hw
      refine ⟨hgap, le_rfl, ?_, .inr le_rfl, fun he => by cases he⟩
      exact add_le_add_left h.lastSend_le gap
    next hidle =>
      obtain rfl := Holder.waiting.inj hw
      have hover : s.gapOver gap s.now := by
        by_cases hnever : s.lastSend = 0
        · exact .inl hnever
        · exact .inr (not_lt.mp fun hlt => hidle ⟨hnever, hlt⟩)
      refine ⟨hgap, le_rfl, le_rfl, hover.mono ?_, fun _ => .inr hover⟩
      exact le_add_of_nonneg_right hgap.le

/-- A turn of the loop that does not return keeps the wait. -/
theorem settle_cases {t : ℚ} : (s.settle w t = .sending w.gap [] ∧ w.echoed = true ∧
    s.quietAt t = true) ∨ s.settle w t = .waiting w := by
  unfold State.settle
  split
  next h => exact .inl ⟨rfl, h.1, h.2⟩
  next => exact .inr rfl

theorem knows_of_rowRead (h : w.Knows s) : Wait.Knows { w with echoed := s.echoSeen } s :=
  ⟨h.gap_pos, h.since_le, h.deadline_le, h.gapOver, fun he => .inl (wasAcked_of_echoSeen he)⟩

/-- A send that the loop lets begin before its deadline. -/
theorem mayStart_of_settle {now : ℚ} (h : w.Knows s) (hnow : now ≤ s.now)
    (hechoed : w.echoed = true) (hquiet : s.quietAt now = true) : s.MayStart w.gap := by
  rcases h.echoed hechoed with hacked | hover
  · exact .inr (.inr ⟨(quietAt_iff.mp hquiet).trans hnow, hacked⟩)
  · exact .inr (.inl (hover.mono h.since_le))

namespace Inv

/-- What leaves the holder and the last send alone keeps the invariant. -/
theorem frame {t : State} (h : Inv s) (hholder : t.holder = s.holder) (hnow : s.now ≤ t.now)
    (hrx : t.lastRx ≤ t.now) (hsend : t.lastSend = s.lastSend)
    (hacked : s.wasAcked → t.wasAcked) : Inv t where
  lastRx_le := hrx
  lastSend_le := hsend ▸ h.lastSend_le.trans hnow
  waiting := fun w hw => (h.waiting w (hholder ▸ hw)).mono hnow hsend hacked
  reading := fun w now hw =>
    have hread := h.reading w now (hholder ▸ hw)
    ⟨hread.1.mono hnow hsend hacked, hread.2.trans hnow⟩

/-- What only changes the holder keeps the invariant if its locals are right. -/
theorem hold (h : Inv s) (holder : Holder) (hwaiting : ∀ w, holder = .waiting w → w.Knows s)
    (hreading : ∀ w now, holder = .reading w now → w.Knows s ∧ now ≤ s.now) :
    Inv { s with holder := holder } where
  lastRx_le := h.lastRx_le
  lastSend_le := h.lastSend_le
  waiting := fun w hw => (hwaiting w hw).mono le_rfl rfl id
  reading := fun w now hw =>
    ⟨(hreading w now hw).1.mono le_rfl rfl id, (hreading w now hw).2⟩

theorem poll (h : Inv s) (hw : w.Knows s) : Inv { s with holder := s.pollWait w } := by
  unfold State.pollWait
  split
  next =>
    split
    next =>
      refine h.hold _ (fun w' hw' => by cases hw') fun w' now hw' => ?_
      cases hw'
      exact ⟨hw, le_rfl⟩
    next =>
      rcases settle_cases (s := s) (w := w) (t := s.now) with ⟨hset, -, -⟩ | hset
      · exact hset ▸ h.hold _ (fun w' hw' => by cases hw') fun w' now hw' => by cases hw'
      · refine hset ▸ h.hold _ (fun w' hw' => ?_) fun w' now hw' => by cases hw'
        cases hw'
        exact hw
  next => exact h.hold _ (fun w' hw' => by cases hw') fun w' now hw' => by cases hw'

theorem rowRead (h : Inv s) (hw : w.Knows s) {now : ℚ} :
    Inv { s with holder := s.settle { w with echoed := s.echoSeen } now } := by
  rcases settle_cases (s := s) (w := { w with echoed := s.echoSeen }) (t := now) with
    ⟨hset, -, -⟩ | hset
  · exact hset ▸ h.hold _ (fun w' hw' => by cases hw') fun w' now hw' => by cases hw'
  · refine hset ▸ h.hold _ (fun w' hw' => ?_) fun w' now hw' => by cases hw'
    cases hw'
    exact knows_of_rowRead hw

/-- Every event keeps the invariant. -/
theorem apply (h : Inv s) (e : Event) : Inv (s.apply e) := by
  cases e with
  | clock time =>
      exact h.frame rfl (le_max_left _ _) (h.lastRx_le.trans (le_max_left _ _)) rfl id
  | noteRadioRx => exact h.frame rfl le_rfl le_rfl rfl id
  | ack id =>
      refine h.frame rfl le_rfl h.lastRx_le rfl ?_
      rintro ⟨i, hi, hpos⟩
      refine ⟨i, hi, ?_⟩
      change 0 < if i = id then s.acked i + 1 else s.acked i
      split <;> omega
  | delete id => exact h.frame rfl le_rfl h.lastRx_le rfl fun hacked => hacked
  | acquire =>
      dsimp only [State.apply]
      split
      next => exact h.hold _ (fun w hw => by cases hw) fun w now hw => by cases hw
      next => exact h
  | gapRead gap =>
      dsimp only [State.apply]
      split
      next =>
        refine h.hold _ (fun w hw => knows_of_startWait h hw) fun w now hw => ?_
        unfold State.startWait at hw
        split at hw
        · cases hw
        · split at hw <;> cases hw
      next => exact h
  | poll =>
      dsimp only [State.apply]
      split
      next w hw => exact h.poll (h.waiting w hw)
      next => exact h
  | rowRead =>
      dsimp only [State.apply]
      split
      next w now hw => exact h.rowRead (h.reading w now hw).1
      next => exact h
  | stored id =>
      dsimp only [State.apply]
      split
      next => exact h.hold _ (fun w hw => by cases hw) fun w now hw => by cases hw
      next => exact h
  | sent =>
      dsimp only [State.apply]
      split
      next =>
        exact ⟨h.lastRx_le, le_rfl, fun w hw => (by cases hw), fun w now hw => (by cases hw)⟩
      next => exact h
  | cancelled =>
      dsimp only [State.apply]
      split
      next => exact h.hold _ (fun w hw => by cases hw) fun w now hw => by cases hw
      next => exact h.hold _ (fun w hw => by cases hw) fun w now hw => by cases hw
      next => exact h.hold _ (fun w hw => by cases hw) fun w now hw => by cases hw
      next => exact h
  | watchdog =>
      dsimp only [State.apply]
      split
      next => exact h.hold _ (fun w hw => by cases hw) fun w now hw => by cases hw
      next => exact h
  | resent attempted =>
      dsimp only [State.apply]
      split
      next =>
        refine ⟨h.lastRx_le, ?_, fun w hw => (by cases hw), fun w now hw => (by cases hw)⟩
        change (if attempted then s.now else s.lastSend) ≤ s.now
        split
        · exact le_rfl
        · exact h.lastSend_le
      next => exact h

theorem of_run {start : ℚ} (hstart : 0 ≤ start) (run : Run { now := start } s) : Inv s :=
  run.invariant (fun _ e _ h => h.apply e)
    ⟨hstart, hstart, fun w hw => (by cases hw), fun w now hw => (by cases hw)⟩

end Inv

/-- No one is sending. -/
def State.Idle (s : State) : Prop := ∀ gap ids, s.holder ≠ .sending gap ids

/-- A turn of the loop that returns. -/
theorem mayStart_of_pollWait {ids : List Nat} (hw : w.Knows s)
    (h : s.pollWait w = .sending gap ids) : s.MayStart gap := by
  unfold State.pollWait at h
  split at h
  next =>
    split at h
    next => cases h
    next =>
      rcases settle_cases (s := s) (w := w) (t := s.now) with ⟨hset, hechoed, hquiet⟩ | hset
      · cases hset.symm.trans h
        exact mayStart_of_settle hw le_rfl hechoed hquiet
      · cases hset.symm.trans h
  next hover =>
    cases h
    exact .inr (.inl (hw.gapOver.mono (not_lt.mp hover)))

/-- **Every send waits for the one before it.** In every run, a send begins only when no gap is
set, or the gap after the previous send is over, or the previous message was acknowledged and
nothing was heard for three seconds. -/
theorem paced_send_begins {start : ℚ} (hstart : 0 ≤ start) (run : Run { now := start } s)
    (hidle : s.Idle) (e : Event) {ids : List Nat}
    (hbegins : (s.apply e).holder = .sending gap ids) : s.MayStart gap := by
  have h : Inv s := Inv.of_run hstart run
  cases e with
  | clock | noteRadioRx | ack | delete => exact absurd hbegins (hidle gap ids)
  | stored id =>
      dsimp only [State.apply] at hbegins
      split at hbegins
      next hsending => exact absurd hsending (hidle _ _)
      next => exact absurd hbegins (hidle gap ids)
  | acquire | sent | cancelled | watchdog | resent =>
      dsimp only [State.apply] at hbegins
      split at hbegins
      all_goals first
        | cases hbegins
        | exact absurd hbegins (hidle gap ids)
  | gapRead gap' =>
      dsimp only [State.apply] at hbegins
      split at hbegins
      next =>
        dsimp only [State.startWait] at hbegins
        split at hbegins
        next hnone =>
          cases hbegins
          exact .inl hnone
        next => split at hbegins <;> cases hbegins
      next => exact absurd hbegins (hidle gap ids)
  | poll =>
      dsimp only [State.apply] at hbegins
      split at hbegins
      next w hw => exact mayStart_of_pollWait (h.waiting w hw) hbegins
      next => exact absurd hbegins (hidle gap ids)
  | rowRead =>
      dsimp only [State.apply] at hbegins
      split at hbegins
      next w now hw =>
        obtain ⟨hknows, hnow⟩ := h.reading w now hw
        rcases settle_cases (s := s) (w := { w with echoed := s.echoSeen }) (t := now) with
          ⟨hset, hechoed, hquiet⟩ | hset
        · cases hset.symm.trans hbegins
          exact mayStart_of_settle (knows_of_rowRead hknows) hnow hechoed hquiet
        · cases hset.symm.trans hbegins
      next => exact absurd hbegins (hidle gap ids)

/-- A send, its echo, and the next send in a gap of ten seconds. -/
def secondSend : List Event :=
  [.acquire, .gapRead 0, .stored 7, .sent, .ack 7, .clock 104, .acquire, .gapRead 10, .poll]

/-- The second send begins four seconds after the first. -/
theorem paced_send_begins_echoed :
    (secondSend.foldl State.apply { now := 100 }).MayStart 10 ∧
      (secondSend.foldl State.apply { now := 100 }).now = 104 := by
  have hholder : (secondSend.foldl State.apply { now := 100 }).holder =
      .reading ⟨104, 10, 110, false⟩ 104 := by decide +kernel
  refine ⟨paced_send_begins (by norm_num) (Machine.foldl _ _ _) (fun gap ids h => ?_) .rowRead
    (show _ = Holder.sending 10 [] by decide +kernel), by decide +kernel⟩
  cases hholder.symm.trans h

/-- **No wait is longer than the gap.** In every run, the deadline of a wait is at most the gap
after its begin, and a turn of the loop at the deadline begins the send. -/
theorem wait_bounded {start : ℚ} (hstart : 0 ≤ start) (run : Run { now := start } s)
    (hw : s.holder = .waiting w) :
    w.since ≤ s.now ∧ w.deadline ≤ w.since + w.gap ∧
      (w.since + w.gap ≤ s.now → (s.apply .poll).holder = .sending w.gap []) := by
  have hknows := (Inv.of_run hstart run).waiting w hw
  refine ⟨hknows.since_le, hknows.deadline_le, fun hlate => ?_⟩
  have hover : ¬ s.now < w.deadline := not_lt.mpr (hknows.deadline_le.trans hlate)
  simp only [State.apply, hw, State.pollWait, if_neg hover]

/-- The wait of the second send. -/
theorem wait_bounded_second :
    (secondSend.dropLast.foldl State.apply { now := 100 }).now = 104 ∧
      (104 : ℚ) ≤ 104 ∧ (110 : ℚ) ≤ 104 + 10 := by
  have hholder : (secondSend.dropLast.foldl State.apply { now := 100 }).holder =
      .waiting ⟨104, 10, 110, false⟩ := by decide +kernel
  have hnow : (secondSend.dropLast.foldl State.apply { now := 100 }).now = 104 := by
    decide +kernel
  obtain ⟨hsince, hdeadline, -⟩ := wait_bounded (by norm_num) (Machine.foldl _ _ _) hholder
  exact ⟨hnow, hnow ▸ hsince, hdeadline⟩

end Pacing

end RemoteTerm
