import Mathlib.Data.List.Nodup
import Mathlib.Data.List.Range
import Mathlib.Data.List.Perm.Subperm
import Mathlib.Tactic.IntervalCases
import RemoteTerm.Library.Text

/-!
# The schedule of the telemetry loop

The loop wakes at the top of every hour and collects a list in the hours that its interval
divides. It does not remember the hour it has served, so a sleep that ends early in
such an hour collects a second time.

## Implementation notes

Times are microseconds since a midnight. A turn of the loop is the time that the work after the
last check took, the drift of the sleep, and what the radio and the repository say then. The
checks of a cycle count for the day in which the cycle is due.
-/

namespace RemoteTerm

open Library

namespace TelemetrySchedule

/-! ### The interval -/

/-- `DAILY_CHECK_CEILING`. -/
def dailyCheckCeiling : Nat := 24

/-- `TELEMETRY_INTERVAL_OPTIONS_HOURS`. -/
def telemetryIntervalOptionsHours : List Nat := [1, 2, 3, 4, 6, 8, 12, 24]

/-- `DEFAULT_TELEMETRY_INTERVAL_HOURS`. -/
def defaultTelemetryIntervalHours : Nat := 8

/-- `shortest_legal_interval_hours`. -/
def shortestLegalIntervalHours (nTracked : Nat) : Nat :=
  if nTracked = 0 then defaultTelemetryIntervalHours
  else
    let cyclesPerDay := dailyCheckCeiling / nTracked
    if cyclesPerDay = 0 then 24 else 24 / cyclesPerDay

/-- `clamp_telemetry_interval`. -/
def clampTelemetryInterval (preferredHours : Int) (nTracked : Nat) : Nat :=
  let preferred :=
    if preferredHours ∈ telemetryIntervalOptionsHours.map Int.ofNat then preferredHours.toNat
    else defaultTelemetryIntervalHours
  max preferred (shortestLegalIntervalHours nTracked)

/-! ### The clock -/

/-- A second, in microseconds. -/
def second : Nat := 1000000

/-- An hour, in microseconds. -/
def hour : Nat := 3600 * second

/-- The hours that have passed. -/
def hourIndex (now : Nat) : Nat := now / hour

/-- `now.hour`. -/
def hourOfDay (now : Nat) : Nat := hourIndex now % 24

/-- The UTC day. -/
def day (now : Nat) : Nat := hourIndex now / 24

/-- The next top of the hour. -/
def nextTop (now : Nat) : Nat := (hourIndex now + 1) * hour

/-- `_sleep_until_next_utc_top_of_hour`: the instant that is asked for. -/
def sleepUntilNextUtcTopOfHour (now : Nat) : Nat :=
  let delay := nextTop now - now
  now + if delay < second then second else delay

/-! ### A cycle -/

/-- The two tracked lists. -/
inductive Roster where
  | repeaters
  | contacts
deriving DecidableEq

/-- The settings that the loop reads. -/
structure Settings where
  trackedTelemetryRepeaters : List Text
  trackedTelemetryContacts : List Text
  telemetryIntervalHours : Int
  telemetryRoutedHourly : Bool

def Settings.tracked (settings : Settings) : Roster → List Text
  | .repeaters => settings.trackedTelemetryRepeaters
  | .contacts => settings.trackedTelemetryContacts

/-- The interval of a list after the clamp. -/
def Settings.interval (settings : Settings) (roster : Roster) : Nat :=
  clampTelemetryInterval settings.telemetryIntervalHours (settings.tracked roster).length

/-- What the cycle reads of a contact: its type, and whether it has an effective route with a path
length that is not negative. -/
structure Contact where
  type : Nat
  routed : Bool

/-- What the radio and the repository say when a check is made. -/
structure Answers where
  connected : Bool
  getByKey : Text → Option Contact

/-- The arguments of `_run_telemetry_cycle`. -/
structure Cycle where
  routedOnly : Bool := false
  collectRepeaters : Bool := true
  collectContacts : Bool := true

def Cycle.collects (cycle : Cycle) : Roster → Bool
  | .repeaters => cycle.collectRepeaters
  | .contacts => cycle.collectContacts

/-- The keys of a list that become candidates. -/
def candidatesOf (settings : Settings) (answers : Answers) (cycle : Cycle) (roster : Roster) :
    List Text :=
  (if cycle.collects roster then settings.tracked roster else []).filter fun key =>
    match answers.getByKey key with
    | none => false
    | some contact =>
        (roster == .contacts || contact.type == 2) && (!cycle.routedOnly || contact.routed)

/-- `_run_telemetry_cycle`: the targets that it checks. -/
def runTelemetryCycle (settings : Settings) (answers : Answers) (cycle : Cycle) :
    List (Text × Roster) :=
  if !answers.connected then []
  else
    (candidatesOf settings answers cycle .repeaters).map (·, .repeaters) ++
      (candidatesOf settings answers cycle .contacts).map (·, .contacts)

/-- The modulo gate of one list. -/
def due (settings : Settings) (roster : Roster) (now : Nat) : Bool :=
  0 < (settings.tracked roster).length && hourOfDay now % settings.interval roster == 0

/-- `_maybe_run_scheduled_cycle`: the cycle that it runs. -/
def maybeRunScheduledCycle (settings : Settings) (now : Nat) : Option Cycle :=
  if (settings.tracked .repeaters).length = 0 && (settings.tracked .contacts).length = 0 then none
  else
    let repeatersDue := due settings .repeaters now
    let contactsDue := due settings .contacts now
    if repeatersDue || contactsDue then
      some { collectRepeaters := repeatersDue, collectContacts := contactsDue }
    else if settings.telemetryRoutedHourly then some { routedOnly := true }
    else none

/-! ### The loop -/

/-- A check of the gate: its time, the cycle it runs, and the targets that are checked. -/
structure Check where
  now : Nat
  cycle : Option Cycle
  targets : List (Text × Roster)

/-- Check the gate. -/
def check (settings : Settings) (answers : Answers) (now : Nat) : Check :=
  let cycle := maybeRunScheduledCycle settings now
  { now, cycle, targets := (cycle.map (runTelemetryCycle settings answers)).getD [] }

/-- The list is collected. -/
def Check.collects (c : Check) (roster : Roster) : Bool := c.cycle.any (·.collects roster)

/-- The last check, and the checks before it. -/
structure Schedule where
  last : Check
  earlier : List Check := []

def Schedule.checks (s : Schedule) : List Check := s.last :: s.earlier

/-- One turn of the loop. -/
structure Turn where
  busy : Nat
  drift : Int
  answers : Answers

/-- When the sleep of a turn begins. -/
def sleepStart (s : Schedule) (t : Turn) : Nat := s.last.now + t.busy

/-- When it ends. -/
def wake (s : Schedule) (t : Turn) : Nat :=
  (sleepUntilNextUtcTopOfHour (sleepStart s t) + t.drift).toNat

/-- Sleep, and check the gate again. -/
def turn (settings : Settings) (s : Schedule) (t : Turn) : Schedule where
  last := check settings t.answers (wake s t)
  earlier := s.checks

/-- `_telemetry_collect_loop`, with the check after the initial delay first. -/
def telemetryCollectLoop (settings : Settings) (start : Nat) (answers : Answers)
    (turns : List Turn) : Schedule :=
  turns.foldl (turn settings) { last := check settings answers start }

/-- The targets of a list that were checked on a day. -/
def checksOn (s : Schedule) (roster : Roster) (d : Nat) : Nat :=
  ((s.checks.filter fun c => day c.now == d).map fun c =>
    c.targets.countP fun target => target.2 == roster).sum

/-- The schedule of a list: it is collected at most once in an hour, in hours that its interval
divides, and at most 24 of its targets are checked on a day. -/
structure Budget (settings : Settings) (s : Schedule) (roster : Roster) : Prop where
  once : ((s.checks.filter (·.collects roster)).map fun c => hourIndex c.now).Nodup
  divisible : ∀ c ∈ s.checks, c.collects roster → settings.interval roster ∣ hourOfDay c.now
  ceiling : ∀ d, checksOn s roster d ≤ 24

/-- The sleep begins in the hour of the check before it, in which a list is due, and ends before
the top of the hour that it waits for. -/
def Disturbed (settings : Settings) (s : Schedule) (t : Turn) : Prop :=
  hourIndex (sleepStart s t) = hourIndex s.last.now ∧
    wake s t < nextTop (sleepStart s t) ∧ ∃ roster, due settings roster s.last.now = true

/-- No sleep of the run is disturbed. -/
def Undisturbed (settings : Settings) : Schedule → List Turn → Prop
  | _, [] => True
  | s, t :: turns => ¬ Disturbed settings s t ∧ Undisturbed settings (turn settings s t) turns

/-! ### The interval keeps the ceiling -/

theorem shortestLegalIntervalHours_spec {n : Nat} (hpos : 1 ≤ n) (hle : n ≤ 24) :
    shortestLegalIntervalHours n ∣ 24 ∧ n * (24 / shortestLegalIntervalHours n) ≤ 24 := by
  interval_cases n <;> decide

theorem option_dvd : ∀ hours ∈ telemetryIntervalOptionsHours, hours ∣ 24 := by decide

/-- The effective interval divides a day, and as many cycles keep the ceiling. -/
theorem clampTelemetryInterval_spec (preferredHours : Int) {n : Nat} (hpos : 1 ≤ n)
    (hle : n ≤ 24) :
    clampTelemetryInterval preferredHours n ∣ 24 ∧
      n * (24 / clampTelemetryInterval preferredHours n) ≤ 24 := by
  obtain ⟨hdvd, hceiling⟩ := shortestLegalIntervalHours_spec hpos hle
  unfold clampTelemetryInterval
  extract_lets preferred
  have hpreferred : preferred ∣ 24 := by
    unfold preferred
    split
    next hmem =>
      obtain ⟨hours, hhours, rfl⟩ := List.mem_map.mp hmem
      exact option_dvd hours hhours
    next => decide
  rcases le_total preferred (shortestLegalIntervalHours n) with hmax | hmax
  · rw [max_eq_right hmax]
    exact ⟨hdvd, hceiling⟩
  · rw [max_eq_left hmax]
    refine ⟨hpreferred, le_trans ?_ hceiling⟩
    exact Nat.mul_le_mul_left n
      (Nat.div_le_div_left hmax (Nat.pos_of_dvd_of_pos hdvd (by decide)))

/-! ### Hours -/

theorem hour_pos : 0 < hour := by decide

theorem hourIndex_mono {a b : Nat} (h : a ≤ b) : hourIndex a ≤ hourIndex b :=
  Nat.div_le_div_right h

/-- Before the next top the hour is over only for what comes later. -/
theorem lt_nextTop_iff {now later : Nat} :
    later < nextTop now ↔ hourIndex later ≤ hourIndex now := by
  unfold nextTop
  rw [← Nat.div_lt_iff_lt_mul hour_pos, Nat.lt_succ_iff]
  rfl

/-- The hours of a day that an interval divides. -/
theorem length_le_of_multiples {hours : List Nat} {interval d : Nat} (hdvd : interval ∣ 24)
    (hnodup : hours.Nodup) (h : ∀ x ∈ hours, x / 24 = d ∧ interval ∣ x % 24) :
    hours.length ≤ 24 / interval := by
  have hpos : 0 < interval := Nat.pos_of_dvd_of_pos hdvd (by decide)
  have hmap : (hours.map fun x => x % 24 / interval).Nodup := by
    refine List.Nodup.map_on (fun x hx y hy hxy => ?_) hnodup
    obtain ⟨hxd, hxi⟩ := h x hx
    obtain ⟨hyd, hyi⟩ := h y hy
    have hmod : x % 24 = y % 24 := by
      rw [← Nat.div_mul_cancel hxi, ← Nat.div_mul_cancel hyi, hxy]
    omega
  have hsub : (hours.map fun x => x % 24 / interval) ⊆ List.range (24 / interval) := by
    intro z hz
    obtain ⟨x, hx, rfl⟩ := List.mem_map.mp hz
    rw [List.mem_range]
    exact Nat.div_lt_div_of_lt_of_dvd hdvd (Nat.mod_lt x (by decide))
  have hlength := (hmap.subperm hsub).length_le
  rwa [List.length_map, List.length_range] at hlength

/-- A sum whose terms are bounded where `p` holds and zero elsewhere. -/
theorem sum_le_of_filter {α : Type} {f : α → Nat} {p : α → Bool} {n : Nat} {l : List α}
    (hle : ∀ a ∈ l, f a ≤ n) (hzero : ∀ a ∈ l, p a = false → f a = 0) :
    (l.map f).sum ≤ n * (l.filter p).length := by
  induction l with
  | nil => simp
  | cons a l ih =>
      have ih := ih (fun b hb => hle b (List.mem_cons_of_mem _ hb))
        fun b hb => hzero b (List.mem_cons_of_mem _ hb)
      rw [List.map_cons, List.sum_cons, List.filter_cons]
      split
      next =>
        have hfirst := hle a List.mem_cons_self
        rw [List.length_cons, Nat.mul_succ]
        omega
      next hp =>
        have hfirst := hzero a List.mem_cons_self (by simpa using hp)
        omega

section Gate

variable {settings : Settings} {roster : Roster}

/-- The gate depends on the hour alone. -/
theorem due_congr {a b : Nat} (h : hourIndex a = hourIndex b) :
    due settings roster a = due settings roster b := by
  unfold due hourOfDay
  rw [h]

theorem dvd_of_due {now : Nat} (h : due settings roster now = true) :
    settings.interval roster ∣ hourOfDay now := by
  unfold due at h
  rw [Bool.and_eq_true, beq_iff_eq] at h
  exact Nat.dvd_of_mod_eq_zero h.2

/-- A check collects the lists that are due. -/
theorem check_collects (hoff : settings.telemetryRoutedHourly = false) (answers : Answers)
    (now : Nat) : (check settings answers now).collects roster = due settings roster now := by
  unfold Check.collects check maybeRunScheduledCycle
  split
  next hempty =>
    rw [Bool.and_eq_true, decide_eq_true_eq, decide_eq_true_eq] at hempty
    have hlength : (settings.tracked roster).length = 0 := by
      cases roster with
      | repeaters => exact hempty.1
      | contacts => exact hempty.2
    simp [due, hlength]
  next =>
    dsimp only
    split
    next => cases roster <;> rfl
    next hnone =>
      rw [Bool.or_eq_true, not_or, Bool.not_eq_true, Bool.not_eq_true] at hnone
      rw [hoff]
      cases roster with
      | repeaters => exact hnone.1.symm
      | contacts => exact hnone.2.symm

theorem candidatesOf_length_le (answers : Answers) (cycle : Cycle) :
    (candidatesOf settings answers cycle roster).length ≤ (settings.tracked roster).length := by
  unfold candidatesOf
  refine le_trans (List.length_filter_le _ _) ?_
  split
  · exact le_refl _
  · exact Nat.zero_le _

/-- The targets of a list in a cycle. -/
theorem runTelemetryCycle_countP (answers : Answers) (cycle : Cycle) :
    (runTelemetryCycle settings answers cycle).countP (fun target => target.2 == roster) =
      if answers.connected then (candidatesOf settings answers cycle roster).length else 0 := by
  unfold runTelemetryCycle
  cases answers.connected with
  | false => rfl
  | true => cases roster <;> simp [List.countP_append, List.countP_map, Function.comp_def]

theorem targets_le (answers : Answers) (now : Nat) :
    (check settings answers now).targets.countP (fun target => target.2 == roster) ≤
      (settings.tracked roster).length := by
  unfold check
  cases maybeRunScheduledCycle settings now with
  | none => exact Nat.zero_le _
  | some cycle =>
      change (runTelemetryCycle settings answers cycle).countP _ ≤ _
      rw [runTelemetryCycle_countP]
      split
      · exact candidatesOf_length_le answers cycle
      · exact Nat.zero_le _

/-- A list that is not collected is not checked. -/
theorem targets_eq_zero {answers : Answers} {now : Nat}
    (h : (check settings answers now).collects roster = false) :
    (check settings answers now).targets.countP (fun target => target.2 == roster) = 0 := by
  unfold check Check.collects at h
  unfold check
  cases hcycle : maybeRunScheduledCycle settings now with
  | none => rfl
  | some cycle =>
      rw [hcycle] at h
      change cycle.collects roster = false at h
      change (runTelemetryCycle settings answers cycle).countP _ = 0
      rw [runTelemetryCycle_countP]
      simp [candidatesOf, h]

end Gate

/-! ### Runs -/

section Runs

variable {settings : Settings} {s : Schedule} {t : Turn}

/-- The checks of a run were made by the gate, and none after the last. -/
structure Schedule.Made (settings : Settings) (s : Schedule) : Prop where
  made : ∀ c ∈ s.checks, ∃ answers, c = check settings answers c.now
  ordered : ∀ c ∈ s.checks, c.now ≤ s.last.now

theorem made_start (settings : Settings) (start : Nat) (answers : Answers) :
    Schedule.Made settings { last := check settings answers start } where
  made c hc := by
    rw [List.mem_singleton.mp hc]
    exact ⟨answers, rfl⟩
  ordered c hc := by rw [List.mem_singleton.mp hc]

/-- A sleep does not end before it begins. -/
theorem sleepStart_le_wake (hdrift : t.drift.natAbs ≤ second) : sleepStart s t ≤ wake s t := by
  have hrequest : sleepStart s t + second ≤ sleepUntilNextUtcTopOfHour (sleepStart s t) := by
    unfold sleepUntilNextUtcTopOfHour
    dsimp only
    split <;> omega
  unfold wake
  omega

theorem last_le_wake (hdrift : t.drift.natAbs ≤ second) : s.last.now ≤ wake s t :=
  le_trans (Nat.le_add_right _ _) (sleepStart_le_wake hdrift)

theorem Schedule.Made.turn (h : s.Made settings) (hdrift : t.drift.natAbs ≤ second) :
    (turn settings s t).Made settings where
  made c hc := by
    rcases List.mem_cons.mp hc with rfl | hc
    · exact ⟨t.answers, rfl⟩
    · exact h.made c hc
  ordered c hc := by
    rcases List.mem_cons.mp hc with rfl | hc
    · exact le_refl _
    · exact le_trans (h.ordered c hc) (last_le_wake hdrift)

/-- A disturbed sleep ends in the hour of the check before it. -/
theorem disturbed_iff (hdrift : t.drift.natAbs ≤ second) :
    Disturbed settings s t ↔ hourIndex (wake s t) = hourIndex s.last.now ∧
      ∃ roster, due settings roster s.last.now = true := by
  have hstart : hourIndex s.last.now ≤ hourIndex (sleepStart s t) :=
    hourIndex_mono (Nat.le_add_right _ _)
  have hwake := hourIndex_mono (sleepStart_le_wake (s := s) hdrift)
  unfold Disturbed
  rw [lt_nextTop_iff]
  constructor
  · rintro ⟨hsame, hearly, hdue⟩
    exact ⟨by omega, hdue⟩
  · rintro ⟨hsame, hdue⟩
    exact ⟨by omega, by omega, hdue⟩

/-- The hours in which a list is collected are distinct. -/
def Once (s : Schedule) (roster : Roster) : Prop :=
  ((s.checks.filter (·.collects roster)).map fun c => hourIndex c.now).Nodup

/-- **One turn** collects a list a second time in an hour if it checks the gate in the hour of the
last check, and the list is due then. -/
theorem once_turn_iff (hoff : settings.telemetryRoutedHourly = false) (h : s.Made settings)
    (hdrift : t.drift.natAbs ≤ second) (roster : Roster) :
    Once (turn settings s t) roster ↔ Once s roster ∧
      ¬ (hourIndex (wake s t) = hourIndex s.last.now ∧
        due settings roster s.last.now = true) := by
  have hlast : s.last.collects roster = due settings roster s.last.now := by
    obtain ⟨answers, hmade⟩ := h.made s.last List.mem_cons_self
    rw [hmade, check_collects hoff]
    rfl
  -- the last check is in the hour of the wake if any is, as the checks are ordered
  have hmem : hourIndex (wake s t) ∈
        ((s.checks.filter (·.collects roster)).map fun c => hourIndex c.now) →
      hourIndex (wake s t) = hourIndex s.last.now := by
    intro hin
    obtain ⟨c, hc, hhour⟩ := List.mem_map.mp hin
    have hle := hourIndex_mono (h.ordered c (List.mem_filter.mp hc).1)
    have hwake := hourIndex_mono (last_le_wake (s := s) hdrift)
    omega
  unfold Once
  change ((check settings t.answers (wake s t) :: s.checks).filter _ |>.map _).Nodup ↔ _
  rw [List.filter_cons, check_collects hoff]
  split
  next hdue =>
    rw [List.map_cons, List.nodup_cons, and_comm]
    refine and_congr_right fun _ => not_congr ⟨fun hin => ?_, fun ⟨hsame, hdue'⟩ => ?_⟩
    · exact ⟨hmem hin, (due_congr (hmem hin)).symm.trans hdue⟩
    · exact List.mem_map.mpr
        ⟨s.last, List.mem_filter.mpr ⟨List.mem_cons_self, hlast.trans hdue'⟩, hsame.symm⟩
  next hdue =>
    refine (and_iff_left ?_).symm
    rintro ⟨hsame, hdue'⟩
    exact hdue ((due_congr hsame).trans hdue')

/-- **A run** collects no list twice in an hour if and only if no sleep is disturbed. -/
theorem once_run_iff (hoff : settings.telemetryRoutedHourly = false) {turns : List Turn}
    (hdrift : ∀ t ∈ turns, t.drift.natAbs ≤ second) (h : s.Made settings) :
    (∀ roster, Once (turns.foldl (turn settings) s) roster) ↔
      (∀ roster, Once s roster) ∧ Undisturbed settings s turns := by
  induction turns generalizing s with
  | nil => exact (and_iff_left trivial).symm
  | cons t turns ih =>
      have ht := hdrift t List.mem_cons_self
      rw [List.foldl_cons, ih (fun u hu => hdrift u (List.mem_cons_of_mem _ hu)) (h.turn ht)]
      simp only [once_turn_iff hoff h ht, Undisturbed, disturbed_iff ht, forall_and, not_and,
        not_exists, and_assoc, Bool.not_eq_true]
      refine and_congr_right fun _ => and_congr_left fun _ => ?_
      exact ⟨fun hr hsame roster => hr roster hsame, fun hr roster hsame => hr hsame roster⟩

theorem made_run {turns : List Turn} (hdrift : ∀ t ∈ turns, t.drift.natAbs ≤ second)
    (h : s.Made settings) : (turns.foldl (turn settings) s).Made settings := by
  induction turns generalizing s with
  | nil => exact h
  | cons t turns ih =>
      exact ih (fun u hu => hdrift u (List.mem_cons_of_mem _ hu))
        (h.turn (hdrift t List.mem_cons_self))

/-- A list that is collected once in each of its hours keeps the budget. -/
theorem budget_of_once (hoff : settings.telemetryRoutedHourly = false) (h : s.Made settings)
    {roster : Roster} (hpos : 1 ≤ (settings.tracked roster).length)
    (hle : (settings.tracked roster).length ≤ 24) (honce : Once s roster) :
    Budget settings s roster := by
  have hdivisible : ∀ c ∈ s.checks, c.collects roster →
      settings.interval roster ∣ hourOfDay c.now := by
    intro c hc hcollects
    obtain ⟨answers, hmade⟩ := h.made c hc
    rw [hmade, check_collects hoff] at hcollects
    exact dvd_of_due hcollects
  refine ⟨honce, hdivisible, fun d => ?_⟩
  obtain ⟨hdvd, hceiling⟩ :=
    clampTelemetryInterval_spec settings.telemetryIntervalHours hpos hle
  refine le_trans (sum_le_of_filter (p := (·.collects roster)) ?_ ?_)
    (le_trans (Nat.mul_le_mul_left _ ?_) hceiling)
  · intro c hc
    obtain ⟨answers, hmade⟩ := h.made c (List.mem_filter.mp hc).1
    rw [hmade]
    exact targets_le answers _
  · intro c hc hcollects
    obtain ⟨answers, hmade⟩ := h.made c (List.mem_filter.mp hc).1
    rw [hmade] at hcollects ⊢
    exact targets_eq_zero hcollects
  · have hnodup : (((s.checks.filter fun c => day c.now == d).filter (·.collects roster)).map
        fun c => hourIndex c.now).Nodup :=
      honce.sublist ((List.filter_sublist.filter _).map _)
    have hcount := length_le_of_multiples (d := d) hdvd hnodup ?_
    · rwa [List.length_map] at hcount
    · intro x hx
      obtain ⟨c, hc, rfl⟩ := List.mem_map.mp hx
      obtain ⟨hday, hcollects⟩ := List.mem_filter.mp hc
      rw [List.mem_filter, beq_iff_eq] at hday
      exact ⟨hday.2, hdivisible c hday.1 hcollects⟩

end Runs

/-- **The budget is kept if and only if no sleep is disturbed**: in every run of the loop with fixed
lists, both of 1 to 24 targets, and sleeps that end up to a second before or after the instant asked
for. -/
theorem telemetry_budget_iff {settings : Settings}
    (hoff : settings.telemetryRoutedHourly = false)
    (htracked : ∀ roster, 1 ≤ (settings.tracked roster).length ∧
      (settings.tracked roster).length ≤ 24)
    (start : Nat) (answers : Answers) {turns : List Turn}
    (hdrift : ∀ t ∈ turns, t.drift.natAbs ≤ second) :
    (∀ roster, Budget settings (telemetryCollectLoop settings start answers turns) roster) ↔
      Undisturbed settings { last := check settings answers start } turns := by
  have hmade := made_start settings start answers
  have hfirst : ∀ roster, Once { last := check settings answers start } roster := by
    intro roster
    unfold Once
    refine List.Nodup.map_on (fun a ha b hb _ => ?_) ?_
    · rw [List.mem_singleton.mp (List.mem_filter.mp ha).1,
        List.mem_singleton.mp (List.mem_filter.mp hb).1]
    · exact (List.nodup_singleton _).filter _
  rw [← (and_iff_right hfirst : _ ↔ Undisturbed settings _ turns),
    ← once_run_iff hoff hdrift hmade]
  constructor
  · exact fun h roster => (h roster).once
  · exact fun h roster => budget_of_once hoff (made_run hdrift hmade) (htracked roster).1
      (htracked roster).2 (h roster)

/-- Twenty-four repeaters and one contact. -/
def manyTargets : Settings where
  trackedTelemetryRepeaters := (List.range 24).map fun i => [Char.ofNat (97 + i)]
  trackedTelemetryContacts := ["z".toList]
  telemetryIntervalHours := 8
  telemetryRoutedHourly := false

/-- A connected radio, and a repository in which every contact is a repeater. -/
def allAnswer : Answers where
  connected := true
  getByKey _ := some { type := 2, routed := false }

theorem telemetry_budget_onTime :
    Budget manyTargets (telemetryCollectLoop manyTargets (60 * second) allAnswer
      [{ busy := 10 * second, drift := 0, answers := allAnswer }]) .repeaters := by
  have htracked : ∀ roster, 1 ≤ (manyTargets.tracked roster).length ∧
      (manyTargets.tracked roster).length ≤ 24 := by
    intro roster
    cases roster <;> decide
  refine (telemetry_budget_iff rfl htracked (60 * second) allAnswer (by decide)).mpr ?_ .repeaters
  exact ⟨fun h => absurd h.2.1 (by decide), trivial⟩

/-- A sleep that ends half a second early, in the first hour of the day: every repeater is checked
twice in that hour, which makes 48 checks on the day. -/
theorem collected_twice_in_an_hour :
    let s := telemetryCollectLoop manyTargets (60 * second) allAnswer
      [{ busy := 10 * second, drift := -500000, answers := allAnswer }]
    ¬ ((s.checks.filter (·.collects .repeaters)).map fun c => hourIndex c.now).Nodup ∧
      checksOn s .repeaters 0 = 48 := by
  decide

end TelemetrySchedule

end RemoteTerm
