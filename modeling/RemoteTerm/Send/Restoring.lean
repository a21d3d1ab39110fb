import RemoteTerm.Send.ChannelScope

/-!
# What a scoped send leaves on the radio

A scoped send sets the flood scope and the path hash mode of the radio and
restores them after the transmission. Each command of a run is answered and
carried out as a script of the radio says. From the script it is decided when a
setting is back at its value or reported: a restore that is not answered is taken
for one that was carried out.

## Implementation notes

The flood scope of the radio is the last scope command that it carried out. A
script numbers the commands of each setting from the start of the send.
-/

namespace RemoteTerm

open Library

section Setting

/-- What one command to the radio comes to: an answer, or none or an exception, after which it
may have been carried out. -/
inductive CommandOutcome where
  | ok
  | error
  | unanswered (applied : Bool)
  | raised (applied : Bool)
  deriving DecidableEq, Repr, Inhabited

namespace CommandOutcome

/-- The radio carried the command out. -/
def applied : CommandOutcome → Bool
  | .ok => true
  | .error => false
  | .unanswered applied => applied
  | .raised applied => applied

/-- The sender takes the command for carried out. -/
def accepted : CommandOutcome → Bool
  | .ok => true
  | .unanswered _ => true
  | _ => false

/-- The answer that a channel send sees. -/
def commandReply : CommandOutcome → CommandReply
  | .ok => .ok
  | .error => .error
  | .unanswered _ => .noResponse
  | .raised _ => .raised

/-- The answer that a direct send sees. -/
def radioReply : CommandOutcome → RadioReply
  | .ok => .ok none none
  | .error => .error
  | .unanswered _ => .noResponse
  | .raised _ => .raised

end CommandOutcome

/-- What the radio makes of the commands to one setting, in their order. -/
abbrev Script := Nat → CommandOutcome

/-- A setting of the radio: its value, and how many commands were given to it. -/
structure Setting (V : Type) where
  value : V
  commands : Nat := 0

namespace Setting

variable {V : Type} (script : Script)

/-- Give a setting a value. -/
def set (v : V) (s : Setting V) : Setting V where
  value := if (script s.commands).applied then v else s.value
  commands := s.commands + 1

/-- Set a value until a command is accepted, in a number of attempts. -/
def restore (v : V) : Nat → Setting V → Program.Attempt × Setting V
  | 0, s => (.failed, s)
  | attempts + 1, s =>
      if (script s.commands).accepted then (.done, s.set script v)
      else restore v attempts (s.set script v)

/-- No command of an attempted restore is accepted. -/
def Refused (attempts start : Nat) : Prop :=
  ∀ j < attempts, (script (start + j)).accepted = false

/-- Some command of a restore is carried out, before which none is accepted. -/
def CarriedOut (attempts start : Nat) : Prop :=
  ∃ j < attempts, (script (start + j)).applied = true ∧
    ∀ i < j, (script (start + i)).accepted = false

instance (attempts start : Nat) : Decidable (Refused script attempts start) := by
  unfold Refused
  infer_instance

instance (attempts start : Nat) : Decidable (CarriedOut script attempts start) := by
  unfold CarriedOut
  infer_instance

variable {script}

theorem refused_succ {attempts start : Nat} :
    Refused script (attempts + 1) start ↔
      (script start).accepted = false ∧ Refused script attempts (start + 1) := by
  constructor
  · intro h
    refine ⟨h 0 (by omega), fun j hj => ?_⟩
    rw [show start + 1 + j = start + (j + 1) by omega]
    exact h (j + 1) (by omega)
  · rintro ⟨h, hrest⟩ (_ | j) hj
    · exact h
    · rw [show start + (j + 1) = start + 1 + j by omega]
      exact hrest j (by omega)

theorem carriedOut_succ {attempts start : Nat} :
    CarriedOut script (attempts + 1) start ↔ (script start).applied = true ∨
      (script start).accepted = false ∧ CarriedOut script attempts (start + 1) := by
  constructor
  · rintro ⟨j, hj, happlied, hbefore⟩
    cases j with
    | zero => exact .inl happlied
    | succ j =>
        refine .inr ⟨hbefore 0 (by omega), j, by omega, ?_, fun i hi => ?_⟩
        · rwa [show start + 1 + j = start + (j + 1) by omega]
        · rw [show start + 1 + i = start + (i + 1) by omega]
          exact hbefore (i + 1) (by omega)
  · rintro (happlied | ⟨hfirst, j, hj, happlied, hbefore⟩)
    · exact ⟨0, by omega, happlied, fun i hi => absurd hi (by omega)⟩
    · refine ⟨j + 1, by omega, ?_, ?_⟩
      · rwa [show start + (j + 1) = start + 1 + j by omega]
      · rintro (_ | i) hi
        · exact hfirst
        · rw [show start + (i + 1) = start + 1 + i by omega]
          exact hbefore i (by omega)

/-- A restore fails when every attempt is refused. -/
theorem restore_fst (v : V) (attempts : Nat) (s : Setting V) :
    (s.restore script v attempts).1 =
      if Refused script attempts s.commands then .failed else .done := by
  induction attempts generalizing s with
  | zero => simp [restore, Refused]
  | succ attempts ih =>
      simp only [restore, refused_succ]
      cases (script s.commands).accepted with
      | true => simp
      | false =>
          rw [if_neg (by simp), ih]
          exact if_congr (by simp [set]) rfl rfl

/-- A restore leaves the value it sets when some attempt was carried out. -/
theorem restore_value (v : V) (attempts : Nat) (s : Setting V) :
    (s.restore script v attempts).2.value =
      if CarriedOut script attempts s.commands then v else s.value := by
  induction attempts generalizing s with
  | zero => simp [restore, CarriedOut]
  | succ attempts ih =>
      simp only [restore, carriedOut_succ]
      cases haccepted : (script s.commands).accepted with
      | true => simp [set]
      | false =>
          rw [if_neg (by simp), ih]
          simp only [set]
          cases (script s.commands).applied <;> simp

end Setting

section Retry

variable {Op : Type} {Ans : Op → Type} {σ V : Type} {act : (op : Op) → σ → Option (Ans op × σ)}

/-- Attempts that each give a setting one value restore it. -/
theorem run_retry (get : σ → Setting V) (put : Setting V → σ → σ)
    (hget : ∀ s w, get (put s w) = s) (hput : ∀ s s' w, put s (put s' w) = put s w)
    (hself : ∀ w, put (get w) w = w) {attempt : Program Op Ans Program.Attempt} {script : Script}
    {v : V} (hattempt : ∀ w, attempt.run act w =
      some (if (script (get w).commands).accepted then .done else .failed,
        put ((get w).set script v) w)) (attempts : Nat) (w : σ) :
    (Program.retry attempt attempts).run act w =
      some (((get w).restore script v attempts).1, put ((get w).restore script v attempts).2 w) := by
  induction attempts generalizing w with
  | zero => simp [Program.retry, Program.run, Setting.restore, hself]
  | succ attempts ih =>
      simp only [Program.retry, Program.run_bind, hattempt, Option.bind_some, Setting.restore]
      cases (script (get w).commands).accepted with
      | true => rfl
      | false =>
          refine (ih _).trans ?_
          rw [hget, hput]
          rfl

end Retry

end Setting

section Radio

/-- What the radio makes of the commands of a send, the settings that the send reads, and the
slot that it is given. -/
structure RadioScript where
  floodScope : Script
  pathHashMode : Script
  setChannel : CommandOutcome := .ok
  sendChanMsg : CommandOutcome := .ok
  directReply : RadioReply := .noResponse
  settings : AppSettings := {}
  planned : Int × Bool × Option Text := (0, true, none)

/-- The settings of the radio that a send changes, and the reports it makes. -/
structure RadioSettings where
  floodScope : Setting RadioCommand
  pathHashMode : Setting Int
  reports : List RestoreReport := []

namespace RadioSettings

/-- The settings before a send. -/
def start (floodScope : RadioCommand) (pathHashMode : Int) : RadioSettings where
  floodScope := ⟨floodScope, 0⟩
  pathHashMode := ⟨pathHashMode, 0⟩

def withFloodScope (s : Setting RadioCommand) (w : RadioSettings) : RadioSettings :=
  { w with floodScope := s }

def withPathHashMode (s : Setting Int) (w : RadioSettings) : RadioSettings :=
  { w with pathHashMode := s }

def report (r : RestoreReport) (w : RadioSettings) : RadioSettings :=
  { w with reports := r :: w.reports }

end RadioSettings

namespace RadioScript

variable (b : RadioScript)

/-- What a command comes to, and the settings after it. -/
def command (c : RadioCommand) (w : RadioSettings) : CommandOutcome × RadioSettings :=
  match c with
  | .setFloodScope _ | .forceUnscoped =>
      (b.floodScope w.floodScope.commands, w.withFloodScope (w.floodScope.set b.floodScope c))
  | .setPathHashMode mode =>
      (b.pathHashMode w.pathHashMode.commands,
        w.withPathHashMode (w.pathHashMode.set b.pathHashMode mode))
  | .setChannel .. => (b.setChannel, w)
  | _ => (b.sendChanMsg, w)

/-- The answers to a channel send. -/
def answerScoped : (op : ScopedOp) → RadioSettings → Option (op.Ans × RadioSettings)
  | .getSettings, w => some (b.settings, w)
  | .command c, w => some ((b.command c w).1.commandReply, (b.command c w).2)
  | .planChannelSendSlot .., w => some (b.planned, w)
  | .reportError r, w => some ((), w.report r)
  | .noteChannelSlotLoaded .., w | .noteChannelSlotUsed _, w | .invalidateCachedChannelSlot _, w
  | .rememberPathHashMode _, w => some ((), w)

/-- The answers to a direct send inside a flood scope. -/
def answerDirect : (op : Op) → RadioSettings → Option (op.Ans × RadioSettings)
  | .getSettings, w => some (b.settings, w)
  | .radio (.sendMsg ..), w => some (b.directReply, w)
  | .radio c, w => some ((b.command c w).1.radioReply, (b.command c w).2)
  | .reportError r, w => some ((), w.report r)
  | _, _ => none

variable {b}

/-- A flood scope is set by one of two commands. -/
theorem floodScopeCommand_cases (firmwareVersion : Option Nat) (scope : Text) :
    (∃ scope', floodScopeCommand firmwareVersion scope = .setFloodScope scope') ∨
      floodScopeCommand firmwareVersion scope = .forceUnscoped := by
  simp only [floodScopeCommand]
  split_ifs
  · exact .inl ⟨_, rfl⟩
  · exact .inr rfl
  · exact .inl ⟨_, rfl⟩

theorem command_floodScope (firmwareVersion : Option Nat) (scope : Text) (w : RadioSettings) :
    b.command (floodScopeCommand firmwareVersion scope) w =
      (b.floodScope w.floodScope.commands, w.withFloodScope
        (w.floodScope.set b.floodScope (floodScopeCommand firmwareVersion scope))) := by
  rcases floodScopeCommand_cases firmwareVersion scope with ⟨scope', h⟩ | h <;> rw [h] <;> rfl

/-- What follows the attempts to restore one setting: the report of a failure. -/
def reportFailed (report : RestoreReport) (restored : Program.Attempt) (w : RadioSettings) :
    RadioSettings :=
  if restored = .failed then w.report report else w

/-- Restore the flood scope in three attempts. -/
def restoreFloodScope (b : RadioScript) (command : RadioCommand) (w : RadioSettings) :
    RadioSettings :=
  let restored := w.floodScope.restore b.floodScope command 3
  reportFailed .floodScope restored.1 (w.withFloodScope restored.2)

/-- Restore the path hash mode in three attempts. -/
def restorePathHashMode (b : RadioScript) (mode : Int) (w : RadioSettings) : RadioSettings :=
  let restored := w.pathHashMode.restore b.pathHashMode mode 3
  reportFailed .pathHashMode restored.1 (w.withPathHashMode restored.2)

section Effects

variable {w : RadioSettings}

theorem mem_reportFailed {report r : RestoreReport} {ended : Program.Attempt} :
    r ∈ (reportFailed report ended w).reports ↔
      (r = report ∧ ended = .failed) ∨ r ∈ w.reports := by
  unfold reportFailed
  split
  next h => simp [RadioSettings.report, h]
  next h => simp [h]

@[simp] theorem reportFailed_floodScope {report : RestoreReport} {ended : Program.Attempt} :
    (reportFailed report ended w).floodScope = w.floodScope := by
  unfold reportFailed
  split <;> rfl

@[simp] theorem reportFailed_pathHashMode {report : RestoreReport} {ended : Program.Attempt} :
    (reportFailed report ended w).pathHashMode = w.pathHashMode := by
  unfold reportFailed
  split <;> rfl

end Effects

section Scoped

variable {outcome : ScopedOutcome} {rest : List Restore} {w : RadioSettings}

theorem run_reported {r : Restore} {restored : Program.Attempt} {w₁ : RadioSettings}
    (hretry : (Program.retry (tryRestore r.command r.onRestored) 3).run b.answerScoped w =
      some (restored, w₁)) (hnotAborted : restored ≠ .aborted) :
    (restoreAll outcome (r :: rest)).run b.answerScoped w =
      (restoreAll outcome rest).run b.answerScoped (reportFailed r.report restored w₁) := by
  simp only [restoreAll, Program.run_bind, hretry, Option.bind_some]
  cases restored with
  | done => rfl
  | failed => rfl
  | aborted => exact absurd rfl hnotAborted

/-- A restore is not left before it is done or has failed. -/
theorem restore_ne_aborted {V : Type} {script : Script} {v : V} {attempts : Nat} {s : Setting V} :
    (s.restore script v attempts).1 ≠ .aborted := by
  rw [Setting.restore_fst]
  split <;> simp

theorem run_restoreFloodScope (firmwareVersion : Option Nat) (scope : Text) :
    (restoreAll outcome ({ command := floodScopeCommand firmwareVersion scope
                           report := .floodScope } :: rest)).run b.answerScoped w =
      (restoreAll outcome rest).run b.answerScoped
        (b.restoreFloodScope (floodScopeCommand firmwareVersion scope) w) := by
  refine run_reported (run_retry RadioSettings.floodScope
    RadioSettings.withFloodScope (fun _ _ => rfl) (fun _ _ _ => rfl) (fun _ => rfl)
    (fun w => ?_) 3 w) restore_ne_aborted
  simp only [tryRestore, Program.run_bind, Program.run, answerScoped, command_floodScope,
    Program.await, Option.bind_some]
  cases b.floodScope w.floodScope.commands <;> rfl

theorem run_restorePathHashMode (mode : Int) :
    (restoreAll outcome ({ command := .setPathHashMode mode
                           onRestored := onRadio (.rememberPathHashMode mode)
                           report := .pathHashMode } :: rest)).run b.answerScoped w =
      (restoreAll outcome rest).run b.answerScoped (b.restorePathHashMode mode w) := by
  refine run_reported (run_retry RadioSettings.pathHashMode
    RadioSettings.withPathHashMode (fun _ _ => rfl) (fun _ _ _ => rfl) (fun _ => rfl)
    (fun w => ?_) 3 w) restore_ne_aborted
  simp only [tryRestore, Program.run_bind, Program.run, answerScoped, command, Program.await,
    Option.bind_some]
  cases b.pathHashMode w.pathHashMode.commands <;> rfl

/-- Choosing a slot and transmitting from it leave the settings alone. -/
theorem run_sendFromSlot (c : ChannelSend) (timestampBytes : Bytes) (w : RadioSettings) :
    ∃ outcome, (sendFromSlot c timestampBytes).run b.answerScoped w = some (outcome, w) := by
  have hcalls : (sendFromSlot c timestampBytes).Calls
      fun op => ∀ w, ∃ x, b.answerScoped op w = some (x, w) := by
    have htransmit : ∀ slot, (transmitFromSlot c slot timestampBytes).Calls
        fun op => ∀ w, ∃ x, b.answerScoped op w = some (x, w) := by
      intro slot
      refine ⟨fun w => ⟨_, rfl⟩, fun reply => ?_⟩
      cases reply with
      | ok => exact ⟨fun w => ⟨_, rfl⟩, fun _ => trivial⟩
      | error => exact ⟨fun w => ⟨_, rfl⟩, fun _ => trivial⟩
      | noResponse => trivial
      | raised => trivial
      | cancelled => trivial
    refine ⟨fun w => ⟨_, rfl⟩, ?_⟩
    rintro ⟨slot, needsConfigure, evicted⟩
    cases needsConfigure with
    | false => exact htransmit slot
    | true =>
        refine ⟨fun w => ⟨_, rfl⟩, fun reply => ?_⟩
        have hevict : (invalidateEvicted evicted).Calls
            fun op => ∀ w, ∃ x, b.answerScoped op w = some (x, w) := by
          cases evicted with
          | none => trivial
          | some key => exact ⟨fun w => ⟨_, rfl⟩, fun _ => trivial⟩
        cases reply
        case ok => exact ⟨fun w => ⟨_, rfl⟩, fun _ => htransmit slot⟩
        case noResponse | cancelled => trivial
        all_goals
          refine Program.Calls.bind (hevict.bind fun _ => trivial) ?_
          rintro (_ | outcome)
          · exact htransmit slot
          · trivial
  exact hcalls.run_stays (fun op hop => hop) w

theorem run_applyAndSend_cons {c : ChannelSend} {timestampBytes : Bytes}
    {override : RadioCommand} {overrides : List RadioCommand} :
    (applyAndSend c timestampBytes (override :: overrides)).run b.answerScoped w =
      if (b.command override w).1.accepted
      then (applyAndSend c timestampBytes overrides).run b.answerScoped (b.command override w).2
      else some (.raised, (b.command override w).2) := by
  simp only [applyAndSend, applyOverride, Program.run_bind, Program.run, answerScoped,
    Program.await, Option.bind_some]
  cases (b.command override w).1 <;> rfl

end Scoped

end RadioScript

end Radio

section Conditions

namespace Setting

variable {V : Type}

/-- Give a setting the value of an override, if there is one. -/
def override (script : Script) (v : Option V) (s : Setting V) : Setting V :=
  v.elim s fun v => s.set script v

/-- The number of the first command that restores a setting. -/
def restoreStart (v : Option V) : Nat := if v.isSome then 1 else 0

/-- A setting is back or reported: every attempt to restore it was refused, and a report can be
made; or the value that was carried out last is the one before the send. -/
def Safe (script : Script) (reports : Bool) (before : V) (v : Option V) (baseline : V) : Prop :=
  (Refused script 3 (restoreStart v) ∧ reports = true) ∨
    if CarriedOut script 3 (restoreStart v) then baseline = before
    else ∀ x ∈ v, (script 0).applied = true → x = before

theorem safe_iff {script : Script} {reports : Bool} {before baseline : V} {v : Option V} :
    let restored := (override script v ⟨before, 0⟩).restore script baseline 3
    (restored.2.value = before ∨ (restored.1 = .failed ∧ reports = true)) ↔
      Safe script reports before v baseline := by
  have hcommands : (override script v ⟨before, 0⟩).commands = restoreStart v := by
    cases v <;> rfl
  have hvalue : (override script v ⟨before, 0⟩).value = before ↔
      ∀ x ∈ v, (script 0).applied = true → x = before := by
    cases v with
    | none => simp [override]
    | some x => by_cases happlied : (script 0).applied = true <;> simp [override, set, happlied]
  dsimp only
  rw [restore_fst, restore_value, hcommands, or_comm]
  apply or_congr
  · simp
  · split
    · rfl
    · exact hvalue

end Setting

/-- The standing scope and the scope of a send, when the send changes it. -/
def scopeChange (desired : Text × Bool) (settings : AppSettings) : Option (Text × Text) :=
  let (desiredScope, scopeExplicit) := desired
  let baselineScope := normalizeRegionScope (some settings.floodScope)
  if (desiredScope ≠ [] ∨ scopeExplicit) ∧ desiredScope ≠ baselineScope
  then some (desiredScope, baselineScope) else none

/-- The path hash mode that is applied: it is not, when the scope before it was refused. -/
def RadioScript.pathHashModeApplied (b : RadioScript) (change : Option (Text × Text))
    (mode : Option Int) : Option Int :=
  if change = none ∨ (b.floodScope 0).accepted then mode else none

end Conditions

section Runs

namespace RadioScript

variable {b : RadioScript} {m : ManagerView} {c : ChannelSend}

theorem run_channelScopeChange {w : RadioSettings} :
    (channelScopeChange c).run b.answerScoped w =
      some (scopeChange c.desiredScope b.settings, w) := by
  unfold channelScopeChange scopeChange
  dsimp only
  by_cases h : c.desiredScope.1 ≠ [] ∨ c.desiredScope.2 = true
  · simp only [h, if_true, true_and]
    by_cases hdiffers : c.desiredScope.1 ≠ normalizeRegionScope (some b.settings.floodScope)
    · simp [Program.run, answerScoped, hdiffers]
    · simp [Program.run, answerScoped, hdiffers]
  · simp only [h, if_false, false_and]
    rfl

/-- The settings after the overrides of a channel send. -/
def overridden (b : RadioScript) (m : ManagerView) (change : Option (Text × Text))
    (mode : Option Int) (floodScope : RadioCommand) (pathHashMode : Int) : RadioSettings where
  floodScope := Setting.override b.floodScope
    (change.map fun change => floodScopeCommand m.firmwareVersion change.1) ⟨floodScope, 0⟩
  pathHashMode := Setting.override b.pathHashMode (b.pathHashModeApplied change mode)
    ⟨pathHashMode, 0⟩

/-- The overrides of a channel send, up to the first that is refused, and its transmission. -/
theorem run_applyAndSend (timestampBytes : Bytes) (change : Option (Text × Text))
    (mode : Option Int) (floodScope : RadioCommand) (pathHashMode : Int) :
    ∃ outcome, (applyAndSend c timestampBytes
        ((change.map fun change => floodScopeCommand m.firmwareVersion change.1).toList ++
          (mode.map RadioCommand.setPathHashMode).toList)).run b.answerScoped
            (.start floodScope pathHashMode) =
      some (outcome, b.overridden m change mode floodScope pathHashMode) := by
  have hmode : ∀ w : RadioSettings, ∃ outcome, (applyAndSend c timestampBytes
      (mode.map RadioCommand.setPathHashMode).toList).run b.answerScoped w =
        some (outcome, w.withPathHashMode (Setting.override b.pathHashMode mode w.pathHashMode)) := by
    intro w
    cases mode with
    | none => exact run_sendFromSlot c timestampBytes w
    | some mode =>
        simp only [Option.map_some, Option.toList_some, run_applyAndSend_cons, command]
        by_cases haccepted : (b.pathHashMode w.pathHashMode.commands).accepted = true
        · obtain ⟨outcome, ho⟩ := run_sendFromSlot (b := b) c timestampBytes
            (w.withPathHashMode (w.pathHashMode.set b.pathHashMode mode))
          exact ⟨outcome, (if_pos haccepted).trans ho⟩
        · exact ⟨_, if_neg haccepted⟩
  cases change with
  | none => exact hmode _
  | some change =>
      simp only [Option.map_some, Option.toList_some, List.cons_append, List.nil_append,
        run_applyAndSend_cons, command_floodScope, overridden, pathHashModeApplied, reduceCtorEq,
        false_or]
      by_cases haccepted : (b.floodScope 0).accepted = true
      · obtain ⟨outcome, ho⟩ := hmode _
        rw [if_pos haccepted]
        exact ⟨outcome, (if_pos haccepted).trans ho⟩
      · rw [if_neg haccepted]
        exact ⟨_, if_neg haccepted⟩

/-- The settings after the restores of a channel send. -/
def restored (b : RadioScript) (m : ManagerView) (change : Option (Text × Text))
    (mode : Option Int) (w : RadioSettings) : RadioSettings :=
  let unscoped := change.elim w fun change =>
    b.restoreFloodScope (floodScopeCommand m.firmwareVersion change.2) w
  mode.elim unscoped fun _ => b.restorePathHashMode m.pathHashMode unscoped

theorem run_restoreAll {outcome : ScopedOutcome} (change : Option (Text × Text))
    (mode : Option Int) (w : RadioSettings) :
    (restoreAll outcome
        ((change.map fun change =>
            { command := floodScopeCommand m.firmwareVersion change.2
              report := .floodScope : Restore }).toList ++
          (mode.map fun _ =>
            { command := .setPathHashMode m.pathHashMode
              onRestored := onRadio (.rememberPathHashMode m.pathHashMode)
              report := .pathHashMode : Restore }).toList)).run b.answerScoped w =
      some (outcome, b.restored m change mode w) := by
  cases change <;> cases mode <;>
    simp only [Option.map_some, Option.map_none, Option.toList_some, Option.toList_none,
      List.cons_append, List.nil_append, run_restoreFloodScope, run_restorePathHashMode] <;> rfl

end RadioScript

end Runs

section Exits

/-- The settings are back, or the reports of what may not be restored are made. -/
structure RestoredOrReported (w w' : RadioSettings) : Prop where
  floodScope : w'.floodScope.value = w.floodScope.value ∨ .floodScope ∈ w'.reports
  pathHashMode : w'.pathHashMode.value = w.pathHashMode.value ∨ .pathHashMode ∈ w'.reports

/-- The radio restores each setting that a channel send changes, or refuses every attempt to. -/
structure ChannelSend.RestoreSafe (c : ChannelSend) (m : ManagerView) (b : RadioScript)
    (floodScope : RadioCommand) (pathHashMode : Int) : Prop where
  floodScope : ∀ change ∈ scopeChange c.desiredScope b.settings,
    Setting.Safe b.floodScope true floodScope
      (some (floodScopeCommand m.firmwareVersion change.1))
      (floodScopeCommand m.firmwareVersion change.2)
  pathHashMode : ∀ mode ∈ c.pathHashModeChange m,
    Setting.Safe b.pathHashMode true pathHashMode
      (b.pathHashModeApplied (scopeChange c.desiredScope b.settings) (some mode)) m.pathHashMode

namespace RadioScript

variable {b : RadioScript} {m : ManagerView} {c : ChannelSend}

theorem restored_iff (change : Option (Text × Text)) (mode : Option Int)
    (floodScope : RadioCommand) (pathHashMode : Int) :
    RestoredOrReported (.start floodScope pathHashMode)
        (b.restored m change mode (b.overridden m change mode floodScope pathHashMode)) ↔
      (∀ scope ∈ change, Setting.Safe b.floodScope true floodScope
        (some (floodScopeCommand m.firmwareVersion scope.1))
        (floodScopeCommand m.firmwareVersion scope.2)) ∧
      ∀ x ∈ mode, Setting.Safe b.pathHashMode true pathHashMode
        (b.pathHashModeApplied change (some x)) m.pathHashMode := by
  have hsplit : ∀ w w', RestoredOrReported w w' ↔
      (w'.floodScope.value = w.floodScope.value ∨ .floodScope ∈ w'.reports) ∧
        (w'.pathHashMode.value = w.pathHashMode.value ∨ .pathHashMode ∈ w'.reports) :=
    fun _ _ => ⟨fun h => ⟨h.1, h.2⟩, fun h => ⟨h.1, h.2⟩⟩
  rw [hsplit]
  apply and_congr
  · cases change with
    | none =>
        have hback : (b.restored m none mode
            (b.overridden m none mode floodScope pathHashMode)).floodScope.value = floodScope := by
          cases mode <;>
            simp [restored, overridden, restorePathHashMode, Setting.override,
              RadioSettings.withPathHashMode]
        exact iff_of_true (.inl hback) (fun _ h => (nomatch h))
    | some scope =>
        simp only [Option.mem_some_iff, forall_eq', ← Setting.safe_iff]
        cases mode <;>
          simp [restored, overridden, restorePathHashMode, restoreFloodScope, mem_reportFailed,
            RadioSettings.withPathHashMode, RadioSettings.withFloodScope, RadioSettings.start]
  · cases mode with
    | none =>
        have hback : (b.restored m change none
            (b.overridden m change none floodScope pathHashMode)).pathHashMode.value =
              pathHashMode := by
          cases change <;>
            simp [restored, overridden, restoreFloodScope, Setting.override, pathHashModeApplied,
              RadioSettings.withFloodScope]
        exact iff_of_true (.inl hback) (fun _ h => (nomatch h))
    | some x =>
        simp only [Option.mem_some_iff, forall_eq', ← Setting.safe_iff]
        cases change <;>
          simp [restored, overridden, restorePathHashMode, restoreFloodScope, mem_reportFailed,
            RadioSettings.withPathHashMode, RadioSettings.withFloodScope, RadioSettings.start]

/-- A channel send exits with its settings restored or reported exactly when the radio restores
each setting that the send changes, or refuses every attempt to. -/
theorem run_sendChannelMessage_restores (timestampBytes : Bytes) (floodScope : RadioCommand)
    (pathHashMode : Int) :
    ∃ outcome w', (sendChannelMessageWithEffectiveScope m c timestampBytes).run b.answerScoped
        (.start floodScope pathHashMode) = some (outcome, w') ∧
      (RestoredOrReported (.start floodScope pathHashMode) w' ↔
        c.RestoreSafe m b floodScope pathHashMode) := by
  obtain ⟨outcome, hoverridden⟩ := run_applyAndSend (b := b) (m := m) (c := c) timestampBytes
    (scopeChange c.desiredScope b.settings) (c.pathHashModeChange m) floodScope pathHashMode
  refine ⟨outcome, b.restored m (scopeChange c.desiredScope b.settings) (c.pathHashModeChange m)
    (b.overridden m (scopeChange c.desiredScope b.settings) (c.pathHashModeChange m) floodScope
      pathHashMode), ?_, ?_⟩
  · simp only [sendChannelMessageWithEffectiveScope, Program.run_bind, run_channelScopeChange,
      hoverridden, run_restoreAll, Option.bind_some]
  · rw [restored_iff]
    exact ⟨fun h => ⟨h.1, h.2⟩, fun h => ⟨h.1, h.2⟩⟩

section Direct

variable {firmwareVersion : Option Nat} {override : Option Text} {reports : Bool}
  {w : RadioSettings}

theorem run_floodScopeChange :
    (floodScopeChange override).run b.answerDirect w =
      some (scopeChange (resolveOverrideScope override) b.settings, w) := by
  unfold floodScopeChange scopeChange
  dsimp only
  by_cases h : (resolveOverrideScope override).1 ≠ [] ∨ (resolveOverrideScope override).2 = true
  · simp only [h, if_true, true_and]
    by_cases hdiffers : (resolveOverrideScope override).1 ≠
      normalizeRegionScope (some b.settings.floodScope)
    · simp [Program.run, answerDirect, hdiffers]
    · simp [Program.run, answerDirect, hdiffers]
  · simp only [h, if_false, false_and]
    rfl

theorem answerDirect_floodScope (scope : Text) :
    b.answerDirect (.radio (floodScopeCommand firmwareVersion scope)) w =
      some ((b.floodScope w.floodScope.commands).radioReply, w.withFloodScope
        (w.floodScope.set b.floodScope (floodScopeCommand firmwareVersion scope))) := by
  rcases floodScopeCommand_cases firmwareVersion scope with ⟨scope', h⟩ | h <;> rw [h] <;> rfl

/-- The settings after the restore of a direct send. -/
def restoredDirect (b : RadioScript) (command : RadioCommand) (reports : Bool)
    (w : RadioSettings) : RadioSettings :=
  let restored := w.floodScope.restore b.floodScope command 3
  if restored.1 = .failed ∧ reports = true then (w.withFloodScope restored.2).report .floodScope
  else w.withFloodScope restored.2

theorem run_restoreDirect (baselineScope : Text) :
    (RemoteTerm.restoreFloodScope firmwareVersion baselineScope reports).run b.answerDirect w =
      some ((), b.restoredDirect (floodScopeCommand firmwareVersion baselineScope) reports w) := by
  have hattempt : ∀ w, (tryRestoreFloodScope firmwareVersion baselineScope).run b.answerDirect w =
      some (if (b.floodScope w.floodScope.commands).accepted then .done else .failed,
        w.withFloodScope (w.floodScope.set b.floodScope
          (floodScopeCommand firmwareVersion baselineScope))) := by
    intro w
    simp only [tryRestoreFloodScope, setRadioFloodScope, Program.run_bind, Program.run,
      Program.await, answerDirect_floodScope, Option.bind_some]
    cases b.floodScope w.floodScope.commands <;> rfl
  have hretry := run_retry RadioSettings.floodScope RadioSettings.withFloodScope
    (fun _ _ => rfl) (fun _ _ _ => rfl) (fun _ => rfl) hattempt 3 w
  simp only [RemoteTerm.restoreFloodScope, Program.run_bind, hretry, Option.bind_some,
    restoredDirect]
  split <;> rfl

/-- The command of a direct send leaves the settings alone. -/
theorem run_commandInScope (applied : RadioReply) (publicKey text : Text) (timestamp : Int)
    (attempt : Nat) :
    ∃ reply, (commandInScope applied (.sendMsg publicKey text timestamp attempt)).run
      b.answerDirect w = some (reply, w) := by
  cases applied <;> exact ⟨_, rfl⟩

/-- A direct send exits with its flood scope restored or reported exactly when the radio restores
it, or refuses every attempt to and there is a way to report that. -/
theorem run_temporaryFloodScope_restores (publicKey text : Text) (timestamp : Int) (attempt : Nat)
    (floodScope : RadioCommand) (pathHashMode : Int) :
    ∃ reply w', (temporaryFloodScope firmwareVersion override
        (.sendMsg publicKey text timestamp attempt) reports).run b.answerDirect
          (.start floodScope pathHashMode) = some (reply, w') ∧
      (RestoredOrReported (.start floodScope pathHashMode) w' ↔
        ∀ change ∈ scopeChange (resolveOverrideScope override) b.settings,
          Setting.Safe b.floodScope reports floodScope
            (some (floodScopeCommand firmwareVersion change.1))
            (floodScopeCommand firmwareVersion change.2)) := by
  cases hchange : scopeChange (resolveOverrideScope override) b.settings with
  | none =>
      refine ⟨b.directReply, .start floodScope pathHashMode, ?_,
        iff_of_true ⟨.inl rfl, .inl rfl⟩ (fun _ h => (nomatch h))⟩
      simp only [temporaryFloodScope, Program.run_bind, run_floodScopeChange, hchange,
        Option.bind_some]
      rfl
  | some change =>
      obtain ⟨reply, hreply⟩ := run_commandInScope (b := b)
        (w := (RadioSettings.start floodScope pathHashMode).withFloodScope
          (Setting.set b.floodScope (floodScopeCommand firmwareVersion change.1) ⟨floodScope, 0⟩))
        (b.floodScope 0).radioReply publicKey text timestamp attempt
      refine ⟨reply, b.restoredDirect (floodScopeCommand firmwareVersion change.2) reports
        ((RadioSettings.start floodScope pathHashMode).withFloodScope
          (Setting.set b.floodScope (floodScopeCommand firmwareVersion change.1) ⟨floodScope, 0⟩)),
        ?_, ?_⟩
      · simp only [temporaryFloodScope, Program.run_bind, run_floodScopeChange, hchange,
          Option.bind_some, setRadioFloodScope, Program.run, Program.await, answerDirect_floodScope]
        rw [show (RadioSettings.start floodScope pathHashMode).floodScope =
          ⟨floodScope, 0⟩ from rfl, hreply, Option.bind_some, run_restoreDirect]
        rfl
      · simp only [Option.mem_some_iff, forall_eq', ← Setting.safe_iff, Setting.override,
          Option.elim_some]
        unfold restoredDirect
        dsimp only
        split
        next hreported =>
          refine iff_of_true ⟨.inr List.mem_cons_self, .inl rfl⟩ (.inr hreported)
        next hsilent =>
          constructor
          · rintro ⟨hback | hreport, -⟩
            · exact .inl hback
            · exact absurd hreport List.not_mem_nil
          · rintro (hback | hreported)
            · exact ⟨.inl hback, .inl rfl⟩
            · exact absurd hreported hsilent

end Direct

end RadioScript

/-- Scoped sends exit with their settings restored or reported exactly when the radio restores
each setting that they change to the value before, or refuses every attempt to and there is a way
to report that. -/
theorem scoped_sends_restore (b : RadioScript) (floodScope : RadioCommand) (pathHashMode : Int) :
    (∀ (m : ManagerView) (c : ChannelSend) (timestampBytes : Bytes), ∃ outcome w',
      (sendChannelMessageWithEffectiveScope m c timestampBytes).run b.answerScoped
        (.start floodScope pathHashMode) = some (outcome, w') ∧
      (RestoredOrReported (.start floodScope pathHashMode) w' ↔
        c.RestoreSafe m b floodScope pathHashMode)) ∧
    ∀ (firmwareVersion : Option Nat) (override : Option Text) (reports : Bool)
      (publicKey text : Text) (timestamp : Int) (attempt : Nat), ∃ reply w',
      (temporaryFloodScope firmwareVersion override
        (.sendMsg publicKey text timestamp attempt) reports).run b.answerDirect
          (.start floodScope pathHashMode) = some (reply, w') ∧
      (RestoredOrReported (.start floodScope pathHashMode) w' ↔
        ∀ change ∈ scopeChange (resolveOverrideScope override) b.settings,
          Setting.Safe b.floodScope reports floodScope
            (some (floodScopeCommand firmwareVersion change.1))
            (floodScopeCommand firmwareVersion change.2)) :=
  ⟨fun _ _ timestampBytes =>
      RadioScript.run_sendChannelMessage_restores timestampBytes floodScope pathHashMode,
    fun _ _ _ publicKey text timestamp attempt =>
      RadioScript.run_temporaryFloodScope_restores publicKey text timestamp attempt floodScope
        pathHashMode⟩

/-- The radio takes the scope of a send and does not get the command that restores it. -/
def lostRestore : RadioScript where
  floodScope n := if n = 0 then .ok else .unanswered false
  pathHashMode _ := .ok

/-- The radio keeps the scope of a send, and nobody is told. -/
theorem lost_restore_unreported :
    ∃ outcome w', (sendChannelMessageWithEffectiveScope {}
        { channelKey := ['a'], floodScopeOverride := some ['e', 'u'], text := ['x'], sentAt := 1 }
        []).run lostRestore.answerScoped (.start (.setFloodScope []) 0) = some (outcome, w') ∧
      ¬ RestoredOrReported (.start (.setFloodScope []) 0) w' := by
  have hlost : ((sendChannelMessageWithEffectiveScope {}
      { channelKey := ['a'], floodScopeOverride := some ['e', 'u'], text := ['x'], sentAt := 1 }
      []).run lostRestore.answerScoped (.start (.setFloodScope []) 0)).any (fun r =>
        decide (r.2.floodScope.value ≠ .setFloodScope [] ∧ r.2.reports = [])) = true := by
    decide +kernel
  obtain ⟨⟨outcome, w'⟩, hrun, hw⟩ := (Option.any_eq_true _ _).mp hlost
  obtain ⟨hchanged, hsilent⟩ := of_decide_eq_true hw
  refine ⟨outcome, w', hrun, ?_⟩
  rintro ⟨hback | hreported, -⟩
  · exact hchanged hback
  · rw [hsilent] at hreported
    exact absurd hreported List.not_mem_nil

end Exits

end RemoteTerm
