import RemoteTerm.Library.Machine
import RemoteTerm.Library.Text

/-!
# The wake-ups of an MQTT publisher

The connection loop of a publisher waits on an event that a new `start` and a failed
publish set. It clears the event only in the step that compares the settings version,
so no change is lost while it waits.

## Implementation notes

A state lies between two await points, and an event runs one task from its await point to the
next. Clients are numbered as they are opened. A connection counts as open until
the client's context has been left. What the hooks of a subclass answer is given from outside.
Whether settings are configured is a fixed function of them; the community publisher also reads
the key store, which does not change here.
-/

namespace RemoteTerm

open Library

namespace MqttPublisher

variable {S : Type}

/-- What a subclass and the platform fix. -/
structure Hooks (S : Type) where
  isConfigured : S → Bool
  notConfiguredTimeout : Option Nat := none
  backoffMax : Nat := 30
  onProactor : Bool := false

/-- `_BACKOFF_MIN`. -/
def backoffMin : Nat := 5

/-- How the body of `async with` ended. -/
inductive Ending where
  | exited
  | raised (detail : Text)
  | cancelled

/-- The await points inside `async with`. -/
inductive BodyPoint where
  | onConnected
  | waiting
  | periodicWake
deriving DecidableEq

/-- The await point of the connection loop, with its `settings` and `version_at_connect`. -/
inductive Loop (S : Type) where
  | absent
  | created
  | notConfigured
  | preConnect (settings : S) (versionAtConnect : Nat)
  | opening (settings : S) (versionAtConnect : Nat)
  | body (point : BodyPoint) (settings : S) (versionAtConnect : Nat)
  | closing (ending : Ending)
  | sleeping
  | done

/-- `self._task is None or self._task.done()`. -/
def Loop.ended : Loop S → Bool
  | .absent | .done => true
  | _ => false

/-- The fields of a publisher, and the tasks that work on them: `stopping` while a `stop` waits
for the task, `cancelling` until the task is resumed with the cancellation, and the clients of
the publishes that are under way and of those that failed. -/
structure Publisher (S : Type) where
  client : Option Nat := none
  connected : Bool := false
  settings : Option S := none
  settingsVersion : Nat := 0
  versionEvent : Bool := false
  lastError : Option Text := none
  errorNotified : Bool := false
  suppressNextConnectToast : Bool := false
  loop : Loop S := .absent
  backoff : Nat := backoffMin
  stopping : Bool := false
  cancelling : Bool := false
  clients : Nat := 0
  publishing : List Nat := []
  failed : List Nat := []

/-- `_is_configured`. -/
def Publisher.isConfigured (hooks : Hooks S) (s : Publisher S) : Bool :=
  s.settings.any hooks.isConfigured

/-! ### The connection loop -/

/-- The loop from its head to the next await point. -/
def connectionLoop (hooks : Hooks S) (s : Publisher S) : Publisher S :=
  match s.settings.filter hooks.isConfigured with
  | none =>
      { s with connected := false, client := none, versionEvent := false, loop := .notConfigured }
  | some settings => { s with loop := .preConnect settings s.settingsVersion }

/-- The head of the inner loop. -/
def checkVersion (settings : S) (versionAtConnect : Nat) (s : Publisher S) : Publisher S :=
  if s.settingsVersion = versionAtConnect then
    { s with versionEvent := false, loop := .body .waiting settings versionAtConnect }
  else { s with loop := .closing .exited }

/-- `except Exception`. -/
def connectionFailed (hooks : Hooks S) (detail : Text) (s : Publisher S) : Publisher S :=
  let s := { s with connected := false, client := none, lastError := some detail }
  if hooks.onProactor then { s with loop := .done }
  else { s with errorNotified := true, loop := .sleeping }

/-- `except asyncio.CancelledError`. -/
def connectionCancelled (s : Publisher S) : Publisher S :=
  { s with connected := false, client := none, loop := .done }

/-- The body of `async with`, up to its first await point. -/
def connectionOpened (settings : S) (versionAtConnect : Nat) (s : Publisher S) : Publisher S :=
  { s with
    client := some s.clients
    clients := s.clients + 1
    connected := true
    lastError := none
    errorNotified := false
    suppressNextConnectToast := false
    backoff := backoffMin
    loop := .body .onConnected settings versionAtConnect }

/-- What the loop is resumed with: its first run, the version event, a timeout, the answer of
`_pre_connect`, a client that has opened, a hook that returned together with what
`_should_break_wait` says then, an exception, a client that has closed, or the end of the sleep. -/
inductive Resumption where
  | run
  | woken
  | timeout
  | preConnected (proceed : Bool)
  | opened
  | returned (breakWait : Bool)
  | raised (detail : Text)
  | closed (error : Option Text)
  | slept

/-- Resume the loop; a resumption that its await point does not have leaves the state. -/
def resume (hooks : Hooks S) (s : Publisher S) : Resumption → Publisher S
  | .run =>
      match s.loop with
      | .created => connectionLoop hooks { s with backoff := backoffMin }
      | _ => s
  | .woken =>
      if s.versionEvent then
        match s.loop with
        | .notConfigured => connectionLoop hooks s
        | .body .waiting settings version => checkVersion settings version s
        | _ => s
      else s
  | .timeout =>
      match s.loop with
      | .notConfigured => if hooks.notConfiguredTimeout.isSome then connectionLoop hooks s else s
      | .body .waiting settings version => { s with loop := .body .periodicWake settings version }
      | _ => s
  | .preConnected proceed =>
      match s.loop with
      | .preConnect settings version =>
          if proceed then { s with loop := .opening settings version } else connectionLoop hooks s
      | _ => s
  | .opened =>
      match s.loop with
      | .opening settings version => connectionOpened settings version s
      | _ => s
  | .returned breakWait =>
      match s.loop with
      | .body .onConnected settings version => checkVersion settings version s
      | .body .periodicWake settings version =>
          if breakWait then { s with suppressNextConnectToast := true, loop := .closing .exited }
          else checkVersion settings version s
      | _ => s
  | .raised detail =>
      match s.loop with
      | .preConnect .. | .opening .. => connectionFailed hooks detail s
      | .body .onConnected .. | .body .periodicWake .. =>
          { s with loop := .closing (.raised detail) }
      | _ => s
  | .closed (some detail) =>
      match s.loop with
      | .closing _ => connectionFailed hooks detail s
      | _ => s
  | .closed none =>
      match s.loop with
      | .closing .exited => connectionLoop hooks { s with client := none, connected := false }
      | .closing (.raised detail) => connectionFailed hooks detail s
      | .closing .cancelled => connectionCancelled s
      | _ => s
  | .slept =>
      match s.loop with
      | .sleeping =>
          connectionLoop hooks { s with backoff := min (s.backoff * 2) hooks.backoffMax }
      | _ => s

/-- Resume the loop with `CancelledError`. -/
def resumeCancelled (s : Publisher S) : Publisher S :=
  let s := { s with cancelling := false }
  match s.loop with
  | .absent | .done => s
  | .created | .notConfigured | .sleeping => { s with loop := .done }
  | .preConnect .. | .opening .. | .closing _ => connectionCancelled s
  | .body .. => { s with loop := .closing .cancelled }

/-! ### The calls of other tasks -/

/-- `start`. -/
def start (settings : S) (s : Publisher S) : Publisher S :=
  { s with
    settings := some settings
    lastError := none
    settingsVersion := s.settingsVersion + 1
    versionEvent := true
    loop := if s.loop.ended then .created else s.loop }

/-- The end of `stop`. -/
def stopped (s : Publisher S) : Publisher S :=
  { s with
    loop := .absent
    client := none
    connected := false
    lastError := none
    errorNotified := false
    suppressNextConnectToast := false
    stopping := false }

/-- `stop`, up to its await point. -/
def stop (s : Publisher S) : Publisher S :=
  if s.loop.ended then stopped s else { s with stopping := true, cancelling := true }

/-- `publish`, up to its await point. -/
def publish (s : Publisher S) : Publisher S :=
  match s.client with
  | none => s
  | some client => if s.connected then { s with publishing := client :: s.publishing } else s

/-- The end of a publish on a client. -/
def publishEnded (client : Nat) (error : Option Text) (s : Publisher S) : Publisher S :=
  let s := { s with publishing := s.publishing.erase client }
  match error with
  | none => s
  | some detail =>
      { s with
        connected := false
        lastError := some detail
        settingsVersion := s.settingsVersion + 1
        versionEvent := true
        failed := client :: s.failed }

/-- What runs next: a call of another task, a part of one after its await point, or the loop. -/
inductive Event (S : Type) where
  | start (settings : S)
  | stop
  | stopped
  | publish
  | publishEnded (client : Nat) (error : Option Text)
  | resume (resumption : Resumption)
  | resumeCancelled

/-- Carry out an event. A publisher is not started or stopped while a stop waits for the task, and
a cancelled task is resumed with the cancellation. -/
def apply (hooks : Hooks S) (s : Publisher S) : Event S → Publisher S
  | .start settings => if s.stopping then s else start settings s
  | .stop => if s.stopping then s else stop s
  | .stopped => if s.stopping && s.loop.ended then stopped s else s
  | .publish => publish s
  | .publishEnded client error =>
      if client ∈ s.publishing then publishEnded client error s else s
  | .resume resumption => if s.cancelling then s else resume hooks s resumption
  | .resumeCancelled => if s.cancelling then resumeCancelled s else s

/-! ### What the loop waits with -/

/-- The loop waits on the version event. -/
def Publisher.Parked (s : Publisher S) : Prop :=
  match s.loop with
  | .notConfigured | .body .waiting .. => True
  | _ => False

/-- The settings with which the connection was opened. -/
def Publisher.connectedWith (s : Publisher S) : Option S :=
  match s.loop with
  | .body _ settings _ => some settings
  | _ => none

/-- Connected with the settings of the last start, without a failed publish on the client. -/
def Publisher.UpToDate (s : Publisher S) : Prop :=
  s.connected = true ∧ s.connectedWith.isSome ∧ s.connectedWith = s.settings ∧
    ∃ client, s.client = some client ∧ client ∉ s.failed

/-- A connection is open, being opened or being closed. -/
def Publisher.HasConnection (s : Publisher S) : Prop :=
  match s.loop with
  | .opening .. | .body .. | .closing _ => True
  | _ => False

/-! ### What every event keeps -/

/-- Not connected, without a client. -/
def Publisher.Closed (s : Publisher S) : Prop :=
  s.connected = false ∧ s.client = none

/-- The settings of the loop are the latest as long as the version is the one it read. -/
def Publisher.Tracks (s : Publisher S) (settings : S) (versionAtConnect : Nat) : Prop :=
  versionAtConnect ≤ s.settingsVersion ∧
    (s.settingsVersion = versionAtConnect → s.settings = some settings)

/-- The client of the body is connected and has no failed publish as long as the version is the
one of the connection. -/
def Publisher.Serves (s : Publisher S) (versionAtConnect : Nat) : Prop :=
  ∃ client, s.client = some client ∧
    (s.settingsVersion = versionAtConnect → s.connected = true ∧ client ∉ s.failed)

/-- What holds at each await point of the loop. -/
def Publisher.Sound (hooks : Hooks S) (s : Publisher S) : Loop S → Prop
  | .absent | .created | .sleeping | .done => s.Closed
  | .notConfigured => s.Closed ∧ (s.versionEvent = false → s.isConfigured hooks = false)
  | .preConnect settings version | .opening settings version =>
      s.Closed ∧ s.Tracks settings version
  | .body point settings version =>
      s.Tracks settings version ∧ s.Serves version ∧
        (point = .waiting → s.versionEvent = false → s.settingsVersion = version)
  | .closing _ => True

/-- The clients in use were opened. -/
structure Publisher.Numbered (s : Publisher S) : Prop where
  client : ∀ c, s.client = some c → c < s.clients
  publishing : ∀ c ∈ s.publishing, c < s.clients
  failed : ∀ c ∈ s.failed, c < s.clients

/-- The invariant of a publisher. -/
structure Publisher.Consistent (hooks : Hooks S) (s : Publisher S) : Prop where
  numbered : s.Numbered
  sound : s.Sound hooks s.loop

section Steps

variable {hooks : Hooks S} {s : Publisher S}

/-- No client is kept: the numbers stay in use. -/
theorem Publisher.Numbered.without_client (h : s.Numbered) {t : Publisher S}
    (hclient : t.client = none) (hclients : t.clients = s.clients)
    (hpublishing : t.publishing = s.publishing) (hfailed : t.failed = s.failed) : t.Numbered where
  client c hc := by rw [hclient] at hc; cases hc
  publishing c hc := by rw [hclients]; exact h.publishing c (hpublishing ▸ hc)
  failed c hc := by rw [hclients]; exact h.failed c (hfailed ▸ hc)

/-- The head of the loop clears the event in the step that finds the settings not configured. -/
theorem connectionLoop_consistent (h : s.Numbered) (hclosed : s.Closed) :
    (connectionLoop hooks s).Consistent hooks := by
  unfold connectionLoop
  split
  next hnone =>
    refine ⟨h.without_client rfl rfl rfl rfl, ⟨rfl, rfl⟩, fun _ => ?_⟩
    rw [Option.filter_eq_none_iff] at hnone
    rw [Publisher.isConfigured, Option.any_eq_false]
    intro settings hsettings
    exact Bool.eq_false_iff.mpr (hnone settings hsettings)
  next settings hsome =>
    exact ⟨⟨h.client, h.publishing, h.failed⟩, hclosed, le_refl _,
      fun _ => (Option.filter_eq_some_iff.mp hsome).1⟩

/-- The inner loop clears the event in the step that finds the version unchanged. -/
theorem checkVersion_consistent {settings : S} {version : Nat} (h : s.Numbered)
    (htracks : s.Tracks settings version) (hserves : s.Serves version) :
    (checkVersion settings version s).Consistent hooks := by
  unfold checkVersion
  split
  next hsame =>
    exact ⟨⟨h.client, h.publishing, h.failed⟩, htracks, hserves, fun _ _ => hsame⟩
  next => exact ⟨⟨h.client, h.publishing, h.failed⟩, trivial⟩

theorem connectionFailed_consistent (h : s.Numbered) (detail : Text) :
    (connectionFailed hooks detail s).Consistent hooks := by
  unfold connectionFailed
  split
  · exact ⟨h.without_client rfl rfl rfl rfl, rfl, rfl⟩
  · exact ⟨h.without_client rfl rfl rfl rfl, rfl, rfl⟩

theorem connectionCancelled_consistent (h : s.Numbered) :
    (connectionCancelled s).Consistent hooks :=
  ⟨h.without_client rfl rfl rfl rfl, rfl, rfl⟩

/-- A new client has no failed publish. -/
theorem connectionOpened_consistent {settings : S} {version : Nat} (h : s.Numbered)
    (htracks : s.Tracks settings version) :
    (connectionOpened settings version s).Consistent hooks := by
  refine ⟨⟨?_, fun c hc => Nat.lt_succ_of_lt (h.publishing c hc),
    fun c hc => Nat.lt_succ_of_lt (h.failed c hc)⟩, htracks, ⟨s.clients, rfl, fun _ => ⟨rfl, ?_⟩⟩,
    by rintro ⟨⟩⟩
  · rintro c ⟨⟩
    exact Nat.lt_succ_self _
  · exact fun hc => lt_irrefl _ (h.failed _ hc)

/-- **The loop** from one await point to the next. -/
theorem resume_consistent (h : s.Consistent hooks) (resumption : Resumption) :
    (resume hooks s resumption).Consistent hooks := by
  obtain ⟨hnum, hsound⟩ := h
  cases resumption with
  | run =>
      simp only [resume]
      split
      next hloop =>
        rw [hloop] at hsound
        exact connectionLoop_consistent ⟨hnum.client, hnum.publishing, hnum.failed⟩ hsound
      next => exact ⟨hnum, hsound⟩
  | woken =>
      simp only [resume]
      split
      · split
        next hloop =>
          rw [hloop] at hsound
          exact connectionLoop_consistent hnum hsound.1
        next settings version hloop =>
          rw [hloop] at hsound
          exact checkVersion_consistent hnum hsound.1 hsound.2.1
        next => exact ⟨hnum, hsound⟩
      · exact ⟨hnum, hsound⟩
  | timeout =>
      simp only [resume]
      split
      next hloop =>
        split
        · rw [hloop] at hsound
          exact connectionLoop_consistent hnum hsound.1
        · exact ⟨hnum, hsound⟩
      next settings version hloop =>
        rw [hloop] at hsound
        exact ⟨⟨hnum.client, hnum.publishing, hnum.failed⟩, hsound.1, hsound.2.1, by rintro ⟨⟩⟩
      next => exact ⟨hnum, hsound⟩
  | preConnected proceed =>
      simp only [resume]
      split
      next settings version hloop =>
        rw [hloop] at hsound
        split
        · exact ⟨⟨hnum.client, hnum.publishing, hnum.failed⟩, hsound⟩
        · exact connectionLoop_consistent hnum hsound.1
      next => exact ⟨hnum, hsound⟩
  | opened =>
      simp only [resume]
      split
      next settings version hloop =>
        rw [hloop] at hsound
        exact connectionOpened_consistent hnum hsound.2
      next => exact ⟨hnum, hsound⟩
  | returned breakWait =>
      simp only [resume]
      split
      next settings version hloop =>
        rw [hloop] at hsound
        exact checkVersion_consistent hnum hsound.1 hsound.2.1
      next settings version hloop =>
        rw [hloop] at hsound
        split
        · exact ⟨⟨hnum.client, hnum.publishing, hnum.failed⟩, trivial⟩
        · exact checkVersion_consistent hnum hsound.1 hsound.2.1
      next => exact ⟨hnum, hsound⟩
  | raised detail =>
      simp only [resume]
      split
      · exact connectionFailed_consistent hnum detail
      · exact connectionFailed_consistent hnum detail
      · exact ⟨⟨hnum.client, hnum.publishing, hnum.failed⟩, trivial⟩
      · exact ⟨⟨hnum.client, hnum.publishing, hnum.failed⟩, trivial⟩
      · exact ⟨hnum, hsound⟩
  | closed error =>
      cases error with
      | some detail =>
          simp only [resume]
          split
          · exact connectionFailed_consistent hnum detail
          · exact ⟨hnum, hsound⟩
      | none =>
          simp only [resume]
          split
          · exact connectionLoop_consistent (hnum.without_client rfl rfl rfl rfl) ⟨rfl, rfl⟩
          · exact connectionFailed_consistent hnum _
          · exact connectionCancelled_consistent hnum
          · exact ⟨hnum, hsound⟩
  | slept =>
      simp only [resume]
      split
      next hloop =>
        rw [hloop] at hsound
        exact connectionLoop_consistent ⟨hnum.client, hnum.publishing, hnum.failed⟩ hsound
      next => exact ⟨hnum, hsound⟩

/-- A cancellation drops the client unless it is still to be closed. -/
theorem resumeCancelled_consistent (h : s.Consistent hooks) :
    (resumeCancelled s).Consistent hooks := by
  obtain ⟨hnum, hsound⟩ := h
  unfold resumeCancelled
  dsimp only
  cases hloop : s.loop with
  | absent | done | created | sleeping =>
      rw [hloop] at hsound
      exact ⟨⟨hnum.client, hnum.publishing, hnum.failed⟩, hsound⟩
  | notConfigured =>
      rw [hloop] at hsound
      exact ⟨⟨hnum.client, hnum.publishing, hnum.failed⟩, hsound.1⟩
  | preConnect | opening | closing =>
      exact connectionCancelled_consistent ⟨hnum.client, hnum.publishing, hnum.failed⟩
  | body => exact ⟨⟨hnum.client, hnum.publishing, hnum.failed⟩, trivial⟩

/-- A call that raises the version and sets the event. -/
theorem bumped_sound (h : s.Consistent hooks) {t : Publisher S}
    (hversion : t.settingsVersion = s.settingsVersion + 1) (hevent : t.versionEvent = true)
    (hclient : t.client = s.client) (hconnected : s.connected = false → t.connected = false) :
    t.Sound hooks s.loop := by
  have hclosed : s.Closed → t.Closed := fun hs => ⟨hconnected hs.1, hclient.trans hs.2⟩
  have htracks {settings : S} {version : Nat} (hs : s.Tracks settings version) :
      t.Tracks settings version := by
    obtain ⟨hle, -⟩ := hs
    refine ⟨by omega, fun hsame => ?_⟩
    omega
  have hsound := h.sound
  cases hloop : s.loop with
  | absent | created | sleeping | done => rw [hloop] at hsound; exact hclosed hsound
  | notConfigured =>
      rw [hloop] at hsound
      exact ⟨hclosed hsound.1, fun hcleared => by rw [hevent] at hcleared; cases hcleared⟩
  | preConnect settings version | opening settings version =>
      rw [hloop] at hsound
      exact ⟨hclosed hsound.1, htracks hsound.2⟩
  | body point settings version =>
      rw [hloop] at hsound
      obtain ⟨hs, ⟨client, hc, -⟩, -⟩ := hsound
      have hle := hs.1
      refine ⟨htracks hs, ⟨client, hclient.trans hc, fun hsame => ?_⟩, fun _ hcleared => ?_⟩
      · omega
      · rw [hevent] at hcleared
        cases hcleared
  | closing => trivial

theorem start_consistent (h : s.Consistent hooks) (settings : S) :
    (start settings s).Consistent hooks := by
  have hnum : (start settings s).Numbered :=
    ⟨h.numbered.client, h.numbered.publishing, h.numbered.failed⟩
  have hbumped : (start settings s).Sound hooks s.loop :=
    bumped_sound h rfl rfl rfl id
  refine ⟨hnum, ?_⟩
  unfold start at hbumped ⊢
  dsimp only at hbumped ⊢
  cases hloop : s.loop with
  | absent | done => rw [hloop] at hbumped; exact hbumped
  | _ => rw [hloop] at hbumped; exact hbumped

theorem stopped_consistent (h : s.Numbered) : (stopped s).Consistent hooks :=
  ⟨h.without_client rfl rfl rfl rfl, rfl, rfl⟩

theorem stop_consistent (h : s.Consistent hooks) : (stop s).Consistent hooks := by
  unfold stop
  split
  · exact stopped_consistent h.numbered
  · exact ⟨⟨h.numbered.client, h.numbered.publishing, h.numbered.failed⟩, h.sound⟩

theorem publish_consistent (h : s.Consistent hooks) : (publish s).Consistent hooks := by
  unfold publish
  split
  · exact h
  next client hclient =>
    split
    · refine ⟨⟨h.numbered.client, ?_, h.numbered.failed⟩, h.sound⟩
      intro c hc
      rcases List.mem_cons.mp hc with rfl | hc
      · exact h.numbered.client _ hclient
      · exact h.numbered.publishing c hc
    · exact h

/-- A failed publish sets the event, whichever client it was on. -/
theorem publishEnded_consistent (h : s.Consistent hooks) {client : Nat}
    (hmem : client ∈ s.publishing) (error : Option Text) :
    (publishEnded client error s).Consistent hooks := by
  have hpublishing : ∀ c ∈ s.publishing.erase client, c < s.clients := fun c hc =>
    h.numbered.publishing c (List.mem_of_mem_erase hc)
  cases error with
  | none => exact ⟨⟨h.numbered.client, hpublishing, h.numbered.failed⟩, h.sound⟩
  | some detail =>
      have hnum : (publishEnded client (some detail) s).Numbered := by
        refine ⟨h.numbered.client, hpublishing, fun c hc => ?_⟩
        rcases List.mem_cons.mp hc with rfl | hc
        · exact h.numbered.publishing _ hmem
        · exact h.numbered.failed c hc
      exact ⟨hnum, bumped_sound h rfl rfl rfl fun _ => rfl⟩

/-- **One event.** -/
theorem apply_consistent (h : s.Consistent hooks) (e : Event S) :
    (apply hooks s e).Consistent hooks := by
  cases e <;> simp only [apply]
  case start settings =>
    split
    · exact h
    · exact start_consistent h settings
  case stop =>
    split
    · exact h
    · exact stop_consistent h
  case stopped =>
    split
    · exact stopped_consistent h.numbered
    · exact h
  case publish => exact publish_consistent h
  case publishEnded client error =>
    split
    next hmem => exact publishEnded_consistent h hmem error
    next => exact h
  case resume resumption =>
    split
    · exact h
    · exact resume_consistent h resumption
  case resumeCancelled =>
    split
    · exact resumeCancelled_consistent h
    · exact h

end Steps

theorem connectionLoop_settings (hooks : Hooks S) (s : Publisher S) :
    (connectionLoop hooks s).settings = s.settings := by
  unfold connectionLoop
  split <;> rfl

theorem resume_settings (hooks : Hooks S) (s : Publisher S) (resumption : Resumption) :
    (resume hooks s resumption).settings = s.settings := by
  have hloop := connectionLoop_settings hooks
  have hversion : ∀ (settings : S) (version : Nat) (s : Publisher S),
      (checkVersion settings version s).settings = s.settings := by
    intro settings version s
    unfold checkVersion
    split <;> rfl
  have hfailed : ∀ (detail : Text) (s : Publisher S),
      (connectionFailed hooks detail s).settings = s.settings := by
    intro detail s
    unfold connectionFailed
    dsimp only
    split <;> rfl
  cases resumption with
  | run | woken | timeout | preConnected | opened | returned | raised | slept =>
      simp only [resume]
      repeat' split
      all_goals first | rfl | simp only [hloop, hversion, hfailed]
  | closed error =>
      cases error <;> simp only [resume] <;> repeat' split
      all_goals first | rfl | simp only [hloop, hfailed]

/-- The settings of a publisher are those of its last start. -/
theorem apply_settings (hooks : Hooks S) (s : Publisher S) (e : Event S) :
    (apply hooks s e).settings = match e with
      | .start settings => if s.stopping then s.settings else some settings
      | _ => s.settings := by
  cases e with
  | start settings => simp only [apply]; split <;> rfl
  | stop =>
      simp only [apply, stop]
      repeat' split
      all_goals rfl
  | stopped => simp only [apply]; split <;> rfl
  | publish =>
      simp only [apply, publish]
      repeat' split
      all_goals rfl
  | publishEnded client error =>
      cases error <;> simp only [apply, publishEnded] <;> split <;> rfl
  | resume resumption =>
      simp only [apply]
      split
      · rfl
      · exact resume_settings hooks s resumption
  | resumeCancelled =>
      simp only [apply, resumeCancelled]
      repeat' split
      all_goals rfl

theorem consistent_initial (hooks : Hooks S) : ({} : Publisher S).Consistent hooks where
  numbered := ⟨by simp, by simp, by simp⟩
  sound := ⟨rfl, rfl⟩

/-- The loop waits while it is connected with the settings of the start. -/
example : let s := [Event.start (), .resume .run, .resume (.preConnected true), .resume .opened,
      .resume (.returned false)].foldl (apply { isConfigured := fun _ => true }) {}
    s.Parked ∧ s.versionEvent = false ∧ s.UpToDate :=
  ⟨trivial, rfl, rfl, rfl, rfl, 0, rfl, List.not_mem_nil⟩

end MqttPublisher

end RemoteTerm
