import RemoteTerm.Library.KeyedRows
import RemoteTerm.Library.Machine
import RemoteTerm.Repository.UnreadQuery

/-!
# Push subscriptions

`PushManager` sends a notification to all subscribed devices at once and records in one
transaction what came of it. Devices subscribe and leave meanwhile, and other notifications
are sent. A device stays in the table until it leaves, a test send finds it stale, or fifteen
sends in a row have failed.

## Implementation notes

`uuid4` gives numbers that were not given before. A push service answers as it likes. A
`requests.Response` with an error status is false, so a notification that is refused has no
status code for `_send_one`; the test send reads the code itself. The log holds what has been recorded of each subscription; no function reads it. The text of a
notification is left out.
-/

namespace RemoteTerm

open Library

/-- `MAX_CONSECUTIVE_FAILURES`. -/
def maxConsecutiveFailures : Nat := 15

theorem maxConsecutiveFailures_pos : 0 < maxConsecutiveFailures := by decide

/-- A row of `push_subscriptions`. -/
structure PushSubscription where
  id : Nat
  endpoint : Text
  p256dh : Text
  auth : Text
  label : Text
  createdAt : Int
  lastSuccessAt : Option Int := none
  failureCount : Nat := 0
  deriving DecidableEq

namespace Push

/-! ### The table -/

/-- What a device subscribes with. -/
structure Subscribe where
  endpoint : Text
  p256dh : Text
  auth : Text
  label : Text

/-- The update of `create` on a conflict. -/
def resubscribe (d : Subscribe) (s : PushSubscription) : PushSubscription :=
  { s with
    p256dh := d.p256dh
    auth := d.auth
    label := if d.label ≠ [] then d.label else s.label
    failureCount := 0 }

/-- `PushSubscriptionRepository.create`. -/
def create (subs : List PushSubscription) (subId : Nat) (now : Int) (d : Subscribe) :
    List PushSubscription :=
  if d.endpoint ∈ subs.map PushSubscription.endpoint then
    subs.map fun s => if s.endpoint = d.endpoint then resubscribe d s else s
  else subs ++ [⟨subId, d.endpoint, d.p256dh, d.auth, d.label, now, none, 0⟩]

/-- `PushSubscriptionRepository.update`. -/
def update (subs : List PushSubscription) (id : Nat) (label : Option Text) :
    List PushSubscription :=
  match label with
  | none => subs
  | some label => subs.map fun s => if s.id = id then { s with label := label } else s

/-- `PushSubscriptionRepository.delete`. -/
def delete (subs : List PushSubscription) (id : Nat) : List PushSubscription :=
  subs.filter fun s => s.id ≠ id

/-- `PushSubscriptionRepository.batch_record_outcomes`. -/
def batchRecordOutcomes (subs : List PushSubscription) (successIds failureIds removeIds : List Nat)
    (now : Int) : List PushSubscription :=
  let removed := subs.filter fun s => s.id ∉ removeIds
  let succeeded := removed.map fun s =>
    if s.id ∈ successIds then { s with lastSuccessAt := some now, failureCount := 0 } else s
  let failed := succeeded.map fun s =>
    if s.id ∈ failureIds then { s with failureCount := s.failureCount + 1 } else s
  failed.filter fun s => ¬ maxConsecutiveFailures ≤ s.failureCount

/-! ### The manager -/

/-- How the send to a subscription ends; the exception may carry a response. -/
inductive SendEnd where
  | sent
  | webPushException (response : Option Nat)
  | timeoutError
  | exception
  | cancelled
  deriving DecidableEq

/-- `_SendResult`. -/
structure SendResult where
  subId : Nat
  success : Bool := false
  expired : Bool := false

/-- The status codes of a subscription that is gone. -/
def isGone (statusCode : Nat) : Bool := statusCode ∈ [403, 404, 410]

/-- The truth value of a response is its `ok`. -/
def responseOk (statusCode : Nat) : Bool := !(400 ≤ statusCode && statusCode < 600)

/-- The `status_code` of `_send_one`. -/
def dispatchStatusCode (response : Option Nat) : Nat :=
  match response with
  | none => 0
  | some statusCode => if responseOk statusCode then statusCode else 0

/-- The `status_code` of `test_push`. -/
def testStatusCode (response : Option Nat) : Nat := response.getD 0

/-- `_send_one`; a cancelled send has no result. -/
def sendOne (subId : Nat) : SendEnd → Option SendResult
  | .sent => some { subId := subId, success := true }
  | .webPushException response =>
      some { subId := subId, expired := isGone (dispatchStatusCode response) }
  | .timeoutError => some { subId := subId }
  | .exception => some { subId := subId }
  | .cancelled => none

/-- A message, as `dispatch_message` reads it. -/
structure PushMessage where
  type : MessageType
  conversationKey : Text
  outgoing : Bool

/-- What `dispatch_message` reads besides: the conversations, unless the read fails, whether
the channel is known to be muted, and whether there is a VAPID key. -/
structure DispatchView where
  pushConversations : Option (List Text)
  muted : Bool
  hasVapidKey : Bool

/-- The checks of `dispatch_message`. -/
def notifies (m : PushMessage) (view : DispatchView) : Bool :=
  !m.outgoing &&
    (match view.pushConversations with
      | none => false
      | some conversations => conversationStateKey m.type m.conversationKey ∈ conversations) &&
    !(m.type = .chan ∧ m.conversationKey ≠ [] ∧ view.muted) && view.hasVapidKey

/-- The end of `dispatch_message`. -/
def recordResults (subs : List PushSubscription) (results : List SendResult) (now : Int) :
    List PushSubscription :=
  let ids (p : SendResult → Bool) : List Nat := (results.filter p).map SendResult.subId
  let removeIds := ids fun r => r.expired
  let successIds := ids fun r => !r.expired && r.success
  let failureIds := ids fun r => !r.expired && !r.success
  if successIds = [] ∧ failureIds = [] ∧ removeIds = [] then subs
  else batchRecordOutcomes subs successIds failureIds removeIds now

/-! ### The system -/

/-- What is recorded of a subscription. -/
inductive Mark where
  | subscribed
  | delivered (now : Int)
  | failed
  | left
  | expired
  | stale
  deriving DecidableEq

/-- What a result records. -/
def SendResult.mark (r : SendResult) (now : Int) : Mark :=
  if r.expired then .expired else if r.success then .delivered now else .failed

structure State where
  subs : List PushSubscription := []
  nextId : Nat := 0
  sending : List (List Nat) := []
  log : Nat → List Mark := fun _ => []

inductive Event where
  | subscribe (device : Subscribe) (now : Int)
  | rename (id : Nat) (label : Option Text)
  | unsubscribe (id : Nat)
  | testPush (id : Nat) (sendEnd : SendEnd)
  | message (m : PushMessage) (view : DispatchView)
  | settled (subIds : List Nat) (ends : Nat → SendEnd) (now : Int)
  | lost (subIds : List Nat)

/-- `PushSubscriptionRepository.get`. -/
def State.get (p : State) (id : Nat) : Option PushSubscription :=
  rowOf PushSubscription.id p.subs id

/-- Marks with one more. -/
def noted (mark : Option Mark) (marks : List Mark) : List Mark :=
  match mark with
  | none => marks
  | some m => m :: marks

/-- The log with a mark for each stored subscription that gets one. -/
def State.logged (p : State) (mark : PushSubscription → Option Mark) (i : Nat) : List Mark :=
  noted ((p.get i).bind mark) (p.log i)

/-- A subscription is deleted. -/
def State.remove (p : State) (id : Nat) (m : Mark) : State :=
  { p with
    subs := delete p.subs id
    log := p.logged fun s => if s.id = id then some m else none }

/-- A device subscribes. -/
def State.subscribe (p : State) (d : Subscribe) (now : Int) : State :=
  { p with
    subs := create p.subs p.nextId now d
    nextId := p.nextId + 1
    log :=
      if d.endpoint ∈ p.subs.map PushSubscription.endpoint then
        p.logged fun s => if s.endpoint = d.endpoint then some .subscribed else none
      else fun i => if i = p.nextId then [.subscribed] else p.log i }

/-- What came of a notification is recorded. -/
def State.settle (p : State) (subIds : List Nat) (ends : Nat → SendEnd) (now : Int) : State :=
  { p with
    subs := recordResults p.subs (subIds.filterMap fun i => sendOne i (ends i)) now
    sending := p.sending.erase subIds
    log := p.logged fun s =>
      if s.id ∈ subIds then (sendOne s.id (ends s.id)).map fun r => r.mark now else none }

def State.apply (p : State) : Event → State
  | .subscribe device now => p.subscribe device now
  | .rename id label => { p with subs := update p.subs id label }
  | .unsubscribe id => p.remove id .left
  | .testPush id sendEnd =>
      match sendEnd with
      | .webPushException response =>
          if isGone (testStatusCode response) then p.remove id .stale else p
      | _ => p
  | .message m view =>
      if notifies m view ∧ p.subs ≠ [] then
        { p with sending := p.sending ++ [p.subs.map PushSubscription.id] }
      else p
  | .settled subIds ends now => p.settle subIds ends now
  | .lost subIds => { p with sending := p.sending.erase subIds }

/-- A notification settles once after it was sent. -/
def State.Allowed (p : State) : Event → Prop
  | .settled subIds _ _ => subIds ∈ p.sending
  | .lost subIds => subIds ∈ p.sending
  | _ => True

/-- A run of the system. -/
def Run (s t : State) : Prop := Machine State.apply State.Allowed s t

/-- The failures since the last success or subscription, the newest mark first. -/
def strikes : List Mark → Nat
  | .failed :: marks => strikes marks + 1
  | _ => 0

/-- The last success. -/
def lastSuccess : List Mark → Option Int
  | [] => none
  | .delivered now :: _ => some now
  | _ :: marks => lastSuccess marks

/-- The marks of a subscription that was made, has not left, was not found stale and has not
failed too often. -/
def Alive (marks : List Mark) : Prop :=
  marks ≠ [] ∧ marks.head? ≠ some .left ∧ marks.head? ≠ some .stale ∧
    strikes marks < maxConsecutiveFailures

/-- A row shows what is recorded of it. -/
def Follows (marks : List Mark) : Option PushSubscription → Prop
  | none => ¬ Alive marks
  | some s => Alive marks ∧ s.failureCount = strikes marks ∧ s.lastSuccessAt = lastSuccess marks

structure Inv (p : State) : Prop where
  sent : ∀ subIds ∈ p.sending, ∀ i ∈ subIds, i < p.nextId
  ids : (p.subs.map PushSubscription.id).Nodup
  endpoints : (p.subs.map PushSubscription.endpoint).Nodup
  fresh : ∀ i, p.nextId ≤ i → p.log i = []
  unexpired : ∀ i, Mark.expired ∉ p.log i
  follows : ∀ i, Follows (p.log i) (p.get i)

variable {p : State}

theorem follows_nil {s : Option PushSubscription} (h : Follows [] s) : s = none := by
  cases s with
  | none => rfl
  | some s => exact absurd rfl h.1.1

/-- One mark on a row that stays. -/
theorem follows_cons {m : Mark} {marks : List Mark} {s : PushSubscription}
    (hleft : m ≠ .left) (hstale : m ≠ .stale)
    (hcount : s.failureCount = strikes (m :: marks))
    (hfew : s.failureCount < maxConsecutiveFailures)
    (hlast : s.lastSuccessAt = lastSuccess (m :: marks)) : Follows (m :: marks) (some s) :=
  ⟨⟨List.cons_ne_nil _ _, by simpa using hleft, by simpa using hstale, hcount ▸ hfew⟩, hcount,
    hlast⟩

theorem expired_notMem_noted {mark : Option Mark} {marks : List Mark} (h : mark ≠ some .expired)
    (hmarks : Mark.expired ∉ marks) : Mark.expired ∉ noted mark marks := by
  cases mark with
  | none => exact hmarks
  | some m => exact List.not_mem_cons_of_ne_of_not_mem (fun heq => h (heq ▸ rfl)) hmarks

namespace Inv

theorem lt_nextId (h : Inv p) {s : PushSubscription} (hs : s ∈ p.subs) : s.id < p.nextId := by
  have hfollows := h.follows s.id
  unfold State.get at hfollows
  rw [KeyedRows.rowOf_of_mem h.ids hs] at hfollows
  by_contra hle
  rw [h.fresh _ (Nat.le_of_not_lt hle)] at hfollows
  cases follows_nil hfollows

theorem count_lt (h : Inv p) {s : PushSubscription} (hs : s ∈ p.subs) :
    s.failureCount < maxConsecutiveFailures := by
  have hfollows := h.follows s.id
  unfold State.get at hfollows
  rw [KeyedRows.rowOf_of_mem h.ids hs] at hfollows
  exact hfollows.2.1 ▸ hfollows.1.2.2.2

/-- The invariant after a statement that drops rows and changes others, each on its own. -/
theorem rows (h : Inv p) {q : State} (f : PushSubscription → Option PushSubscription)
    (mark : PushSubscription → Option Mark)
    (hkeep : ∀ s t, f s = some t → t.id = s.id ∧ t.endpoint = s.endpoint)
    (hrow : ∀ s ∈ p.subs, ∀ marks, Follows marks (some s) → Follows (noted (mark s) marks) (f s))
    (hmark : ∀ s, mark s ≠ some .expired)
    (hsubs : q.subs = p.subs.filterMap f) (hlog : q.log = p.logged mark)
    (hnext : p.nextId ≤ q.nextId) (hsending : q.sending ⊆ p.sending) : Inv q where
  sent subIds hmem i hi := lt_of_lt_of_le (h.sent subIds (hsending hmem) i hi) hnext
  ids := hsubs ▸ h.ids.sublist (KeyedRows.keys_filterMap _ fun s t hst => (hkeep s t hst).1)
  endpoints :=
    hsubs ▸ h.endpoints.sublist (KeyedRows.keys_filterMap _ fun s t hst => (hkeep s t hst).2)
  fresh i hi := by
    have hnil := h.fresh i (hnext.trans hi)
    have hnone : p.get i = none := follows_nil (hnil ▸ h.follows i)
    rw [hlog]
    simp [State.logged, hnone, noted, hnil]
  unexpired i := by
    rw [hlog]
    refine expired_notMem_noted (fun hexpired => ?_) (h.unexpired i)
    obtain ⟨s, -, hs⟩ := Option.bind_eq_some_iff.mp hexpired
    exact hmark s hs
  follows i := by
    have hget : q.get i = (p.get i).bind f := by
      unfold State.get
      rw [hsubs]
      exact KeyedRows.rowOf_filterMap (fun s t hst => (hkeep s t hst).1) h.ids i
    have hfollows := h.follows i
    rw [hlog, hget]
    unfold State.logged
    cases hs : p.get i with
    | none =>
        rw [hs] at hfollows
        exact hfollows
    | some s =>
        rw [hs] at hfollows
        exact hrow s (KeyedRows.rowOf_some hs).1 _ hfollows

theorem remove (h : Inv p) (id : Nat) {m : Mark} (hm : m = .left ∨ m = .stale) :
    Inv (p.remove id m) := by
  refine h.rows (fun s => if s.id = id then none else some s) _ ?_ ?_ ?_ ?_ rfl le_rfl
    (List.Subset.refl _)
  · intro s t hst
    split at hst
    · cases hst
    · cases hst
      exact ⟨rfl, rfl⟩
  · intro s _ marks hfollows
    by_cases hid : s.id = id
    · simp only [hid, if_true, noted]
      rintro ⟨-, hleft, hstale, -⟩
      rcases hm with rfl | rfl
      · exact hleft rfl
      · exact hstale rfl
    · simpa only [hid, if_false, noted] using hfollows
  · intro s hs
    split at hs
    · rcases hm with rfl | rfl <;> cases hs
    · cases hs
  · have hpass := KeyedRows.filter_map_filter p.subs (fun s => decide (s.id ≠ id))
      (fun _ => true) (fun s => s)
    simp only [List.map_id', List.filter_true] at hpass
    refine hpass.trans (List.filterMap_congr fun s _ => ?_)
    by_cases hid : s.id = id
    · simp [hid]
    · simp [hid]

/-- The rows of a map over the table. -/
theorem mapped (h : Inv p) {q : State} (g : PushSubscription → PushSubscription)
    (mark : PushSubscription → Option Mark)
    (hkeep : ∀ s, (g s).id = s.id ∧ (g s).endpoint = s.endpoint)
    (hrow : ∀ s ∈ p.subs, ∀ marks, Follows marks (some s) →
      Follows (noted (mark s) marks) (some (g s)))
    (hmark : ∀ s, mark s ≠ some .expired)
    (hsubs : q.subs = p.subs.map g) (hlog : q.log = p.logged mark)
    (hnext : p.nextId ≤ q.nextId) (hsending : q.sending ⊆ p.sending) : Inv q := by
  refine h.rows (some ∘ g) mark (fun s t hst => ?_) hrow hmark ?_ hlog hnext hsending
  · cases hst
    exact hkeep s
  · rw [List.filterMap_eq_map]
    exact hsubs

theorem rename (h : Inv p) (id : Nat) (label : Option Text) :
    Inv { p with subs := update p.subs id label } := by
  cases label with
  | none => exact h
  | some label =>
      refine h.mapped (fun s => if s.id = id then { s with label := label } else s)
        (fun _ => none) (fun s => ?_) (fun s _ marks hfollows => ?_) (fun _ => nofun) rfl ?_ le_rfl
        (List.Subset.refl _)
      · split <;> exact ⟨rfl, rfl⟩
      · split <;> exact hfollows
      · funext i
        change p.log i = noted ((p.get i).bind fun _ => none) (p.log i)
        rw [Option.bind_fun_none]
        rfl

/-- A device that is known keeps its row. -/
theorem resubscribed (h : Inv p) (d : Subscribe) (now : Int)
    (hknown : d.endpoint ∈ p.subs.map PushSubscription.endpoint) : Inv (p.subscribe d now) := by
  refine h.mapped (fun s => if s.endpoint = d.endpoint then resubscribe d s else s)
    (fun s => if s.endpoint = d.endpoint then some .subscribed else none)
    (fun s => ?_) (fun s _ marks hfollows => ?_) (fun s hs => ?_) ?_ ?_ (Nat.le_succ _)
    (List.Subset.refl _)
  · split <;> exact ⟨rfl, rfl⟩
  · by_cases hd : s.endpoint = d.endpoint
    · simp only [hd, if_true, noted]
      exact follows_cons (by simp) (by simp) rfl maxConsecutiveFailures_pos hfollows.2.2
    · simpa only [hd, if_false, noted] using hfollows
  · split at hs <;> cases hs
  · simp only [State.subscribe, create, if_pos hknown]
  · simp only [State.subscribe, if_pos hknown]

/-- A device that is new gets a row. -/
theorem subscribed (h : Inv p) (d : Subscribe) (now : Int)
    (hnew : d.endpoint ∉ p.subs.map PushSubscription.endpoint) : Inv (p.subscribe d now) := by
  have hsubs : (p.subscribe d now).subs =
      p.subs ++ [⟨p.nextId, d.endpoint, d.p256dh, d.auth, d.label, now, none, 0⟩] := by
    simp only [State.subscribe, create, if_neg hnew]
  have hlog : (p.subscribe d now).log =
      fun i => if i = p.nextId then [.subscribed] else p.log i := by
    simp only [State.subscribe, if_neg hnew]
  have hfresh : p.nextId ∉ p.subs.map PushSubscription.id := by
    intro hmem
    obtain ⟨s, hs, hid⟩ := List.mem_map.mp hmem
    exact Nat.lt_irrefl _ (hid ▸ h.lt_nextId hs)
  refine ⟨fun subIds hmem i hi => Nat.lt_succ_of_lt (h.sent subIds hmem i hi), ?_, ?_,
    fun i hi => ?_, fun i => ?_, fun i => ?_⟩
  · rw [hsubs, List.map_append]
    exact List.nodup_append_comm.mp (List.nodup_cons.mpr ⟨hfresh, h.ids⟩)
  · rw [hsubs, List.map_append]
    exact List.nodup_append_comm.mp (List.nodup_cons.mpr ⟨hnew, h.endpoints⟩)
  · have hlt : p.nextId < i := hi
    rw [hlog]
    simp only [if_neg (Nat.ne_of_gt hlt), h.fresh i (Nat.le_of_lt hlt)]
  · rw [hlog]
    by_cases hi : i = p.nextId
    · simp [hi]
    · simpa only [if_neg hi] using h.unexpired i
  · unfold State.get
    rw [hlog, hsubs, KeyedRows.rowOf_append hfresh]
    by_cases hi : i = p.nextId
    · simp only [if_pos hi]
      exact follows_cons (by simp) (by simp) rfl maxConsecutiveFailures_pos rfl
    · simp only [if_neg hi]
      exact h.follows i

theorem message (h : Inv p) (m : PushMessage) (view : DispatchView) :
    Inv (p.apply (.message m view)) := by
  simp only [State.apply]
  split
  · refine ⟨fun subIds hmem i hi => ?_, h.ids, h.endpoints, h.fresh, h.unexpired,
      h.follows⟩
    rcases List.mem_append.mp hmem with hold | hnew
    · exact h.sent subIds hold i hi
    · rw [List.mem_singleton.mp hnew] at hi
      obtain ⟨s, hs, rfl⟩ := List.mem_map.mp hi
      exact h.lt_nextId hs
  · exact h

end Inv

/-! ### What a notification records -/

theorem sendOne_subId {i : Nat} {e : SendEnd} {r : SendResult} (h : sendOne i e = some r) :
    r.subId = i := by
  cases e <;> cases h <;> rfl

/-- An error status never reaches the check of `_send_one`. -/
theorem isGone_dispatchStatusCode (response : Option Nat) :
    isGone (dispatchStatusCode response) = false := by
  unfold dispatchStatusCode
  cases response with
  | none => rfl
  | some statusCode =>
      by_cases hok : responseOk statusCode = true
      · simp only [hok, if_true]
        simp only [responseOk, Bool.not_eq_true', Bool.and_eq_false_iff, decide_eq_false_iff_not]
          at hok
        simp only [isGone, List.mem_cons, List.not_mem_nil, or_false, decide_eq_false_iff_not]
        omega
      · simp only [hok]
        rfl

/-- **A notification never finds a subscription expired**: what its push service refuses is a
failure like any other. -/
theorem sendOne_not_expired {i : Nat} {e : SendEnd} {r : SendResult} (h : sendOne i e = some r) :
    r.expired = false := by
  cases e with
  | webPushException response =>
      cases h
      exact isGone_dispatchStatusCode response
  | sent | timeoutError | exception =>
      cases h
      rfl
  | cancelled => cases h

/-- The result of the send to a subscription. -/
def resultOf (subIds : List Nat) (ends : Nat → SendEnd) (i : Nat) : Option SendResult :=
  if i ∈ subIds then sendOne i (ends i) else none

theorem mem_resultIds {subIds : List Nat} {ends : Nat → SendEnd} {q : SendResult → Bool} {i : Nat} :
    i ∈ ((subIds.filterMap fun i => sendOne i (ends i)).filter q).map SendResult.subId ↔
      ∃ r, resultOf subIds ends i = some r ∧ q r = true := by
  constructor
  · intro hmem
    obtain ⟨r, hr, rfl⟩ := List.mem_map.mp hmem
    obtain ⟨hr, hq⟩ := List.mem_filter.mp hr
    obtain ⟨j, hj, hsend⟩ := List.mem_filterMap.mp hr
    have hid := sendOne_subId hsend
    exact ⟨r, by rw [resultOf, hid, if_pos hj]; exact hsend, hq⟩
  · rintro ⟨r, hr, hq⟩
    unfold resultOf at hr
    split at hr
    case isTrue hi =>
      have hmem : r ∈ subIds.filterMap fun i => sendOne i (ends i) :=
        List.mem_filterMap.mpr ⟨i, hi, hr⟩
      exact List.mem_map.mpr ⟨r, List.mem_filter.mpr ⟨hmem, hq⟩, sendOne_subId hr⟩
    case isFalse => cases hr

/-- What a result makes of its row. -/
def settleRow (result : Option SendResult) (now : Int) (s : PushSubscription) :
    Option PushSubscription :=
  match result with
  | none => some s
  | some r =>
      if r.expired then none
      else if r.success then some { s with lastSuccessAt := some now, failureCount := 0 }
      else if maxConsecutiveFailures ≤ s.failureCount + 1 then none
      else some { s with failureCount := s.failureCount + 1 }

/-- One row under a batch of outcomes. -/
def batchRow (successIds failureIds removeIds : List Nat) (now : Int) (s : PushSubscription) :
    Option PushSubscription :=
  let succeeded :=
    if s.id ∈ successIds then { s with lastSuccessAt := some now, failureCount := 0 } else s
  let failed :=
    if s.id ∈ failureIds then { succeeded with failureCount := succeeded.failureCount + 1 }
    else succeeded
  if s.id ∉ removeIds ∧ ¬ maxConsecutiveFailures ≤ failed.failureCount then some failed else none

theorem batchRecordOutcomes_eq (subs : List PushSubscription)
    (successIds failureIds removeIds : List Nat) (now : Int) :
    batchRecordOutcomes subs successIds failureIds removeIds now =
      subs.filterMap (batchRow successIds failureIds removeIds now) := by
  have hpass := KeyedRows.filter_map_filter subs (fun s => decide (s.id ∉ removeIds))
    (fun s => decide (¬ maxConsecutiveFailures ≤ s.failureCount))
    ((fun s => if s.id ∈ failureIds then { s with failureCount := s.failureCount + 1 } else s) ∘
      fun s => if s.id ∈ successIds then { s with lastSuccessAt := some now, failureCount := 0 }
        else s)
  rw [← List.map_map] at hpass
  refine hpass.trans (List.filterMap_congr fun s _ => ?_)
  have hid : (if s.id ∈ successIds then
      { s with lastSuccessAt := some now, failureCount := 0 } else s).id = s.id := by
    split <;> rfl
  simp only [batchRow, Function.comp, hid, decide_eq_true_eq]

theorem batchRow_eq (subIds : List Nat) (ends : Nat → SendEnd) (now : Int) {s : PushSubscription}
    {successIds failureIds removeIds : List Nat}
    (hfew : s.failureCount < maxConsecutiveFailures)
    (hremove : s.id ∈ removeIds ↔ ∃ r, resultOf subIds ends s.id = some r ∧ r.expired = true)
    (hsuccess : s.id ∈ successIds ↔
      ∃ r, resultOf subIds ends s.id = some r ∧ (!r.expired && r.success) = true)
    (hfailure : s.id ∈ failureIds ↔
      ∃ r, resultOf subIds ends s.id = some r ∧ (!r.expired && !r.success) = true) :
    batchRow successIds failureIds removeIds now s =
      settleRow (resultOf subIds ends s.id) now s := by
  unfold batchRow settleRow
  cases hr : resultOf subIds ends s.id with
  | none =>
      simp only [hr, reduceCtorEq, false_and, exists_false] at hremove hsuccess hfailure
      simp only [hremove, hsuccess, hfailure, if_false, not_false_eq_true, true_and]
      exact if_pos (Nat.not_le.mpr hfew)
  | some r =>
      simp only [hr, Option.some.injEq, exists_eq_left'] at hremove hsuccess hfailure
      cases hexpired : r.expired with
      | true => simp [hremove, hexpired]
      | false =>
          cases hsent : r.success with
          | true =>
              simp [hremove, hsuccess, hfailure, hexpired, hsent, maxConsecutiveFailures]
          | false =>
              simp only [hremove, hsuccess, hfailure, hexpired, hsent]
              by_cases hmany : maxConsecutiveFailures ≤ s.failureCount + 1
              · simp [hmany]
              · simp [hmany]

/-- A notification settles every row on its own. -/
theorem recordResults_eq {subs : List PushSubscription} {subIds : List Nat}
    {ends : Nat → SendEnd} {now : Int}
    (hfew : ∀ s ∈ subs, s.failureCount < maxConsecutiveFailures) :
    recordResults subs (subIds.filterMap fun i => sendOne i (ends i)) now =
      subs.filterMap fun s => settleRow (resultOf subIds ends s.id) now s := by
  have hrow (s : PushSubscription) (hs : s ∈ subs) :=
    batchRow_eq subIds ends now (hfew s hs) mem_resultIds mem_resultIds mem_resultIds
  unfold recordResults
  simp only
  split
  case isTrue hempty =>
    obtain ⟨hsuccess, hfailure, hremove⟩ := hempty
    calc
      subs = subs.filterMap some := List.filterMap_some.symm
      _ = _ := List.filterMap_congr fun s hs => by
        rw [← hrow s hs, hsuccess, hfailure, hremove]
        simp [batchRow, hfew s hs]
  case isFalse =>
    rw [batchRecordOutcomes_eq]
    exact List.filterMap_congr hrow

theorem settleRow_keeps {result : Option SendResult} {now : Int} {s t : PushSubscription}
    (h : settleRow result now s = some t) : t.id = s.id ∧ t.endpoint = s.endpoint := by
  cases result with
  | none =>
      cases h
      exact ⟨rfl, rfl⟩
  | some r =>
      simp only [settleRow] at h
      split at h
      · cases h
      · split at h
        · cases h
          exact ⟨rfl, rfl⟩
        · split at h
          · cases h
          · cases h
            exact ⟨rfl, rfl⟩

theorem follows_settleRow {marks : List Mark} {s : PushSubscription}
    (h : Follows marks (some s)) {result : Option SendResult}
    (hresult : ∀ r, result = some r → r.expired = false) (now : Int) :
    Follows (noted (result.map fun r => r.mark now) marks) (settleRow result now s) := by
  cases result with
  | none => exact h
  | some r =>
      obtain ⟨-, hcount, hlast⟩ := h
      simp only [settleRow, Option.map_some, noted, SendResult.mark, hresult r rfl]
      by_cases hsent : r.success = true
      · simp only [hsent, if_true]
        exact follows_cons (by simp) (by simp) rfl maxConsecutiveFailures_pos rfl
      · simp only [hsent]
        by_cases hmany : maxConsecutiveFailures ≤ s.failureCount + 1
        · rw [if_pos hmany]
          rintro ⟨-, -, -, hlt⟩
          change strikes marks + 1 < maxConsecutiveFailures at hlt
          omega
        · rw [if_neg hmany]
          exact follows_cons (by simp) (by simp) (congrArg (· + 1) hcount) (Nat.not_le.mp hmany)
            hlast

namespace Inv

theorem settle (h : Inv p) (subIds : List Nat) (ends : Nat → SendEnd) (now : Int) :
    Inv (p.settle subIds ends now) := by
  have hsent (i : Nat) (r : SendResult) (hr : resultOf subIds ends i = some r) :
      r.expired = false := by
    unfold resultOf at hr
    split at hr
    · exact sendOne_not_expired hr
    · cases hr
  refine h.rows (fun s => settleRow (resultOf subIds ends s.id) now s)
    (fun s => (resultOf subIds ends s.id).map fun r => r.mark now)
    (fun s t hst => settleRow_keeps hst)
    (fun s _ marks hfollows => follows_settleRow hfollows (hsent s.id) _) (fun s hs => ?_)
    (recordResults_eq fun s hs => h.count_lt hs) ?_ le_rfl (List.erase_subset ..)
  · obtain ⟨r, hr, hmark⟩ := Option.map_eq_some_iff.mp hs
    simp only [SendResult.mark, hsent s.id r hr] at hmark
    by_cases hsuccess : r.success = true
    · simp [hsuccess] at hmark
    · simp [hsuccess] at hmark
  · funext i
    change noted ((p.get i).bind _) (p.log i) = noted ((p.get i).bind _) (p.log i)
    congr 2
    funext s
    unfold resultOf
    split <;> rfl

theorem lost (h : Inv p) (subIds : List Nat) :
    Inv { p with sending := p.sending.erase subIds } :=
  ⟨fun ids hmem => h.sent ids (List.mem_of_mem_erase hmem), h.ids, h.endpoints, h.fresh,
    h.unexpired, h.follows⟩

theorem testPush (h : Inv p) (id : Nat) (sendEnd : SendEnd) :
    Inv (p.apply (.testPush id sendEnd)) := by
  cases sendEnd with
  | webPushException response =>
      simp only [State.apply]
      split
      · exact h.remove id (.inr rfl)
      · exact h
  | sent => exact h
  | timeoutError => exact h
  | exception => exact h
  | cancelled => exact h

theorem apply (h : Inv p) (e : Event) : Inv (p.apply e) := by
  cases e with
  | subscribe d now =>
      by_cases hknown : d.endpoint ∈ p.subs.map PushSubscription.endpoint
      · exact h.resubscribed d now hknown
      · exact h.subscribed d now hknown
  | rename id label => exact h.rename id label
  | unsubscribe id => exact h.remove id (.inl rfl)
  | testPush id sendEnd => exact h.testPush id sendEnd
  | message m view => exact h.message m view
  | settled subIds ends now => exact h.settle subIds ends now
  | lost subIds => exact h.lost subIds

end Inv

/-- **A device is dropped only for its own failures.** In every run of subscriptions, renames,
deletions, test sends and overlapping notifications, a subscription is in the table if and
only if it was made, has not been deleted, no test send has found it stale and fewer than
fifteen notifications in a row have failed since its last success or renewal; no notification
finds it expired, whatever its push service answers; its columns show these failures and the
last success; no endpoint has two rows; and a notification on its way never reaches the
subscription that is made next. -/
theorem subscriptions_of_run {p : State} (run : Run {} p) :
    (∀ i, i ∈ p.subs.map PushSubscription.id ↔ Alive (p.log i)) ∧
      (∀ i, Mark.expired ∉ p.log i) ∧
      (∀ s ∈ p.subs, s.failureCount = strikes (p.log s.id) ∧
        s.lastSuccessAt = lastSuccess (p.log s.id)) ∧
      (p.subs.map PushSubscription.endpoint).Nodup ∧ ∀ subIds ∈ p.sending, p.nextId ∉ subIds := by
  have h : Inv p := run.invariant (fun _ e _ h => h.apply e)
    ⟨fun _ hmem => (by cases hmem), .nil, .nil, fun _ _ => rfl,
      fun _ => List.not_mem_nil, fun _ halive => halive.1 rfl⟩
  refine ⟨fun i => ?_, h.unexpired, fun s hs => ?_, h.endpoints,
    fun subIds hmem hi => Nat.lt_irrefl _ (h.sent subIds hmem _ hi)⟩
  · have hfollows := h.follows i
    cases hs : p.get i with
    | none =>
        rw [hs] at hfollows
        exact iff_of_false (KeyedRows.rowOf_none.mp hs) hfollows
    | some s =>
        rw [hs] at hfollows
        obtain ⟨hmem, rfl⟩ := KeyedRows.rowOf_some hs
        exact iff_of_true (List.mem_map_of_mem hmem) hfollows.1
  · have hfollows := h.follows s.id
    unfold State.get at hfollows
    rw [KeyedRows.rowOf_of_mem h.ids hs] at hfollows
    exact hfollows.2

/-- A device leaves and subscribes again while a notification is on its way, which is then
refused as gone; the next one is refused too. -/
def lateRefusal : State :=
  let phone : Subscribe := ⟨['e'], ['k'], ['a'], []⟩
  let view : DispatchView := ⟨some [conversationStateKey .priv ['c']], false, true⟩
  (((((({} : State).apply (.subscribe phone 0)).apply (.message ⟨.priv, ['c'], false⟩ view)).apply
    (.unsubscribe 0)).apply (.subscribe phone 1)).apply
      (.settled [0] (fun _ => .webPushException (some 410)) 2)).apply
        (.message ⟨.priv, ['c'], false⟩ view) |>.apply
          (.settled [1] (fun _ => .webPushException (some 410)) 3)

/-- The first refusal does not count against the new subscription, and the second is a failure
that leaves it in the table. -/
theorem subscriptions_of_run_late :
    Alive (lateRefusal.log 1) ∧ lateRefusal.log 1 = [.failed, .subscribed] ∧
      lateRefusal.subs.map (fun s => (s.id, s.failureCount)) = [(1, 1)] := by
  have hids : lateRefusal.subs.map PushSubscription.id = [1] := by decide
  have run : Machine State.apply State.Allowed {} lateRefusal :=
    (((((Machine.single (Event.subscribe _ _) trivial).tail (Event.message _ _) trivial).tail
      (Event.unsubscribe _) trivial).tail (Event.subscribe _ _) trivial).tail
        (Event.settled _ _ _) (by change [0] ∈ State.sending _; decide)).tail
          (Event.message _ _) trivial |>.tail
            (Event.settled _ _ _) (by change [1] ∈ State.sending _; decide)
  exact ⟨((subscriptions_of_run run).1 1).mp (hids ▸ List.mem_singleton_self 1), by decide,
    by decide⟩

end Push

end RemoteTerm
