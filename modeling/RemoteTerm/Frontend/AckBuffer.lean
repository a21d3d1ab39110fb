import Mathlib
import RemoteTerm.Frontend.AckDisplay

/-!
# Acks that wait for their message

An ack that arrives before its message is buffered, and merged with the acks of
the message that were buffered before; the buffer is applied when the message
arrives. The buffer does what the shown message would have done as long as each
merge keeps what the event reports.

## Implementation notes

The events are those of one message. Nothing is assumed of their order.
-/

namespace RemoteTerm

open Library

/-- A shown message after a report. -/
def Message.acknowledge (m : Message) (a : AckEvent) : Message :=
  m.withAck a.ackCount (m.longerPaths a.paths) a.packetId

/-- A message with a buffered ack, when there is one. -/
def Message.withBuffered (m : Message) (pending : Option PendingAckUpdate) : Message :=
  pending.elim m fun p => m.withAck p.ackCount p.paths p.packetId

/-- The buffered ack after a report. -/
def bufferAck (pending : Option PendingAckUpdate) (a : AckEvent) : PendingAckUpdate :=
  mergePendingAck pending a.ackCount a.paths a.packetId

namespace AckState

/-- The hook with a list of messages and a buffer. -/
def holding (messages : List Message) (pendingAcks : PendingAcks) : AckState where
  active := ⟨messages, messages.map Message.contentKey, pendingAcks⟩
  serverAcked _ := 0
  delivered _ := 0

/-- Reports that arrive one after the other. -/
def updateAcks (s : AckState) (events : List AckEvent) : AckState :=
  events.foldl (fun s a => { s with active := s.updateMessageAck a }) s

/-- The message after reports before it arrives and after that. -/
def arriving (row : Message) (before after : List AckEvent) : List Message :=
  let s := (holding [] OrderedMap.empty).updateAcks before
  let (m, pendingAcks) := s.active.pendingAcks.applyPendingAck row
  ((holding [m] pendingAcks).updateAcks after).messages

/-- The message after reports, loaded from the start. -/
def loaded (row : Message) (events : List AckEvent) : List Message :=
  ((holding [row] OrderedMap.empty).updateAcks events).messages

end AckState

/-- The buffer keeps what a report brings. The paths that it takes over are not fewer than those
that are known; a report of a lower count brings nothing that the message would take; and one of the
same count does not drop the packet that was reported before. -/
def Kept (row : Message) (pending : Option PendingAckUpdate) (a : AckEvent) : Prop :=
  match pending with
  | none => ∀ paths ∈ a.paths, row.pathsLen ≤ paths.length
  | some p =>
      let known := p.paths <|> row.paths
      let packetId := p.packetId.getD row.packetId
      if a.ackCount < p.ackCount then
        (∀ paths ∈ a.paths, (known.map List.length).getD 0 ≤ paths.length → known = some paths) ∧
          ∀ reported ∈ a.packetId, packetId = reported
      else
        ∀ paths ∈ a.paths,
          (p.ackCount < a.ackCount ∨ ∀ buffered ∈ p.paths, buffered.length ≤ paths.length) →
            (known.map List.length).getD 0 ≤ paths.length ∧
              (a.ackCount = p.ackCount → a.packetId = none → packetId = row.packetId)

/-- Every report is kept by the buffer that it meets. -/
def AllKept (row : Message) : Option PendingAckUpdate → List AckEvent → Prop
  | _, [] => True
  | pending, a :: rest => Kept row pending a ∧ AllKept row (some (bufferAck pending a)) rest

section Merge

variable {row shown : Message} {a : AckEvent} {p : PendingAckUpdate} {paths : List MessagePath}

/-- What a report leaves of the shown paths. -/
def Message.pathsAfter (m : Message) (paths : Option (List MessagePath)) :
    Option (List MessagePath) :=
  (m.longerPaths paths).elim m.paths some

theorem pathsAfter_none : shown.pathsAfter none = shown.paths := rfl

theorem pathsAfter_some (shown : Message) (paths : List MessagePath) :
    shown.pathsAfter (some paths) =
      if shown.pathsLen ≤ paths.length then some paths else shown.paths := by
  unfold Message.pathsAfter Message.longerPaths
  by_cases h : shown.pathsLen ≤ paths.length
  · rw [if_pos h, Option.filter_some_pos (by simpa using h)]
    rfl
  · rw [if_neg h, Option.filter_some_neg (by simpa using h)]
    rfl

theorem pathsAfter_eq_some_iff :
    shown.pathsAfter (some paths) = some paths ↔ shown.pathsLen ≤ paths.length := by
  rw [pathsAfter_some]
  refine ⟨fun heq => ?_, fun h => if_pos h⟩
  by_contra hlong
  rw [if_neg hlong] at heq
  exact hlong (by rw [Message.pathsLen, heq]; exact le_rfl)

theorem pathsAfter_eq_self_iff :
    shown.pathsAfter (some paths) = shown.paths ↔
      (shown.pathsLen ≤ paths.length → shown.paths = some paths) := by
  rw [pathsAfter_some]
  split_ifs with h
  · exact ⟨fun heq _ => heq.symm, fun heq => (heq h).symm⟩
  · exact ⟨fun _ hle => absurd hle h, fun _ => rfl⟩

/-- A buffered ack does what the shown message does, when it has the same count, paths and
packet. -/
theorem withBuffered_eq_acknowledge_iff {merged : PendingAckUpdate} (row : Message)
    (hcount : merged.ackCount = max p.ackCount a.ackCount) :
    row.withBuffered (some merged) = (row.withBuffered (some p)).acknowledge a ↔
      merged.paths.elim row.paths some = (row.withBuffered (some p)).pathsAfter a.paths ∧
        merged.packetId.getD row.packetId =
          a.packetId.getD (row.withBuffered (some p)).packetId := by
  have hacked : max row.acked merged.ackCount =
      max (row.withBuffered (some p)).acked a.ackCount := by
    rw [hcount, ← max_assoc]
    rfl
  change ({ row with acked := _, paths := _, packetId := _ } : Message) =
    { row with acked := _, paths := _, packetId := _ } ↔ _
  rw [Message.mk.injEq, MessageRow.mk.injEq]
  simp only [true_and, and_true, hacked]
  rfl

/-- What the shown message has from the row and the buffer. -/
theorem withBuffered_paths (row : Message) (p : PendingAckUpdate) :
    (row.withBuffered (some p)).paths = (p.paths <|> row.paths) := by
  change p.paths.elim row.paths some = _
  cases p.paths <;> rfl

theorem withBuffered_packetId (row : Message) (p : PendingAckUpdate) :
    (row.withBuffered (some p)).packetId = p.packetId.getD row.packetId := rfl

theorem withBuffered_pathsLen (row : Message) (p : PendingAckUpdate) :
    (row.withBuffered (some p)).pathsLen = ((p.paths <|> row.paths).map List.length).getD 0 := by
  rw [← withBuffered_paths]
  rfl

theorem elim_some_eq (paths rest : Option (List MessagePath)) :
    paths.elim rest some = (paths <|> rest) := by
  cases paths <;> rfl

/-- A packet that is reported again, or not at all, changes nothing. -/
theorem packetId_unchanged (row : Message)
    (h : (a.packetId.isSome && decide (a.packetId ≠ p.packetId)) = false) :
    p.packetId.getD row.packetId = a.packetId.getD (p.packetId.getD row.packetId) := by
  cases hid : a.packetId with
  | none => rfl
  | some reported =>
      rw [hid] at h
      have heq : some reported = p.packetId := by simpa using h
      rw [← heq]
      rfl

/-- A packet that is reported replaces the one before. -/
theorem packetId_changed (packetId : Option Nat)
    (h : (a.packetId.isSome && decide (a.packetId ≠ p.packetId)) = true) (row : Message) :
    a.packetId.getD row.packetId = a.packetId.getD packetId := by
  cases hid : a.packetId with
  | none => simp [hid] at h
  | some reported => rfl

/-- The first report is buffered as it is. -/
theorem withBuffered_first_iff (row : Message) (a : AckEvent) :
    row.withBuffered (some (bufferAck none a)) = row.acknowledge a ↔ Kept row none a := by
  change ({ row with acked := _, paths := _, packetId := _ } : Message) =
    { row with acked := _, paths := _, packetId := _ } ↔ _
  rw [Message.mk.injEq, MessageRow.mk.injEq, Kept]
  simp only [true_and, and_true, bufferAck, mergePendingAck]
  change a.paths.elim row.paths some = row.pathsAfter a.paths ↔ _
  cases a.paths with
  | none => simp [pathsAfter_none]
  | some paths =>
      rw [Option.elim_some, eq_comm, pathsAfter_eq_some_iff]
      simp

/-- A report of a lower count is dropped. -/
theorem withBuffered_lower_iff (row : Message) (hlow : a.ackCount < p.ackCount) :
    row.withBuffered (some (bufferAck (some p) a)) = (row.withBuffered (some p)).acknowledge a ↔
      Kept row (some p) a := by
  have hmerged : bufferAck (some p) a = p := by
    simp only [bufferAck, mergePendingAck, if_neg (Nat.lt_asymm hlow), if_pos hlow]
  rw [hmerged, withBuffered_eq_acknowledge_iff row (max_eq_left hlow.le).symm, Kept,
    if_pos hlow, elim_some_eq, ← withBuffered_pathsLen, ← withBuffered_paths,
    withBuffered_packetId]
  refine and_congr ?_ ?_
  · cases a.paths with
    | none => simp [pathsAfter_none]
    | some paths =>
        rw [eq_comm, pathsAfter_eq_self_iff]
        simp
  · cases a.packetId with
    | none => simp
    | some reported => simp

/-- A report of a higher count is taken over. -/
theorem withBuffered_higher_iff (row : Message) (hhigh : p.ackCount < a.ackCount) :
    row.withBuffered (some (bufferAck (some p) a)) = (row.withBuffered (some p)).acknowledge a ↔
      Kept row (some p) a := by
  have hmerged : bufferAck (some p) a =
      { ackCount := a.ackCount, paths := a.paths <|> p.paths,
        packetId := a.packetId <|> p.packetId } := by
    simp only [bufferAck, mergePendingAck, if_pos hhigh]
  have hid : (a.packetId <|> p.packetId).getD row.packetId =
      a.packetId.getD (p.packetId.getD row.packetId) := by
    cases a.packetId <;> rfl
  rw [hmerged, withBuffered_eq_acknowledge_iff row (max_eq_right hhigh.le).symm, Kept,
    if_neg (Nat.lt_asymm hhigh), elim_some_eq, ← withBuffered_pathsLen, withBuffered_packetId,
    and_iff_left hid]
  cases a.paths with
  | none => simp [pathsAfter_none, withBuffered_paths]
  | some paths =>
      change some paths = _ ↔ _
      rw [eq_comm, pathsAfter_eq_some_iff]
      simp [hhigh, hhigh.ne']

/-- The buffer after a report of the same count. -/
theorem bufferAck_equal (heq : a.ackCount = p.ackCount) :
    bufferAck (some p) a =
      if ∃ paths ∈ a.paths, ∀ buffered ∈ p.paths, buffered.length ≤ paths.length then
        { ackCount := a.ackCount, paths := a.paths, packetId := a.packetId }
      else
        { p with
          packetId :=
            if a.packetId.isSome && decide (a.packetId ≠ p.packetId) then a.packetId
            else p.packetId } := by
  simp only [bufferAck, mergePendingAck, heq, lt_irrefl, if_false]
  cases a.paths with
  | none => split_ifs <;> simp_all
  | some paths =>
      have hall : ((p.paths.map List.length).all fun n => decide (n ≤ paths.length)) =
          decide (∀ buffered ∈ p.paths, buffered.length ≤ paths.length) := by
        cases p.paths <;> simp
      dsimp only
      rw [hall]
      by_cases hlonger : ∀ buffered ∈ p.paths, buffered.length ≤ paths.length
      · rw [if_pos (decide_eq_true hlonger), if_pos ⟨paths, rfl, hlonger⟩]
      · have hshort : ¬ ∃ taken ∈ some paths,
            ∀ buffered ∈ p.paths, buffered.length ≤ taken.length := by
          rintro ⟨taken, htaken, h⟩
          rw [← Option.mem_some_iff.mp htaken] at h
          exact hlonger h
        simp only [hlonger, hshort, decide_false, Bool.false_eq_true, if_false]
        split_ifs <;> rfl

/-- Paths that are fewer than the buffered ones are not shown. -/
theorem pathsAfter_of_not_taken (row : Message)
    (h : ¬ ∃ paths ∈ a.paths, ∀ buffered ∈ p.paths, buffered.length ≤ paths.length) :
    (row.withBuffered (some p)).pathsAfter a.paths = (p.paths <|> row.paths) := by
  rw [← withBuffered_paths]
  cases hpaths : a.paths with
  | none => rfl
  | some paths =>
      rw [pathsAfter_eq_self_iff]
      refine fun hle => absurd ⟨paths, hpaths, fun buffered hbuffered => ?_⟩ h
      rwa [withBuffered_pathsLen, hbuffered] at hle

/-- A report of the same count replaces the paths by as many or more. -/
theorem withBuffered_equal_iff (row : Message) (heq : a.ackCount = p.ackCount) :
    row.withBuffered (some (bufferAck (some p) a)) = (row.withBuffered (some p)).acknowledge a ↔
      Kept row (some p) a := by
  have hcount : (bufferAck (some p) a).ackCount = max p.ackCount a.ackCount := by
    rw [bufferAck_equal heq]
    split_ifs <;> simp [heq]
  rw [withBuffered_eq_acknowledge_iff row hcount, Kept, if_neg (by omega), bufferAck_equal heq,
    elim_some_eq, ← withBuffered_pathsLen, withBuffered_packetId]
  by_cases htaken : ∃ paths ∈ a.paths, ∀ buffered ∈ p.paths, buffered.length ≤ paths.length
  · rw [if_pos htaken]
    obtain ⟨paths, hpaths, hlonger⟩ := htaken
    rw [Option.mem_def] at hpaths
    rw [hpaths]
    change some paths = _ ∧ _ ↔ _
    rw [eq_comm, pathsAfter_eq_some_iff]
    constructor
    · rintro ⟨hle, hid⟩ taken htaken -
      rw [← Option.mem_some_iff.mp htaken]
      refine ⟨hle, fun _ hnone => ?_⟩
      rw [hnone] at hid
      exact hid.symm
    · intro hkept
      obtain ⟨hle, hid⟩ := hkept paths rfl (Or.inr hlonger)
      refine ⟨hle, ?_⟩
      cases hreported : a.packetId with
      | none => exact (hid heq hreported).symm
      | some reported => rfl
  · rw [if_neg htaken, pathsAfter_of_not_taken row htaken]
    have hid : (if a.packetId.isSome && decide (a.packetId ≠ p.packetId) then a.packetId
        else p.packetId).getD row.packetId =
          a.packetId.getD (p.packetId.getD row.packetId) := by
      split_ifs with hchanged
      · exact packetId_changed _ hchanged row
      · exact packetId_unchanged row (by simpa using hchanged)
    refine iff_of_true ⟨rfl, hid⟩ fun paths hpaths hkept => absurd ⟨paths, hpaths, ?_⟩ htaken
    exact hkept.resolve_left (by omega)

/-- **One merge**: the buffer does what the shown message would have done exactly when it keeps
what the event reports. -/
theorem withBuffered_bufferAck_iff (row : Message) (pending : Option PendingAckUpdate)
    (a : AckEvent) :
    row.withBuffered (some (bufferAck pending a)) = (row.withBuffered pending).acknowledge a ↔
      Kept row pending a := by
  cases pending with
  | none => exact withBuffered_first_iff row a
  | some p =>
      rcases lt_trichotomy a.ackCount p.ackCount with hlow | heq | hhigh
      · exact withBuffered_lower_iff row hlow
      · exact withBuffered_equal_iff row heq
      · exact withBuffered_higher_iff row hhigh

end Merge

section Runs

variable {row m : Message} {pending : Option PendingAckUpdate} {events : List AckEvent}

/-- The buffer after reports. -/
def bufferAcks (pending : Option PendingAckUpdate) (events : List AckEvent) :
    Option PendingAckUpdate :=
  events.foldl (fun pending a => some (bufferAck pending a)) pending

/-- A message after reports. -/
def Message.acknowledgeAll (m : Message) (events : List AckEvent) : Message :=
  events.foldl Message.acknowledge m

/-- A buffer that keeps every report does what the shown message does. -/
theorem withBuffered_bufferAcks (h : AllKept row pending events) :
    row.withBuffered (bufferAcks pending events) =
      (row.withBuffered pending).acknowledgeAll events := by
  induction events generalizing pending with
  | nil => rfl
  | cons a rest ih =>
      obtain ⟨hkept, hrest⟩ := h
      have hone := (withBuffered_bufferAck_iff row pending a).mpr hkept
      exact (ih hrest).trans (congrArg (fun m => m.acknowledgeAll rest) hone)

theorem allKept_of_start {before : List AckEvent} (h : AllKept row pending events)
    (hbefore : before <+: events) : AllKept row pending before := by
  induction before generalizing pending events with
  | nil => trivial
  | cons a before ih =>
      obtain ⟨rest, rfl⟩ := hbefore
      exact ⟨h.1, ih h.2 (List.prefix_append before rest)⟩

/-- A buffer that does so after every prefix of the reports keeps them all. -/
theorem allKept_of_prefixes
    (h : ∀ before, before <+: events → row.withBuffered (bufferAcks pending before) =
      (row.withBuffered pending).acknowledgeAll before) :
    AllKept row pending events := by
  induction events generalizing pending with
  | nil => trivial
  | cons a rest ih =>
      have hone := h [a] (List.cons_prefix_cons.mpr ⟨rfl, List.nil_prefix⟩)
      refine ⟨(withBuffered_bufferAck_iff row pending a).mp hone, ih fun before hbefore => ?_⟩
      have hmore := h (a :: before) (List.cons_prefix_cons.mpr ⟨rfl, hbefore⟩)
      exact hmore.trans (congrArg (fun m => m.acknowledgeAll before) hone.symm)

/-- The buffer that holds one message's ack. -/
def PendingAcks.only (id : Nat) (pending : Option PendingAckUpdate) : PendingAcks :=
  pending.elim OrderedMap.empty fun p => OrderedMap.empty.set id p

theorem PendingAcks.get?_only (id : Nat) (pending : Option PendingAckUpdate) :
    (PendingAcks.only id pending).get? id = pending := by
  cases pending <;> simp [PendingAcks.only]

theorem PendingAcks.pop_only (id : Nat) (pending : Option PendingAckUpdate) :
    (PendingAcks.only id pending).pop id = PendingAcks.only id none := by
  cases pending with
  | none => rfl
  | some p =>
      simp [PendingAcks.only, OrderedMap.pop, OrderedMap.filter, OrderedMap.set, OrderedMap.empty]

/-- One message's ack stays within the size of the buffer. -/
theorem PendingAcks.setPendingAck_only (a : AckEvent) (pending : Option PendingAckUpdate) :
    (PendingAcks.only a.messageId pending).setPendingAck a.messageId a.ackCount a.paths
        a.packetId =
      PendingAcks.only a.messageId (some (bufferAck pending a)) := by
  rw [PendingAcks.setPendingAck, PendingAcks.get?_only, PendingAcks.pop_only,
    if_neg]
  · rfl
  · simp [PendingAcks.only, OrderedMap.size, OrderedMap.set, OrderedMap.empty, maxPendingAcks]

/-- The buffer takes the reports of a message that is not shown. -/
theorem updateAcks_buffered (pending : Option PendingAckUpdate) {id : Nat}
    (hids : ∀ e ∈ events, e.messageId = id) :
    (AckState.holding [] (PendingAcks.only id pending)).updateAcks events =
      AckState.holding [] (PendingAcks.only id (bufferAcks pending events)) := by
  induction events generalizing pending with
  | nil => rfl
  | cons a rest ih =>
      have ha : a.messageId = id := hids a List.mem_cons_self
      have hone : (AckState.holding [] (PendingAcks.only id pending)).updateMessageAck a =
          ⟨[], [], PendingAcks.only id (some (bufferAck pending a))⟩ := by
        rw [AckState.updateMessageAck, if_neg (by simp [AckState.holding, AckState.messages]), ← ha,
          ← PendingAcks.setPendingAck_only]
        rfl
      refine Eq.trans ?_ (ih _ fun e he => hids e (List.mem_cons_of_mem a he))
      exact congrArg (fun active => AckState.updateAcks
        { AckState.holding [] (PendingAcks.only id pending) with active } rest) hone

/-- A shown message takes its reports. -/
theorem updateAcks_shown {s : AckState} (hshown : s.messages = [m])
    (hids : ∀ e ∈ events, e.messageId = m.id) :
    (s.updateAcks events).messages = [m.acknowledgeAll events] := by
  induction events generalizing s m with
  | nil => exact hshown
  | cons a rest ih =>
      have ha : a.messageId = m.id := hids a List.mem_cons_self
      refine ih (m := m.acknowledge a) ?_ fun e he => hids e (List.mem_cons_of_mem a he)
      change (s.updateMessageAck a).messages = _
      rw [AckState.updateMessageAck, hshown, if_pos (by simp [ha])]
      simp [replaceMessage, ha, Message.acknowledge]

/-- A message that arrives between its reports. -/
theorem arriving_eq {before after : List AckEvent}
    (hbefore : ∀ e ∈ before, e.messageId = row.id) (hafter : ∀ e ∈ after, e.messageId = row.id) :
    AckState.arriving row before after =
      [(row.withBuffered (bufferAcks none before)).acknowledgeAll after] := by
  have hbuffered : ((AckState.holding [] OrderedMap.empty).updateAcks before).active.pendingAcks =
      PendingAcks.only row.id (bufferAcks none before) :=
    congrArg (fun s => s.active.pendingAcks) (updateAcks_buffered none hbefore)
  have hrow : ((PendingAcks.only row.id (bufferAcks none before)).applyPendingAck row).1 =
      row.withBuffered (bufferAcks none before) := by
    rw [PendingAcks.applyPendingAck, PendingAcks.get?_only]
    cases bufferAcks none before <;> rfl
  have hid : (row.withBuffered (bufferAcks none before)).id = row.id := by
    cases bufferAcks none before <;> rfl
  rw [← hrow, AckState.arriving, hbuffered]
  refine updateAcks_shown rfl fun e he => ?_
  rw [hrow, hid]
  exact hafter e he

/-- **Buffered acks**: wherever the message arrives in its reports, it ends as if it had been loaded
from the start, exactly when the buffer keeps every report. -/
theorem buffered_acks_equal_live (row : Message) (events : List AckEvent)
    (hids : ∀ e ∈ events, e.messageId = row.id) :
    (∀ before after, before ++ after <+: events →
        AckState.arriving row before after = AckState.loaded row (before ++ after)) ↔
      AllKept row none events := by
  have hloaded : ∀ part, part <+: events →
      AckState.loaded row part = [row.acknowledgeAll part] := fun part hpart =>
    updateAcks_shown rfl fun e he => hids e (hpart.subset he)
  constructor
  · refine fun h => allKept_of_prefixes fun before hbefore => ?_
    have harrive := h before [] (by rwa [List.append_nil])
    rw [List.append_nil, hloaded before hbefore,
      arriving_eq (fun e he => hids e (hbefore.subset he)) (by simp)] at harrive
    exact List.singleton_inj.mp harrive
  · intro hkept before after hpart
    have hmem : ∀ e ∈ before ++ after, e.messageId = row.id := fun e he =>
      hids e (hpart.subset he)
    rw [hloaded _ hpart, arriving_eq (fun e he => hmem e (List.mem_append_left _ he))
      (fun e he => hmem e (List.mem_append_right _ he))]
    have hbefore := withBuffered_bufferAcks
      (allKept_of_start hkept ((List.prefix_append before after).trans hpart))
    rw [hbefore, Message.acknowledgeAll, Message.acknowledgeAll, Message.acknowledgeAll,
      List.foldl_append]
    rfl

/-- An outgoing direct message as it is stored. -/
private def sentDirect : Message where
  id := 7
  type := .priv
  conversationKey := "ab".toList
  text := "hello".toList
  senderTimestamp := some 100
  receivedAt := 100
  paths := none
  txtType := 0
  signature := none
  outgoing := true
  acked := 0
  senderName := none
  senderKey := none
  transportCode := none
  region := none
  packetId := none

/-- An echo that is heard, and the ack after it. -/
private def heardEcho : AckEvent :=
  { messageId := 7, ackCount := 0, paths := some [{ path := "1c".toList, receivedAt := 101 }],
    packetId := some (some 3) }

private def oneAck : AckEvent := { messageId := 7, ackCount := 1 }

/-- Reports in their order are kept. -/
theorem buffered_acks_equal_live_ordered :
    AckState.arriving sentDirect [heardEcho, oneAck] [] =
      AckState.loaded sentDirect [heardEcho, oneAck] :=
  (buffered_acks_equal_live sentDirect [heardEcho, oneAck] (by decide)).mpr
    (by simp [AllKept, Kept, bufferAck, mergePendingAck, sentDirect, heardEcho, oneAck,
      Message.pathsLen])
    [heardEcho, oneAck] [] (by simp)

/-- The echo is lost when the ack overtakes it before the message arrives. -/
theorem overtaken_echo_lost :
    (AckState.arriving sentDirect [oneAck, heardEcho] []).map (fun m => (m.paths, m.packetId)) ≠
      (AckState.loaded sentDirect [oneAck, heardEcho]).map fun m => (m.paths, m.packetId) := by
  decide

end Runs

end RemoteTerm
