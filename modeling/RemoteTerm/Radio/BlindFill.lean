import Mathlib
import RemoteTerm.Library.Machine
import RemoteTerm.Radio.Reconcile

/-!
# The blind fill of a radio with auto-eviction

With auto-eviction the background reconciliation adds every desired contact
again, a batch at a time, and is complete after a full pass without a failure.
The flag that records a failure is reset before each batch, so a failure counts
only in the last batch of its pass.

## Implementation notes

Contacts are the positions of the desired list, which is fixed over a run; the
source selects it anew before each batch. The state also remembers which of them
the radio accepted and refused during the current pass; the loop does not read
that.
-/

namespace RemoteTerm

open Library

/-- `_MAX_AUTOEVICT_RETRIES`. -/
def maxAutoevictRetries : Nat := 3

/-- What a batch leaves. -/
structure FilledBatch where
  processedContacts : Nat := 0
  autoevictPassFailed : Bool := false
  tableFull : Bool := false
  accepted : List Nat := []
  refused : List Nat := []

/-- The contacts of a batch are added one after the other, up to one that finds the table full. -/
def fillBatch (reply : Nat → ContactReply) : List Nat → FilledBatch
  | [] => {}
  | i :: rest =>
      let filled := fillBatch reply rest
      if (reply i).adds then
        { filled with
          processedContacts := filled.processedContacts + 1
          accepted := i :: filled.accepted }
      else if (reply i).tableFull then
        { autoevictPassFailed := true, tableFull := true, refused := [i] }
      else
        { filled with
          processedContacts := filled.processedContacts + 1
          autoevictPassFailed := true
          refused := i :: filled.refused }

/-- Where the loop is. -/
inductive FillOutcome where
  | running
  | complete
  | gaveUp
  | tableFull
  | transportChanged
  deriving DecidableEq

/-- The variables of the loop, and the contacts that were accepted and refused in this pass. -/
structure BlindFill where
  autoevictNextIndex : Nat := 0
  autoevictFullPassRetries : Nat := 0
  outcome : FillOutcome := .running
  accepted : List Nat := []
  refused : List Nat := []

/-- What a turn of the loop meets. -/
inductive FillEvent where
  | transportChanged
  | busy
  | batch (reply : Nat → ContactReply)

namespace BlindFill

variable (desired : List Text) (batchSize : Nat) (s : BlindFill)

/-- The slice of the desired contacts that a batch tries. -/
def batchContacts : List Nat :=
  List.range' s.autoevictNextIndex (min batchSize (desired.length - s.autoevictNextIndex))

/-- The cursor starts again behind the end of the list; with it starts a pass. -/
def rewound : BlindFill :=
  if s.autoevictNextIndex ≥ desired.length ∨ s.autoevictNextIndex = 0 then
    { s with autoevictNextIndex := 0, accepted := [], refused := [] }
  else s

/-- The state behind a batch that was tried. -/
def afterBatch (filled : FilledBatch) : BlindFill :=
  let next : BlindFill :=
    { s with
      autoevictNextIndex := s.autoevictNextIndex + filled.processedContacts
      accepted := s.accepted ++ filled.accepted
      refused := s.refused ++ filled.refused }
  if filled.tableFull then { next with outcome := .tableFull }
  else if next.autoevictNextIndex ≥ desired.length then
    if filled.autoevictPassFailed then
      let retries := s.autoevictFullPassRetries + 1
      if retries ≥ maxAutoevictRetries then
        { next with autoevictFullPassRetries := retries, outcome := .gaveUp }
      else { next with autoevictFullPassRetries := retries, autoevictNextIndex := 0 }
    else { next with outcome := .complete }
  else next

/-- `_reconcile_radio_contacts_in_background`: one turn of the loop with auto-eviction. -/
def turn : FillEvent → BlindFill
  | .transportChanged =>
      if s.outcome = .running then { s with outcome := .transportChanged } else s
  | .busy =>
      if s.outcome = .running ∧ desired = [] then { s with outcome := .complete } else s
  | .batch reply =>
      if s.outcome = .running then
        if desired = [] then { s with outcome := .complete }
        else
          let started := s.rewound desired
          started.afterBatch desired (fillBatch reply (started.batchContacts desired batchSize))
      else s

/-- The last batch of a pass does not succeed when a contact was refused earlier in the pass. -/
def FailureSurvives (s : BlindFill) : FillEvent → Prop
  | .batch reply =>
      s.outcome = .running → s.autoevictNextIndex ≠ 0 → s.refused ≠ [] →
        s.autoevictNextIndex + batchSize ≥ desired.length →
        ∃ i, s.autoevictNextIndex ≤ i ∧ i < desired.length ∧ (reply i).adds = false
  | _ => True

end BlindFill

/-- What a batch that does not find the table full leaves: every contact was tried. -/
theorem fillBatch_spec {reply : Nat → ContactReply} {contacts : List Nat}
    (h : (fillBatch reply contacts).tableFull = false) :
    (fillBatch reply contacts).processedContacts = contacts.length ∧
      (fillBatch reply contacts).accepted = contacts.filter (fun i => (reply i).adds) ∧
      (fillBatch reply contacts).refused = contacts.filter (fun i => !(reply i).adds) ∧
      ((fillBatch reply contacts).autoevictPassFailed = true ↔
        ∃ i ∈ contacts, (reply i).adds = false) := by
  induction contacts with
  | nil => exact ⟨rfl, rfl, rfl, by simp [fillBatch]⟩
  | cons i rest ih =>
      unfold fillBatch at h ⊢
      dsimp only at h ⊢
      split_ifs at h ⊢ with hadds hfull
      · obtain ⟨hprocessed, haccepted, hrefused, hfailed⟩ := ih h
        refine ⟨congrArg (· + 1) hprocessed, ?_, ?_, ?_⟩
        · rw [List.filter_cons_of_pos (by exact hadds), haccepted]
        · rw [List.filter_cons_of_neg (by simp [hadds]), hrefused]
        · rw [hfailed, List.exists_mem_cons_iff, hadds]
          simp
      · obtain ⟨hprocessed, haccepted, hrefused, -⟩ := ih h
        refine ⟨congrArg (· + 1) hprocessed, ?_, ?_, ?_⟩
        · rw [List.filter_cons_of_neg (by exact hadds), haccepted]
        · rw [List.filter_cons_of_pos (by simpa using hadds), hrefused]
        · exact iff_of_true rfl ⟨i, List.mem_cons_self, by simpa using hadds⟩

/-- A batch whose contacts are all accepted. -/
theorem fillBatch_of_adds {reply : Nat → ContactReply} {contacts : List Nat}
    (h : ∀ i ∈ contacts, (reply i).adds = true) :
    (fillBatch reply contacts).tableFull = false := by
  induction contacts with
  | nil => rfl
  | cons i rest ih =>
      obtain ⟨hi, hrest⟩ := List.forall_mem_cons.mp h
      unfold fillBatch
      dsimp only
      rw [if_pos hi]
      exact ih hrest

namespace BlindFill

variable {desired : List Text} {batchSize : Nat} {s : BlindFill}

@[simp] theorem rewound_outcome (desired : List Text) (s : BlindFill) :
    (s.rewound desired).outcome = s.outcome := by
  unfold rewound
  split_ifs <;> rfl

theorem mem_batchContacts {i : Nat} :
    i ∈ s.batchContacts desired batchSize ↔
      s.autoevictNextIndex ≤ i ∧ i < desired.length ∧ i < s.autoevictNextIndex + batchSize := by
  rw [batchContacts, List.mem_range'_1]
  omega

/-- What is known of the contacts before the cursor: each was accepted or refused. -/
structure Tried (desired : List Text) (s : BlindFill) : Prop where
  inside : s.autoevictNextIndex < desired.length
  disjoint : ∀ i ∈ s.refused, i ∉ s.accepted
  tried : ∀ i, i ∈ s.accepted ∨ i ∈ s.refused ↔ i < s.autoevictNextIndex

/-- What holds in every state of the loop. -/
structure PassKnown (desired : List Text) (s : BlindFill) : Prop where
  before : s.outcome = .running → s.autoevictNextIndex ≠ 0 → s.Tried desired
  whole : s.outcome = .complete → desired ≠ [] →
    ∀ i, i ∈ s.accepted ∨ i ∈ s.refused ↔ i < desired.length

/-- Nothing is known when the loop starts. -/
theorem passKnown_start (desired : List Text) : PassKnown desired {} :=
  ⟨fun _ hne => absurd rfl hne, fun heq => (by cases heq)⟩

/-- A batch starts with the contacts before the cursor tried. -/
theorem PassKnown.rewound (h : s.PassKnown desired) (hrunning : s.outcome = .running)
    (hdesired : desired ≠ []) : (s.rewound desired).Tried desired := by
  unfold BlindFill.rewound
  split_ifs with hstart
  · refine ⟨List.length_pos_iff.mpr hdesired, fun _ hi => absurd hi List.not_mem_nil, fun i => ?_⟩
    exact iff_of_false (by simp) (Nat.not_lt_zero i)
  · exact h.before hrunning fun hzero => hstart (Or.inr hzero)

/-- A batch adds its contacts to those that were tried. -/
theorem Tried.fill (h : s.Tried desired) {reply : Nat → ContactReply}
    (hfull : (fillBatch reply (s.batchContacts desired batchSize)).tableFull = false) :
    let filled := fillBatch reply (s.batchContacts desired batchSize)
    filled.processedContacts = min batchSize (desired.length - s.autoevictNextIndex) ∧
      (∀ i ∈ s.refused ++ filled.refused, i ∉ s.accepted ++ filled.accepted) ∧
      ∀ i, i ∈ s.accepted ++ filled.accepted ∨ i ∈ s.refused ++ filled.refused ↔
        i < s.autoevictNextIndex + filled.processedContacts := by
  obtain ⟨hprocessed, haccepted, hrefused, -⟩ := fillBatch_spec hfull
  have hlength : (s.batchContacts desired batchSize).length =
      min batchSize (desired.length - s.autoevictNextIndex) := List.length_range'
  have hinside := h.inside
  dsimp only
  rw [hprocessed, haccepted, hrefused, hlength]
  refine ⟨rfl, ?_, ?_⟩
  · intro i hi
    have hold := h.tried i
    have hdisjoint := h.disjoint i
    simp only [List.mem_append, List.mem_filter, mem_batchContacts, Bool.not_eq_true'] at hi ⊢
    rintro (hacc | ⟨⟨hle, -⟩, hadds⟩)
    · rcases hi with hi | ⟨⟨hle, -⟩, -⟩
      · exact hdisjoint hi hacc
      · have hlt := hold.mp (Or.inl hacc)
        omega
    · rcases hi with hi | ⟨-, hnot⟩
      · have hlt := hold.mp (Or.inr hi)
        omega
      · rw [hadds] at hnot
        cases hnot
  · intro i
    have hold := h.tried i
    simp only [List.mem_append, List.mem_filter, mem_batchContacts, Bool.not_eq_true']
    constructor
    · rintro ((hi | hi) | (hi | hi))
      · have hlt := hold.mp (Or.inl hi)
        omega
      · omega
      · have hlt := hold.mp (Or.inr hi)
        omega
      · omega
    · intro hlt
      by_cases hi : i < s.autoevictNextIndex
      · exact (hold.mpr hi).elim (fun hi => Or.inl (Or.inl hi)) fun hi => Or.inr (Or.inl hi)
      · have hin : s.autoevictNextIndex ≤ i ∧ i < desired.length ∧
            i < s.autoevictNextIndex + batchSize := by omega
        cases hadds : (reply i).adds with
        | true => exact Or.inl (Or.inr ⟨hin, rfl⟩)
        | false => exact Or.inr (Or.inr ⟨hin, rfl⟩)

/-- The outcome of a batch: complete when the pass ends and every contact of the batch was
accepted. -/
theorem Tried.after_complete_iff (batchSize : Nat) (h : s.Tried desired)
    (hrunning : s.outcome = .running) (reply : Nat → ContactReply) :
    (s.afterBatch desired (fillBatch reply (s.batchContacts desired batchSize))).outcome =
        .complete ↔
      s.autoevictNextIndex + batchSize ≥ desired.length ∧
        ∀ i ∈ s.batchContacts desired batchSize, (reply i).adds = true := by
  have hinside := h.inside
  unfold afterBatch
  dsimp only
  by_cases hfull : (fillBatch reply (s.batchContacts desired batchSize)).tableFull = true
  · rw [if_pos hfull]
    refine iff_of_false (fun heq => by cases heq) fun hall => ?_
    rw [fillBatch_of_adds hall.2] at hfull
    cases hfull
  · rw [if_neg hfull]
    have hfull' := Bool.eq_false_iff.mpr hfull
    obtain ⟨hprocessed, -⟩ := h.fill hfull'
    obtain ⟨-, -, -, hfailed⟩ := fillBatch_spec hfull'
    rw [hprocessed]
    by_cases hend : s.autoevictNextIndex + batchSize ≥ desired.length
    · rw [if_pos (by omega)]
      split_ifs with hfail hgiveUp
      · obtain ⟨i, hi, hnot⟩ := hfailed.mp hfail
        exact iff_of_false (fun heq => by cases heq) fun hall => by
          rw [hall.2 i hi] at hnot
          cases hnot
      · obtain ⟨i, hi, hnot⟩ := hfailed.mp hfail
        exact iff_of_false (fun heq => by rw [hrunning] at heq; cases heq) fun hall => by
          rw [hall.2 i hi] at hnot
          cases hnot
      · refine iff_of_true rfl ⟨hend, fun i hi => ?_⟩
        by_contra hnot
        exact hfail (hfailed.mpr ⟨i, hi, Bool.eq_false_iff.mpr hnot⟩)
    · rw [if_neg (by omega)]
      refine iff_of_false (fun heq => ?_) fun hall => hend hall.1
      rw [hrunning] at heq
      cases heq

/-- A batch keeps what is known. -/
theorem Tried.after (h : s.Tried desired) (hrunning : s.outcome = .running)
    (reply : Nat → ContactReply) :
    (s.afterBatch desired (fillBatch reply (s.batchContacts desired batchSize))).PassKnown
      desired := by
  have hinside := h.inside
  have hcomplete := h.after_complete_iff batchSize hrunning reply
  unfold afterBatch at hcomplete ⊢
  dsimp only at hcomplete ⊢
  by_cases hfull : (fillBatch reply (s.batchContacts desired batchSize)).tableFull = true
  · rw [if_pos hfull]
    exact ⟨fun heq => (by cases heq), fun heq => (by cases heq)⟩
  · rw [if_neg hfull] at hcomplete ⊢
    obtain ⟨hprocessed, hdisjoint, htried⟩ := h.fill (Bool.eq_false_iff.mpr hfull)
    split_ifs at hcomplete ⊢ with hend hfail hgiveUp
    · exact ⟨fun heq => (by cases heq), fun heq => (by cases heq)⟩
    · exact ⟨fun _ hne => absurd rfl hne, fun heq => (by rw [hrunning] at heq; cases heq)⟩
    · refine ⟨fun heq => (by cases heq), fun _ _ i => (htried i).trans ?_⟩
      omega
    · refine ⟨fun _ _ => ⟨not_le.mp hend, hdisjoint, htried⟩, fun heq => ?_⟩
      rw [hrunning] at heq
      cases heq

/-- Every turn keeps what is known. -/
theorem PassKnown.turn (h : s.PassKnown desired) (e : FillEvent) :
    (s.turn desired batchSize e).PassKnown desired := by
  cases e with
  | transportChanged =>
      rw [BlindFill.turn]
      split_ifs
      · exact ⟨fun heq => (by cases heq), fun heq => (by cases heq)⟩
      · exact h
  | busy =>
      rw [BlindFill.turn]
      split_ifs with hempty
      · exact ⟨fun heq => (by cases heq), fun _ hne => absurd hempty.2 hne⟩
      · exact h
  | batch reply =>
      rw [BlindFill.turn]
      split_ifs with hrunning hempty
      · exact ⟨fun heq => (by cases heq), fun _ hne => absurd hempty hne⟩
      · have houtcome := (rewound_outcome desired s).trans hrunning
        exact (h.rewound hrunning hempty).after houtcome reply
      · exact h

/-- Every desired contact was accepted in the current pass. -/
def AllAccepted (desired : List Text) (s : BlindFill) : Prop :=
  ∀ i < desired.length, i ∈ s.accepted

/-- A batch that completes the fill accepted every contact in its pass exactly when none was refused
before it. -/
theorem Tried.after_allAccepted_iff (h : s.Tried desired) (hrunning : s.outcome = .running)
    {reply : Nat → ContactReply}
    (hcomplete : (s.afterBatch desired
      (fillBatch reply (s.batchContacts desired batchSize))).outcome = .complete) :
    (s.afterBatch desired (fillBatch reply (s.batchContacts desired batchSize))).AllAccepted
        desired ↔ s.refused = [] := by
  obtain ⟨hend, hadds⟩ := (h.after_complete_iff batchSize hrunning reply).mp hcomplete
  have hinside := h.inside
  have hfull := fillBatch_of_adds hadds
  obtain ⟨hprocessed, hdisjoint, htried⟩ := h.fill hfull
  obtain ⟨-, -, hrefused, -⟩ := fillBatch_spec hfull
  have hnone : (fillBatch reply (s.batchContacts desired batchSize)).refused = [] := by
    rw [hrefused, List.filter_eq_nil_iff]
    intro i hi
    rw [hadds i hi]
    decide
  have haccepted : (s.afterBatch desired
      (fillBatch reply (s.batchContacts desired batchSize))).accepted =
      s.accepted ++ (fillBatch reply (s.batchContacts desired batchSize)).accepted := by
    unfold afterBatch
    dsimp only
    split_ifs <;> rfl
  have hall : ∀ i,
      i ∈ s.accepted ++ (fillBatch reply (s.batchContacts desired batchSize)).accepted ∨
        i ∈ s.refused ↔ i < desired.length := by
    intro i
    have hi := htried i
    rw [hnone, List.append_nil, hprocessed] at hi
    rw [hi]
    omega
  unfold AllAccepted
  rw [haccepted]
  constructor
  · intro hevery
    refine List.eq_nil_iff_forall_not_mem.mpr fun i hi => ?_
    exact hdisjoint i (List.mem_append_left _ hi) (hevery i ((hall i).mp (Or.inr hi)))
  · intro hnil i hi
    refine ((hall i).mpr hi).resolve_right ?_
    rw [hnil]
    exact List.not_mem_nil

/-- A turn that completes the fill accepted every contact in its pass exactly when a failure before
its batch was not forgotten. -/
theorem PassKnown.turn_complete (h : s.PassKnown desired) (hrunning : s.outcome = .running)
    (e : FillEvent) :
    ((s.turn desired batchSize e).outcome = .complete →
        (s.turn desired batchSize e).AllAccepted desired) ↔
      FailureSurvives desired batchSize s e := by
  cases e with
  | transportChanged =>
      refine iff_of_true (fun heq => ?_) trivial
      rw [BlindFill.turn, if_pos hrunning] at heq
      cases heq
  | busy =>
      refine iff_of_true (fun heq => ?_) trivial
      rw [BlindFill.turn] at heq ⊢
      split_ifs at heq ⊢ with hempty
      · intro i hi
        rw [hempty.2] at hi
        exact absurd hi (Nat.not_lt_zero i)
      · rw [hrunning] at heq
        cases heq
  | batch reply =>
      by_cases hempty : desired = []
      · subst hempty
        refine iff_of_true (fun _ i hi => absurd hi (Nat.not_lt_zero i)) fun _ hne _ _ => ?_
        exact absurd (h.before hrunning hne).inside (Nat.not_lt_zero _)
      · have houtcome := (rewound_outcome desired s).trans hrunning
        have htried := h.rewound hrunning hempty
        have hcomplete := htried.after_complete_iff batchSize houtcome reply
        have hturn : s.turn desired batchSize (.batch reply) =
            (s.rewound desired).afterBatch desired
              (fillBatch reply ((s.rewound desired).batchContacts desired batchSize)) := by
          rw [BlindFill.turn, if_pos hrunning, if_neg hempty]
        have hsame : s.autoevictNextIndex ≠ 0 → s.rewound desired = s := by
          intro hne
          refine if_neg (not_or.mpr ⟨not_le.mpr (h.before hrunning hne).inside, hne⟩)
        have hfresh : s.autoevictNextIndex = 0 → (s.rewound desired).refused = [] := by
          intro hzero
          rw [BlindFill.rewound, if_pos (Or.inr hzero)]
        rw [hturn]
        constructor
        · intro hall _ hne hrefused hend
          by_contra hsucceeds
          have hdone := hcomplete.mpr (by
            rw [hsame hne]
            refine ⟨hend, fun i hi => ?_⟩
            by_contra hnot
            obtain ⟨hle, hlt, -⟩ := mem_batchContacts.mp hi
            exact hsucceeds ⟨i, hle, hlt, Bool.eq_false_iff.mpr hnot⟩)
          have hnone := (htried.after_allAccepted_iff houtcome hdone).mp (hall hdone)
          rw [hsame hne] at hnone
          exact hrefused hnone
        · intro hsurvives hdone
          refine (htried.after_allAccepted_iff houtcome hdone).mpr ?_
          by_cases hzero : s.autoevictNextIndex = 0
          · exact hfresh hzero
          · obtain ⟨hend, hadds⟩ := hcomplete.mp hdone
            rw [hsame hzero] at hend hadds ⊢
            by_contra hrefused
            obtain ⟨i, hle, hlt, hnot⟩ := hsurvives hrunning hzero hrefused hend
            rw [hadds i (mem_batchContacts.mpr ⟨hle, hlt, by omega⟩)] at hnot
            cases hnot

/-- A turn of a loop that has ended changes nothing. -/
theorem turn_of_ended (h : s.outcome ≠ .running) (e : FillEvent) :
    s.turn desired batchSize e = s := by
  cases e with
  | transportChanged => rw [BlindFill.turn, if_neg h]
  | busy => rw [BlindFill.turn, if_neg fun hand => h hand.1]
  | batch reply => rw [BlindFill.turn, if_neg h]

/-- A run of the loop under a condition on its turns. -/
abbrev Run (desired : List Text) (batchSize : Nat) (ok : BlindFill → FillEvent → Prop) :
    BlindFill → BlindFill → Prop :=
  Machine (fun s e => s.turn desired batchSize e) ok

/-- What is known holds in every run. -/
theorem Run.known {ok : BlindFill → FillEvent → Prop} {t : BlindFill}
    (run : Run desired batchSize ok {} t) : t.PassKnown desired :=
  run.invariant (fun _ e _ h => h.turn e) (passKnown_start desired)

end BlindFill

/-- **The blind fill is complete only when every desired contact was accepted in the current pass**,
in every run whose passes do not end with a successful batch after a failed one; a pass that does
is reported complete without the contact that was refused. -/
theorem blind_fill_complete (desired : List Text) (batchSize : Nat) :
    (∀ t, BlindFill.Run desired batchSize (BlindFill.FailureSurvives desired batchSize) {} t →
      t.outcome = .complete → t.AllAccepted desired) ∧
    ∀ s, BlindFill.Run desired batchSize (fun _ _ => True) {} s →
      ∀ e, ¬ BlindFill.FailureSurvives desired batchSize s e →
        (s.turn desired batchSize e).outcome = .complete ∧
          ¬ (s.turn desired batchSize e).AllAccepted desired := by
  constructor
  · intro t run
    refine (Machine.invariant (P := fun s => s.PassKnown desired ∧
      (s.outcome = .complete → s.AllAccepted desired)) ?_ run ?_).2
    · rintro s e hok ⟨hknown, hdone⟩
      refine ⟨hknown.turn e, ?_⟩
      by_cases hrunning : s.outcome = .running
      · exact (hknown.turn_complete hrunning e).mpr hok
      · rw [BlindFill.turn_of_ended hrunning]
        exact hdone
    · exact ⟨BlindFill.passKnown_start desired, fun heq => (by cases heq)⟩
  · intro s run e hfails
    have hrunning : s.outcome = .running := by
      by_contra hended
      apply hfails
      cases e with
      | batch reply => exact fun hrun => absurd hrun hended
      | _ => trivial
    exact Classical.not_imp.mp fun hall =>
      hfails ((run.known.turn_complete hrunning e).mp hall)

section Runs

/-- Three desired contacts. -/
def threeContacts : List Text := [['a'], ['b'], ['c']]

/-- The radio accepts every contact. -/
def acceptAll : FillEvent := .batch fun _ => .ok

/-- The radio does not answer for the first contact. -/
def refuseFirst : FillEvent := .batch fun i => if i = 0 then .error none else .ok

theorem blind_fill_complete_three :
    BlindFill.AllAccepted threeContacts
      ((BlindFill.turn threeContacts contactReconcileBatchSize {} acceptAll).turn threeContacts
        contactReconcileBatchSize acceptAll) :=
  (blind_fill_complete threeContacts contactReconcileBatchSize).1 _
    (((Machine.refl _).tail acceptAll fun _ hne => absurd rfl hne).tail acceptAll
      fun _ _ hrefused => absurd (by decide) hrefused)
    (by decide)

/-- The refusal in the first batch is forgotten by the second. -/
theorem blind_fill_forgets :
    ∃ t, BlindFill.Run threeContacts contactReconcileBatchSize (fun _ _ => True) {} t ∧
      t.outcome = .complete ∧ ¬ t.AllAccepted threeContacts := by
  refine ⟨_, ((Machine.refl _).tail refuseFirst trivial).tail acceptAll trivial, by decide, ?_⟩
  intro hall
  exact absurd (hall 0 (by decide)) (by decide)

end Runs

end RemoteTerm
