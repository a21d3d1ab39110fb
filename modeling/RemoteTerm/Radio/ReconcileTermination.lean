import Mathlib
import RemoteTerm.Radio.Reconcile

/-!
# When the contact reconciliation ends

A pass either changes the table or sees the same obstacles again. The contacts
that the radio will not remove use up commands in every pass, and so do those
that it will not add; they are the same in every pass. The loop ends exactly
when there are none, or when a full table is met before the budget is used up.
-/

namespace RemoteTerm

open Library

namespace Reconciliation

variable {r : Reconciliation}

section Removal

variable {keys table : List Text} {budget : Nat}

/-- A contact that is not desired and that the radio removes. -/
def removable (r : Reconciliation) (key : Text) : Bool :=
  decide (key ∉ r.desiredContacts) && (r.removeContact key).removes

theorem removalPhase_sublist (keys : List Text) (budget : Nat) (table : List Text) :
    (r.removalPhase keys budget table).2.Sublist table := by
  induction keys generalizing budget table with
  | nil => exact List.Sublist.refl _
  | cons key keys ih =>
      cases budget with
      | zero => exact List.Sublist.refl _
      | succ budget =>
          unfold removalPhase
          split
          · exact ih _ _
          · split
            · exact (ih _ _).trans List.filter_sublist
            · exact ih _ _

/-- Only removable contacts leave the table. -/
theorem removalPhase_filter {p : Text → Bool} (hp : ∀ key, r.removable key = true → p key = false)
    (keys : List Text) (budget : Nat) (table : List Text) :
    (r.removalPhase keys budget table).2.filter p = table.filter p := by
  induction keys generalizing budget table with
  | nil => rfl
  | cons key keys ih =>
      cases budget with
      | zero => rfl
      | succ budget =>
          unfold removalPhase
          split
          · exact ih _ _
          next hdesired =>
            split
            next hremoves =>
              rw [ih, List.filter_filter]
              refine List.filter_congr fun k _ => ?_
              by_cases hk : k = key
              · subst hk
                rw [hp k (by simp [removable, hdesired, hremoves]), Bool.false_and]
              · simp [hk]
            · exact ih _ _

/-- Contacts that the radio will not remove cost a command each. -/
theorem removalPhase_budget (keys : List Text) (budget : Nat) (table : List Text) :
    (r.removalPhase keys budget table).1 = 0 ∨
      (r.removalPhase keys budget table).1 + keys.countP r.unremovable ≤ budget := by
  induction keys generalizing budget table with
  | nil => exact .inr (by simp [removalPhase])
  | cons key keys ih =>
      cases budget with
      | zero => exact .inl rfl
      | succ budget =>
          rw [List.countP_cons]
          unfold removalPhase
          split
          next hdesired =>
            have hnot : r.unremovable key = false := by simp [unremovable, hdesired]
            simpa [hnot] using ih (budget + 1) table
          next hdesired =>
            have hle : (if r.unremovable key = true then 1 else 0) ≤ 1 := by split <;> omega
            split
            · exact (ih budget _).imp id fun h => by omega
            · exact (ih budget _).imp id fun h => by omega

/-- When the budget covers the contacts that the radio will not remove, a removable contact
leaves the table, or there was none. -/
theorem removalPhase_progress (hsub : ∀ key ∈ keys, key ∈ table)
    (hbudget : keys.countP r.unremovable < budget) :
    (r.removalPhase keys budget table).2.length < table.length ∨
      (∀ key ∈ keys, r.removable key = false) ∧
        r.removalPhase keys budget table = (budget - keys.countP r.unremovable, table) := by
  induction keys generalizing budget with
  | nil => exact .inr ⟨fun key hkey => (by cases hkey), by simp [removalPhase]⟩
  | cons key keys ih =>
      obtain ⟨budget, rfl⟩ : ∃ n, budget = n + 1 := ⟨budget - 1, by omega⟩
      have hsub' : ∀ key ∈ keys, key ∈ table := fun k hk => hsub k (List.mem_cons_of_mem _ hk)
      rw [List.countP_cons] at hbudget ⊢
      unfold removalPhase
      split
      next hdesired =>
        have hunremovable : r.unremovable key = false := by simp [unremovable, hdesired]
        have hremovable : r.removable key = false := by simp [removable, hdesired]
        simp only [hunremovable] at hbudget ⊢
        refine (ih hsub' (by simpa using hbudget)).imp id fun h => ⟨?_, by simpa using h.2⟩
        simpa [hremovable] using h.1
      next hdesired =>
        split
        next hremoves =>
          refine .inl (lt_of_le_of_lt (removalPhase_sublist ..).length_le ?_)
          exact List.length_filter_lt_length_iff_exists.mpr
            ⟨key, hsub key List.mem_cons_self, by simp⟩
        next hremoves =>
          have hunremovable : r.unremovable key = true := by
            simp [unremovable, hdesired, hremoves]
          have hremovable : r.removable key = false := by simp [removable, hremoves]
          rw [if_pos hunremovable] at hbudget ⊢
          refine (ih hsub' (by omega)).imp id fun h => ⟨?_, ?_⟩
          · simpa [hremovable] using h.1
          · rw [h.2]
            congr 1
            omega

end Removal

section Addition

variable {keys table : List Text} {budget : Nat}

/-- The desired contacts of a list that cannot be added. -/
abbrev refusedOf (r : Reconciliation) (keys table : List Text) : List Text :=
  keys.filter (r.unaddable table)

/-- Some contact of the list finds the table full, before the failing ones use up the budget. -/
def MeetsFull (r : Reconciliation) (refused : List Text) (budget : Nat) : Prop :=
  (∃ key ∈ refused, r.fullAt key = true) ∧
    (refused.takeWhile fun k => !r.fullAt k).length < budget

/-- The library has the contact, or the radio adds it. -/
def addable (r : Reconciliation) (key : Text) : Bool :=
  r.libraryHas key || (r.addContact key).adds

theorem unaddable_eq_false {key : Text} (h : r.addable key = true) (table : List Text) :
    r.unaddable table key = false := by
  rcases Bool.or_eq_true_iff.mp h with h | h <;> simp [unaddable, h]

/-- A contact that can be added is no obstacle, in the table or not. -/
theorem unaddable_append {key : Text} (h : r.addable key = true) (table : List Text) :
    r.unaddable (table ++ [key]) = r.unaddable table := by
  funext k
  by_cases hk : k = key
  · rw [hk, unaddable_eq_false h, unaddable_eq_false h]
  · simp [unaddable, hk]

/-- The cases of one contact in the addition phase. -/
theorem additionPhase_cons (key : Text) (keys : List Text) (budget : Nat) (table : List Text) :
    key ∈ table ∧ r.additionPhase (key :: keys) (budget + 1) table =
        r.additionPhase keys (budget + 1) table ∨
      (key ∉ table ∧ r.addable key = true ∧ ∃ budget', budget ≤ budget' ∧ budget' ≤ budget + 1 ∧
        r.additionPhase (key :: keys) (budget + 1) table =
          r.additionPhase keys budget' (table ++ [key])) ∨
      (r.unaddable table key = true ∧ r.fullAt key = true ∧
        r.additionPhase (key :: keys) (budget + 1) table = (table, true)) ∨
      (r.unaddable table key = true ∧ r.fullAt key = false ∧
        r.additionPhase (key :: keys) (budget + 1) table = r.additionPhase keys budget table) := by
  by_cases hmem : key ∈ table
  · exact .inl ⟨hmem, by rw [additionPhase, if_pos hmem]⟩
  · right
    by_cases hlibrary : r.libraryHas key = true
    · refine .inl ⟨hmem, by simp [addable, hlibrary], budget + 1, by omega, le_rfl, ?_⟩
      rw [additionPhase, if_neg hmem, if_pos hlibrary]
    · by_cases hadds : (r.addContact key).adds = true
      · refine .inl ⟨hmem, by simp [addable, hadds], budget, le_rfl, by omega, ?_⟩
        rw [additionPhase, if_neg hmem, if_neg hlibrary, if_pos hadds]
      · have hunaddable : r.unaddable table key = true := by
          simp [unaddable, hmem, hlibrary, hadds]
        right
        by_cases hfull : r.fullAt key = true
        · refine .inl ⟨hunaddable, hfull, ?_⟩
          rw [additionPhase, if_neg hmem, if_neg hlibrary, if_neg hadds,
            if_pos (show (r.addContact key).tableFull = true from hfull)]
        · refine .inr ⟨hunaddable, by simpa using hfull, ?_⟩
          rw [additionPhase, if_neg hmem, if_neg hlibrary, if_neg hadds,
            if_neg (show ¬ (r.addContact key).tableFull = true from hfull)]

theorem additionPhase_zero (keys table : List Text) :
    r.additionPhase keys 0 table = (table, false) := by
  cases keys <;> rfl

/-- The addition phase appends missing contacts that can be added. -/
theorem additionPhase_append (keys : List Text) (budget : Nat) (table : List Text) :
    ∃ added, (r.additionPhase keys budget table).1 = table ++ added ∧
      (∀ key ∈ added, key ∈ keys ∧ key ∉ table ∧ r.addable key = true) ∧ added.Nodup := by
  induction keys generalizing budget table with
  | nil =>
      exact ⟨[], by simp [additionPhase], fun key hkey => (by cases hkey), List.nodup_nil⟩
  | cons key keys ih =>
      have hlater : ∀ budget', ∃ added, (r.additionPhase keys budget' table).1 = table ++ added ∧
          (∀ k ∈ added, k ∈ key :: keys ∧ k ∉ table ∧ r.addable k = true) ∧ added.Nodup := by
        intro budget'
        obtain ⟨added, heq, hadded, hnodup⟩ := ih budget' table
        exact ⟨added, heq, fun k hk => ⟨List.mem_cons_of_mem _ (hadded k hk).1, (hadded k hk).2⟩,
          hnodup⟩
      cases budget with
      | zero => exact ⟨[], by simp [additionPhase], fun key hkey => (by cases hkey), List.nodup_nil⟩
      | succ budget =>
          rcases additionPhase_cons (r := r) key keys budget table with
            ⟨-, heq⟩ | ⟨hmem, haddable, budget', -, -, heq⟩ | ⟨-, -, heq⟩ | ⟨-, -, heq⟩
          · rw [heq]
            exact hlater _
          · rw [heq]
            obtain ⟨added, hadd, hadded, hnodup⟩ := ih budget' (table ++ [key])
            refine ⟨key :: added, by rw [hadd]; simp, ?_, ?_⟩
            · intro k hk
              rcases List.mem_cons.mp hk with rfl | hk
              · exact ⟨List.mem_cons_self, hmem, haddable⟩
              · obtain ⟨hkeys, htable, hk'⟩ := hadded k hk
                exact ⟨List.mem_cons_of_mem _ hkeys,
                  fun h => htable (List.mem_append_left _ h), hk'⟩
            · refine List.nodup_cons.mpr ⟨fun hk => ?_, hnodup⟩
              exact (hadded key hk).2.1 (List.mem_append_right _ (List.mem_singleton_self _))
          · rw [heq]
            exact ⟨[], by simp, fun k hk => (by cases hk), List.nodup_nil⟩
          · rw [heq]
            exact hlater _

/-- The radio is met full only when the failing contacts before leave budget for it. -/
theorem meetsFull_of_additionPhase (h : (r.additionPhase keys budget table).2 = true) :
    r.MeetsFull (r.refusedOf keys table) budget := by
  induction keys generalizing budget table with
  | nil => cases h
  | cons key keys ih =>
      cases budget with
      | zero => cases h
      | succ budget =>
          rcases additionPhase_cons (r := r) key keys budget table with
            ⟨hmem, heq⟩ | ⟨hmem, haddable, budget', -, hle, heq⟩ | ⟨hunaddable, hfull, heq⟩ |
              ⟨hunaddable, hfull, heq⟩
          · rw [heq] at h
            have hnot : r.unaddable table key = false := by simp [unaddable, hmem]
            simpa [refusedOf, List.filter_cons, hnot] using ih h
          · rw [heq] at h
            obtain ⟨hexists, hlength⟩ := ih h
            simp only [refusedOf, unaddable_append haddable] at hexists hlength
            simp only [MeetsFull, refusedOf, List.filter_cons, unaddable_eq_false haddable]
            exact ⟨hexists, by simpa using hlength.trans_le hle⟩
          · refine ⟨⟨key, List.mem_filter.mpr ⟨List.mem_cons_self, hunaddable⟩, hfull⟩, ?_⟩
            simp [refusedOf, hunaddable, hfull]
          · rw [heq] at h
            obtain ⟨⟨k, hk, hkfull⟩, hlength⟩ := ih h
            refine ⟨⟨k, ?_, hkfull⟩, ?_⟩
            · rw [refusedOf, List.filter_cons_of_pos hunaddable]
              exact List.mem_cons_of_mem _ hk
            · rw [refusedOf, List.filter_cons_of_pos hunaddable, List.takeWhile_cons, hfull]
              simpa using hlength

/-- With budget for the failing contacts, the addition phase meets a full table, adds a contact,
or has nothing to add. -/
theorem additionPhase_progress
    (h : r.refusedOf keys table = [] ∧ 0 < budget ∨ r.MeetsFull (r.refusedOf keys table) budget) :
    (r.additionPhase keys budget table).2 = true ∨
      table.length < (r.additionPhase keys budget table).1.length ∨ ∀ key ∈ keys, key ∈ table := by
  induction keys generalizing budget with
  | nil => exact .inr (.inr fun key hkey => (by cases hkey))
  | cons key keys ih =>
      obtain ⟨budget, rfl⟩ : ∃ n, budget = n + 1 := by
        rcases h with ⟨-, hpos⟩ | ⟨-, hlt⟩ <;> exact ⟨budget - 1, by omega⟩
      rcases additionPhase_cons (r := r) key keys budget table with
        ⟨hmem, heq⟩ | ⟨hmem, haddable, budget', -, hle, heq⟩ | ⟨hunaddable, hfull, heq⟩ |
          ⟨hunaddable, hfull, heq⟩
      · rw [heq]
        have hnot : r.unaddable table key = false := by simp [unaddable, hmem]
        have hrefused : r.refusedOf (key :: keys) table = r.refusedOf keys table := by
          simp [refusedOf, hnot]
        rw [hrefused] at h
        refine (ih h).imp id fun h => h.imp id fun h k hk => ?_
        rcases List.mem_cons.mp hk with rfl | hk
        · exact hmem
        · exact h k hk
      · rw [heq]
        obtain ⟨added, hadd, -, -⟩ := additionPhase_append (r := r) keys budget' (table ++ [key])
        refine .inr (.inl ?_)
        rw [hadd]
        simp only [List.length_append, List.length_singleton]
        omega
      · rw [heq]
        exact .inl rfl
      · rw [heq]
        have hrefused : r.refusedOf (key :: keys) table = key :: r.refusedOf keys table :=
          List.filter_cons_of_pos hunaddable
        rw [hrefused] at h
        obtain ⟨hnil, -⟩ | ⟨⟨k, hk, hkfull⟩, hlength⟩ := h
        · cases hnil
        · have hk' : k ∈ r.refusedOf keys table := by
            rcases List.mem_cons.mp hk with rfl | hk
            · exact absurd (hfull.symm.trans hkfull) Bool.false_ne_true
            · exact hk
          have hlength' : ((r.refusedOf keys table).takeWhile fun k => !r.fullAt k).length <
              budget := by
            rw [List.takeWhile_cons, hfull] at hlength
            simpa using hlength
          refine (ih (.inr ⟨⟨k, hk', hkfull⟩, hlength'⟩)).imp id fun h => h.imp id fun h => ?_
          -- the contact that finds the table full is missing
          obtain ⟨hkeys, hmissing⟩ := List.mem_filter.mp hk'
          simp [unaddable, h k hkeys] at hmissing

end Addition

section Pass

variable {table : List Text}

/-- What a pass leaves: the table without some removable contacts, and some added ones. -/
theorem pass_spec (r : Reconciliation) (table : List Text) :
    ∃ added, (r.pass table).1 =
        (r.removalPhase table contactReconcileBatchSize table).2 ++ added ∧
      ∀ key ∈ added, key ∈ r.desiredContacts ∧ r.addable key = true := by
  obtain ⟨added, heq, hadded, -⟩ := additionPhase_append (r := r) r.desiredContacts
    (r.removalPhase table contactReconcileBatchSize table).1
    (r.removalPhase table contactReconcileBatchSize table).2
  exact ⟨added, heq, fun key hkey => ⟨(hadded key hkey).1, (hadded key hkey).2.2⟩⟩

theorem mem_removalPhase_iff {key : Text} (h : r.removable key = false) (keys : List Text)
    (budget : Nat) : key ∈ (r.removalPhase keys budget table).2 ↔ key ∈ table := by
  have hfilter := removalPhase_filter (r := r) (p := fun k => !r.removable k)
    (fun k hk => by rw [hk]; rfl) keys budget table
  have hmem : ∀ l : List Text, key ∈ l.filter (fun k => !r.removable k) ↔ key ∈ l := by
    intro l
    simp [h]
  rw [← hmem, hfilter, hmem]

theorem removable_of_desired {key : Text} (h : key ∈ r.desiredContacts) :
    r.removable key = false := by
  simp [removable, h]

/-- A desired contact stays in the table. -/
theorem mem_pass_of_mem {key : Text} (hdesired : key ∈ r.desiredContacts) (h : key ∈ table) :
    key ∈ (r.pass table).1 := by
  obtain ⟨added, heq, -⟩ := pass_spec r table
  rw [heq]
  exact List.mem_append_left _ ((mem_removalPhase_iff (removable_of_desired hdesired) ..).mpr h)

/-- The contacts that stay for good are the same after a pass. -/
theorem stuckRemovals_pass (table : List Text) :
    r.stuckRemovals (r.pass table).1 = r.stuckRemovals table := by
  obtain ⟨added, heq, hadded⟩ := pass_spec r table
  have hnone : added.countP r.unremovable = 0 := by
    rw [List.countP_eq_zero]
    intro key hkey
    simp [unremovable, (hadded key hkey).1]
  have hkept := removalPhase_filter (r := r) (p := r.unremovable)
    (fun key hkey => by
      simp only [removable, Bool.and_eq_true] at hkey
      simp [unremovable, hkey.2]) table contactReconcileBatchSize table
  rw [stuckRemovals, stuckRemovals, heq, List.countP_append, hnone, Nat.add_zero,
    List.countP_eq_length_filter, hkept, List.countP_eq_length_filter]

/-- The contacts that cannot be added are the same after each phase of a pass. -/
theorem refusedOf_removalPhase (table : List Text) :
    r.refusedOf r.desiredContacts (r.removalPhase table contactReconcileBatchSize table).2 =
      r.refused table := by
  refine List.filter_congr fun key hkey => ?_
  simp only [unaddable, mem_removalPhase_iff (removable_of_desired hkey)]

theorem refused_pass (table : List Text) : r.refused (r.pass table).1 = r.refused table := by
  obtain ⟨added, heq, hadded⟩ := pass_spec r table
  refine List.filter_congr fun key hkey => ?_
  by_cases haddable : r.addable key = true
  · rw [unaddable_eq_false haddable, unaddable_eq_false haddable]
  · have hmem : key ∈ (r.pass table).1 ↔ key ∈ table := by
      rw [heq, List.mem_append, mem_removalPhase_iff (removable_of_desired hkey)]
      exact or_iff_left fun hmem => haddable (hadded key hmem).2
    simp only [unaddable, hmem]

/-- A pass sees the same obstacles again. -/
theorem canStop_pass (table : List Text) : r.CanStop (r.pass table).1 ↔ r.CanStop table := by
  rw [CanStop, CanStop, stuckRemovals_pass, refused_pass]

theorem Settled.canStop (h : r.Settled table) : r.CanStop table := by
  refine .inl ⟨List.countP_eq_zero.mpr ?_, List.filter_eq_nil_iff.mpr ?_⟩
  · intro key hkey
    simp [unremovable, h.1 key hkey]
  · intro key hkey
    simp [unaddable, h.2 key hkey]

/-- A pass that finds the table full was not kept from it by failing commands. -/
theorem canStop_of_full (h : (r.pass table).2 = true) : r.CanStop table := by
  have hmeets := meetsFull_of_additionPhase h
  rw [refusedOf_removalPhase] at hmeets
  obtain ⟨hexists, hlength⟩ := hmeets
  refine .inr ⟨hexists, ?_⟩
  rcases removalPhase_budget (r := r) table contactReconcileBatchSize table with hzero | hle
  · rw [hzero] at hlength
    exact absurd hlength (Nat.not_lt_zero _)
  · rw [stuckRemovals]
    omega

/-- What is left to do. -/
def workLeft (r : Reconciliation) (table : List Text) : Nat :=
  table.countP r.removable + r.desiredContacts.countP fun key => decide (key ∉ table)

theorem countP_removable_pass (table : List Text) :
    (r.pass table).1.countP r.removable =
      (r.removalPhase table contactReconcileBatchSize table).2.countP r.removable := by
  obtain ⟨added, heq, hadded⟩ := pass_spec r table
  have hnone : added.countP r.removable = 0 := by
    rw [List.countP_eq_zero]
    intro key hkey
    simp [removable_of_desired (hadded key hkey).1]
  rw [heq, List.countP_append, hnone, Nat.add_zero]

theorem countP_missing_pass (table : List Text) :
    (r.desiredContacts.countP fun key => decide (key ∉ (r.pass table).1)) ≤
      r.desiredContacts.countP fun key => decide (key ∉ table) := by
  refine List.countP_mono_left fun key hkey hmissing => ?_
  simp only [decide_eq_true_eq] at *
  exact fun h => hmissing (mem_pass_of_mem hkey h)

/-- Fewer elements that satisfy a predicate, when one of them no longer does. -/
theorem countP_lt_of_mem {α : Type} {p q : α → Bool} {l : List α}
    (hle : ∀ x ∈ l, p x = true → q x = true) {x : α} (hx : x ∈ l) (hp : p x = false)
    (hq : q x = true) : l.countP p < l.countP q := by
  obtain ⟨before, after, rfl⟩ := List.append_of_mem hx
  have hbefore : before.countP p ≤ before.countP q :=
    List.countP_mono_left fun y hy => hle y (List.mem_append_left _ hy)
  have hafter : after.countP p ≤ after.countP q :=
    List.countP_mono_left fun y hy => hle y
      (List.mem_append_right _ (List.mem_cons_of_mem _ hy))
  simp only [List.countP_append, List.countP_cons, hp, hq, if_true, Bool.false_eq_true, if_false]
  omega

/-- Without obstacles in the way, a pass that does not end the loop does some of the work. -/
theorem workLeft_pass (hcan : r.CanStop table) (hsettled : ¬ r.Settled table)
    (hfull : (r.pass table).2 = false) : r.workLeft (r.pass table).1 < r.workLeft table := by
  have hbudget : r.stuckRemovals table < contactReconcileBatchSize := by
    rcases hcan with ⟨hzero, -⟩ | ⟨-, hlt⟩
    · rw [hzero]
      decide
    · omega
  have hmissing := countP_missing_pass (r := r) table
  rw [workLeft, workLeft, countP_removable_pass]
  rcases removalPhase_progress (r := r) (fun key hkey => hkey) hbudget with
    hshorter | ⟨hnone, heq⟩
  · -- a contact was removed
    have hkept := removalPhase_filter (r := r) (p := fun key => !r.removable key)
      (fun key hkey => by rw [hkey]; rfl) table contactReconcileBatchSize table
    have hlength := congrArg List.length hkept
    rw [← List.countP_eq_length_filter, ← List.countP_eq_length_filter] at hlength
    have hsplit : ∀ l : List Text, l.length = l.countP r.removable +
        l.countP fun key => !r.removable key := by
      intro l
      simpa using List.length_eq_countP_add_countP r.removable (l := l)
    have h₁ := hsplit table
    have h₂ := hsplit (r.removalPhase table contactReconcileBatchSize table).2
    omega
  · -- nothing is to be removed, so the budget goes to the missing contacts
    have hpass : r.pass table = r.additionPhase r.desiredContacts
        (contactReconcileBatchSize - r.stuckRemovals table) table := by
      rw [pass, heq]
      rfl
    have hready : r.refusedOf r.desiredContacts table = [] ∧
          0 < contactReconcileBatchSize - r.stuckRemovals table ∨
        r.MeetsFull (r.refusedOf r.desiredContacts table)
          (contactReconcileBatchSize - r.stuckRemovals table) := by
      rcases hcan with ⟨-, hnil⟩ | ⟨hexists, hlt⟩
      · exact .inl ⟨hnil, by omega⟩
      · exact .inr ⟨hexists, by
          change (List.takeWhile _ (r.refused table)).length < _
          omega⟩
    rw [heq]
    rcases additionPhase_progress hready with hstop | hgrew | hall
    · rw [hpass] at hfull
      exact absurd (hfull.symm.trans hstop) Bool.false_ne_true
    · obtain ⟨added, hadd, hadded, -⟩ := additionPhase_append (r := r) r.desiredContacts
        (contactReconcileBatchSize - r.stuckRemovals table) table
      rw [hadd, List.length_append] at hgrew
      obtain ⟨key, hkey⟩ := List.exists_mem_of_length_pos (l := added) (by omega)
      obtain ⟨hdesired, hnew, -⟩ := hadded key hkey
      have hlt := countP_lt_of_mem (p := fun key => decide (key ∉ (r.pass table).1))
        (q := fun key => decide (key ∉ table)) (l := r.desiredContacts) (x := key)
        (by
          intro k hk hmiss
          simp only [decide_eq_true_eq] at *
          exact fun h => hmiss (mem_pass_of_mem hk h)) hdesired
        (by simp [hpass, hadd, hkey]) (by simp [hnew])
      dsimp only
      omega
    · -- nothing is missing, and then the table is settled
      exfalso
      have hnil : r.refused table = [] := by
        refine List.filter_eq_nil_iff.mpr fun key hkey => ?_
        simp [unaddable, hall key hkey]
      have hzero : r.stuckRemovals table = 0 := by
        rcases hcan with ⟨hzero, -⟩ | ⟨⟨key, hkey, -⟩, -⟩
        · exact hzero
        · rw [hnil] at hkey
          cases hkey
      refine hsettled ⟨fun key hkey => ?_, hall⟩
      by_contra hnot
      have hremovable := hnone key hkey
      have hunremovable := List.countP_eq_zero.mp hzero key hkey
      simp only [removable, hnot, not_false_eq_true, decide_true, Bool.true_and] at hremovable
      simp [unremovable, hnot, hremovable] at hunremovable

end Pass

section Turns

/-- A loop that can stop does. -/
theorem exists_stopped (table : List Text) (hcan : r.CanStop table) :
    ∃ n, (r.turn^[n] (.running table)).stopped = true := by
  induction hwork : r.workLeft table using Nat.strong_induction_on generalizing table with
  | _ work ih =>
      by_cases hsettled : r.Settled table
      · exact ⟨1, by simp [turn, hsettled, Loop.stopped]⟩
      · cases hfull : (r.pass table).2 with
        | true => exact ⟨1, by simp [turn, hsettled, hfull, Loop.stopped]⟩
        | false =>
            have hless := workLeft_pass hcan hsettled hfull
            obtain ⟨n, hn⟩ := ih _ (hwork ▸ hless) _ ((canStop_pass table).mpr hcan) rfl
            refine ⟨n + 1, ?_⟩
            rw [Function.iterate_succ_apply, turn, if_neg hsettled, if_neg (by simp [hfull])]
            exact hn

/-- A loop that stops could from the start. -/
theorem canStop_of_stopped {table : List Text} {n : Nat}
    (h : (r.turn^[n] (.running table)).stopped = true) : r.CanStop table := by
  induction n generalizing table with
  | zero => cases h
  | succ n ih =>
      rw [Function.iterate_succ_apply, turn] at h
      split at h
      next hsettled => exact hsettled.canStop
      next hsettled =>
        split at h
        next hfull => exact canStop_of_full hfull
        next => exact (canStop_pass table).mp (ih h)

end Turns

/-- **When the reconciliation ends**: exactly when there is no contact that the radio will not
remove or add, or when some contact finds its table full and the commands that fail in each pass
before leave budget for it. -/
theorem terminates_iff (r : Reconciliation) :
    r.Terminates ↔ r.CanStop r.initialRadioContacts := by
  constructor
  · rintro ⟨n, hn⟩
    exact canStop_of_stopped hn
  · exact exists_stopped r.initialRadioContacts

section Example

/-- A radio with one contact that is not desired, and that it never removes. -/
def stubbornRadio : Reconciliation where
  selectedContacts := []
  initialRadioContacts := [List.replicate 64 'a']
  libraryHas _ := false
  removeContact _ := .error none
  addContact _ := .ok

theorem stubborn_radio_never_settles : ¬ stubbornRadio.Terminates := by
  rintro ⟨n, hn⟩
  have hcan := canStop_of_stopped hn
  rcases hcan with ⟨hzero, -⟩ | ⟨⟨key, hkey, -⟩, -⟩
  · exact absurd hzero (by decide +kernel)
  · have hnone : stubbornRadio.refused stubbornRadio.initialRadioContacts = [] := by
      decide +kernel
    rw [hnone] at hkey
    cases hkey

end Example

end Reconciliation

end RemoteTerm
