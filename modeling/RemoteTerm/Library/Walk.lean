import Mathlib.Data.List.Destutter

/-!
# Walks with hidden stops

A walk is a list of stops. Some stops are not seen, and some of those leave a
mark. A leg joins two stops that are seen with only unseen ones between them; it
is marked when one of those leaves a mark.
-/

namespace Library.Walk

variable {α : Type}

/-- The stops that follow each other. -/
def pairs (walk : List α) : List (α × α) := walk.zip walk.tail

@[simp] theorem pairs_nil : pairs ([] : List α) = [] := rfl

@[simp] theorem pairs_singleton (x : α) : pairs [x] = [] := rfl

@[simp] theorem pairs_cons_cons (x y : α) (walk : List α) :
    pairs (x :: y :: walk) = (x, y) :: pairs (y :: walk) := rfl

theorem mem_pairs_iff {walk : List α} {u v : α} :
    (u, v) ∈ pairs walk ↔ ∃ before after, walk = before ++ u :: v :: after := by
  induction walk with
  | nil => simp
  | cons x walk ih =>
      cases walk with
      | nil =>
          constructor
          · intro h
            simp at h
          · rintro ⟨before, after, h⟩
            have := congrArg List.length h
            simp at this
            omega
      | cons y walk =>
          rw [pairs_cons_cons, List.mem_cons, ih, Prod.mk.injEq]
          constructor
          · rintro (⟨rfl, rfl⟩ | ⟨before, after, h⟩)
            · exact ⟨[], walk, rfl⟩
            · exact ⟨x :: before, after, by rw [h, List.cons_append]⟩
          · rintro ⟨before, after, h⟩
            cases before with
            | nil =>
                obtain ⟨rfl, rfl, rfl⟩ : x = u ∧ y = v ∧ walk = after := by simpa using h
                exact .inl ⟨rfl, rfl⟩
            | cons z before =>
                obtain ⟨-, hrest⟩ : x = z ∧ y :: walk = before ++ u :: v :: after := by
                  simpa using h
                exact .inr ⟨before, after, hrest⟩

/-- One more stop adds one pair. -/
theorem mem_pairs_concat {walk : List α} {w x u v : α} (hw : walk.getLast? = some w) :
    (u, v) ∈ pairs (walk ++ [x]) ↔ (u, v) ∈ pairs walk ∨ u = w ∧ v = x := by
  induction walk with
  | nil => simp at hw
  | cons y walk ih =>
      cases walk with
      | nil =>
          obtain rfl : y = w := by simpa using hw
          simp
      | cons z walk =>
          have hw' : (z :: walk).getLast? = some w := by
            rw [List.getLast?_cons_cons] at hw
            exact hw
          have hpairs : pairs (y :: z :: walk ++ [x]) = (y, z) :: pairs (z :: walk ++ [x]) := rfl
          rw [hpairs, pairs_cons_cons, List.mem_cons, List.mem_cons, ih hw', or_assoc]

/-- The two stops of a pair, the later one in the tail. -/
theorem mem_of_mem_pairs {walk : List α} {u v : α} (h : (u, v) ∈ pairs walk) :
    u ∈ walk ∧ v ∈ walk.tail :=
  List.of_mem_zip h

/-- Stops that follow each other are related in a chain. -/
theorem rel_of_mem_pairs {R : α → α → Prop} {walk : List α} (hR : walk.IsChain R) {u v : α}
    (h : (u, v) ∈ pairs walk) : R u v := by
  obtain ⟨before, after, rfl⟩ := mem_pairs_iff.mp h
  exact (List.isChain_append_cons_cons.mp hR).2.1

variable (seen marks : α → Bool)

/-- The legs from the last stop seen, with the marks since. -/
def legsFrom : Option (α × Bool) → List α → List (α × Bool × α)
  | _, [] => []
  | none, x :: walk => if seen x then legsFrom (some (x, false)) walk else legsFrom none walk
  | some (w, marked), x :: walk =>
      if seen x then (w, marked, x) :: legsFrom (some (x, false)) walk
      else legsFrom (some (w, marked || marks x)) walk

/-- The legs of a walk. -/
def legs (walk : List α) : List (α × Bool × α) := legsFrom seen marks none walk

variable {seen marks}

@[simp] theorem legs_nil : legs seen marks [] = [] := rfl

theorem legs_cons (x : α) (walk : List α) :
    legs seen marks (x :: walk) =
      if seen x then legsFrom seen marks (some (x, false)) walk else legs seen marks walk := rfl

/-- Past a stop that was seen there is the leg from it and the legs of the rest. -/
theorem mem_legsFrom_iff {walk : List α} {w u v : α} {p h : Bool} :
    (u, h, v) ∈ legsFrom seen marks (some (w, p)) walk ↔
      (u = w ∧ ∃ between after, walk = between ++ v :: after ∧ seen v = true ∧
        (∀ m ∈ between, seen m = false) ∧ h = (p || between.any marks)) ∨
      (u, h, v) ∈ legs seen marks walk := by
  induction walk generalizing p with
  | nil => simp [legsFrom]
  | cons x walk ih =>
      rw [legs_cons]
      by_cases hx : seen x = true
      · rw [legsFrom, if_pos hx, if_pos hx, List.mem_cons]
        refine or_congr_left ?_
        constructor
        · intro heq
          obtain ⟨rfl, rfl, rfl⟩ : u = w ∧ h = p ∧ v = x := by simpa using heq
          exact ⟨rfl, [], walk, rfl, hx, by simp, by simp⟩
        · rintro ⟨rfl, between, after, hwalk, -, hbetween, rfl⟩
          cases between with
          | nil =>
              obtain ⟨rfl, -⟩ : x = v ∧ walk = after := by simpa using hwalk
              simp
          | cons m between =>
              obtain ⟨rfl, -⟩ : x = m ∧ walk = between ++ v :: after := by simpa using hwalk
              exact absurd hx (by simp [hbetween x (by simp)])
      · rw [legsFrom, if_neg hx, if_neg hx, ih]
        refine or_congr_left (and_congr_right fun _ => ?_)
        constructor
        · rintro ⟨between, after, rfl, hv, hbetween, rfl⟩
          refine ⟨x :: between, after, rfl, hv, ?_, by simp [Bool.or_assoc]⟩
          simpa using ⟨by simpa using hx, hbetween⟩
        · rintro ⟨between, after, hwalk, hv, hbetween, rfl⟩
          cases between with
          | nil =>
              obtain ⟨rfl, -⟩ : x = v ∧ walk = after := by simpa using hwalk
              exact absurd hv hx
          | cons m between =>
              obtain ⟨rfl, rfl⟩ : x = m ∧ walk = between ++ v :: after := by simpa using hwalk
              exact ⟨between, after, rfl, hv, fun n hn => hbetween n (by simp [hn]),
                by simp [Bool.or_assoc]⟩

/-- A leg is a stretch of the walk that ends in two stops that are seen. -/
theorem mem_legs_iff {walk : List α} {u v : α} {h : Bool} :
    (u, h, v) ∈ legs seen marks walk ↔
      ∃ before between after, walk = before ++ u :: (between ++ v :: after) ∧
        seen u = true ∧ seen v = true ∧ (∀ m ∈ between, seen m = false) ∧
        h = between.any marks := by
  induction walk with
  | nil => simp
  | cons x walk ih =>
      have hlater : (u, h, v) ∈ legs seen marks walk ↔
          ∃ before between after, x :: walk = (x :: before) ++ u :: (between ++ v :: after) ∧
            seen u = true ∧ seen v = true ∧ (∀ m ∈ between, seen m = false) ∧
            h = between.any marks := by
        rw [ih]
        simp
      rw [legs_cons]
      split
      next hx =>
        rw [mem_legsFrom_iff, hlater]
        constructor
        · rintro (⟨rfl, between, after, rfl, hv, hbetween, rfl⟩ | ⟨before, h⟩)
          · exact ⟨[], between, after, rfl, hx, hv, hbetween, by simp⟩
          · exact ⟨x :: before, h⟩
        · rintro ⟨before, between, after, hwalk, hu, hv, hbetween, rfl⟩
          cases before with
          | nil =>
              obtain ⟨rfl, rfl⟩ : x = u ∧ walk = between ++ v :: after := by simpa using hwalk
              exact .inl ⟨rfl, between, after, rfl, hv, hbetween, by simp⟩
          | cons y before =>
              obtain ⟨rfl, -⟩ : x = y ∧ walk = before ++ u :: (between ++ v :: after) := by
                simpa using hwalk
              exact .inr ⟨before, between, after, hwalk, hu, hv, hbetween, rfl⟩
      next hx =>
        rw [hlater]
        constructor
        · rintro ⟨before, h⟩
          exact ⟨x :: before, h⟩
        · rintro ⟨before, between, after, hwalk, hu, hv, hbetween, rfl⟩
          cases before with
          | nil =>
              obtain ⟨rfl, -⟩ : x = u ∧ walk = between ++ v :: after := by simpa using hwalk
              exact absurd hu hx
          | cons y before =>
              obtain ⟨rfl, -⟩ : x = y ∧ walk = before ++ u :: (between ++ v :: after) := by
                simpa using hwalk
              exact ⟨before, between, after, hwalk, hu, hv, hbetween, rfl⟩

/-- When every stop is seen, the legs are the pairs and none is marked. -/
theorem mem_legs_of_all_seen {walk : List α} (hall : ∀ x ∈ walk, seen x = true) {u v : α}
    {h : Bool} : (u, h, v) ∈ legs seen marks walk ↔ h = false ∧ (u, v) ∈ pairs walk := by
  rw [mem_legs_iff, mem_pairs_iff]
  constructor
  · rintro ⟨before, between, after, rfl, -, -, hbetween, rfl⟩
    obtain rfl : between = [] := by
      refine List.eq_nil_iff_forall_not_mem.mpr fun m hm => ?_
      have hm' := hall m (by simp [hm])
      rw [hbetween m hm] at hm'
      exact Bool.false_ne_true hm'
    exact ⟨rfl, before, after, rfl⟩
  · rintro ⟨rfl, before, after, rfl⟩
    exact ⟨before, [], after, rfl, hall u (by simp), hall v (by simp), by simp, by simp⟩

end Library.Walk
