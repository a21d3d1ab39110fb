import RemoteTerm.Frontend.AckBounds
import RemoteTerm.Frontend.LoadedHistory

/-!
# The pages of a conversation

What a page of the newest messages, a page before or after a cursor and the window of a
jump have, and where the messages lie that they do not have. Merging pages loses nothing.
-/

namespace RemoteTerm

open Library

/-! ### Pages and merges -/

section Pages

variable {rows : List Message} {id : Text} {m : Message}

@[simp] theorem mem_conversationRows :
    m ∈ conversationRows rows id ↔ m ∈ rows ∧ m.conversationKey = id := by
  simp [conversationRows]

theorem conversationRows_append (rows' : List Message) :
    conversationRows (rows ++ rows') id =
      conversationRows rows id ++ conversationRows rows' id :=
  List.filter_append ..

theorem mem_conversationRows_snoc {x : Message} :
    x ∈ conversationRows (rows ++ [m]) id ↔
      x ∈ conversationRows rows id ∨ x = m ∧ m.conversationKey = id := by
  simp only [mem_conversationRows, List.mem_append, List.mem_singleton]
  constructor
  · rintro ⟨hx | rfl, hkey⟩
    · exact .inl ⟨hx, hkey⟩
    · exact .inr ⟨rfl, hkey⟩
  · rintro (⟨hx, hkey⟩ | ⟨rfl, hkey⟩)
    · exact ⟨.inl hx, hkey⟩
    · exact ⟨.inr rfl, hkey⟩

/-- Messages that their rowids and their content keys tell apart. -/
structure Identified (rows : List Message) : Prop where
  id : ∀ a ∈ rows, ∀ b ∈ rows, a.id = b.id → a = b
  content : ∀ a ∈ rows, ∀ b ∈ rows, a.contentKey = b.contentKey → a = b

/-- Rows in the order of their cursors. -/
def InOrder (rows : List Message) : Prop := rows.Pairwise fun a b => a.cursor < b.cursor

theorem InOrder.cursors_nodup (h : InOrder rows) : (rows.map Message.cursor).Nodup :=
  List.pairwise_map.mpr (h.imp fun hlt => hlt.ne)

/-- A message that is not on a page of the newest ones comes before a full page. -/
theorem newestRows_take_spec (h : InOrder rows) {n : Nat} (hm : m ∈ rows)
    (hnot : m ∉ (newestRows rows).take n) :
    n < (newestRows rows).length ∧ ∀ p ∈ (newestRows rows).take n, m.cursor < p.cursor := by
  have hkeys : (rows.map (OrderDual.toDual ∘ Message.cursor)).Nodup := by
    rw [← List.map_map]
    exact h.cursors_nodup.map OrderDual.toDual.injective
  exact orderBy_take_spec hkeys hm hnot

theorem mem_of_mem_newestRows_take {n : Nat} (hm : m ∈ (newestRows rows).take n) : m ∈ rows :=
  mem_orderBy.mp (List.mem_of_mem_take hm)

theorem mem_of_mem_latestPage (hm : m ∈ latestPage rows id) : m ∈ conversationRows rows id :=
  mem_of_mem_newestRows_take hm

theorem latestPage_spec (h : InOrder (conversationRows rows id))
    (hm : m ∈ conversationRows rows id) (hnot : m ∉ latestPage rows id) :
    (latestPage rows id).length = messagePageSize ∧
      ∀ p ∈ latestPage rows id, m.cursor < p.cursor := by
  obtain ⟨hlength, hall⟩ := newestRows_take_spec h hm hnot
  exact ⟨List.length_take_of_le hlength.le, hall⟩

theorem mem_of_mem_olderPage {before : Cursor} (hm : m ∈ olderPage rows id before) :
    m ∈ conversationRows rows id ∧ m.cursor < before := by
  simpa only [List.mem_filter, decide_eq_true_eq] using mem_of_mem_newestRows_take hm

theorem olderPage_spec (h : InOrder (conversationRows rows id)) {before : Cursor}
    (hm : m ∈ conversationRows rows id) (hbefore : m.cursor < before)
    (hnot : m ∉ olderPage rows id before) :
    (olderPage rows id before).length = messagePageSize ∧
      ∀ p ∈ olderPage rows id before, m.cursor < p.cursor := by
  have hfilter : InOrder ((conversationRows rows id).filter fun m => decide (m.cursor < before)) :=
    h.filter _
  obtain ⟨hlength, hall⟩ := newestRows_take_spec hfilter
    (List.mem_filter.mpr ⟨hm, decide_eq_true hbefore⟩) hnot
  exact ⟨List.length_take_of_le hlength.le, hall⟩

theorem mem_of_mem_newerPage {after : Cursor} (hm : m ∈ newerPage rows id after) :
    m ∈ conversationRows rows id ∧ after < m.cursor := by
  simpa only [List.mem_filter, decide_eq_true_eq] using mem_orderBy.mp (List.mem_of_mem_take hm)

theorem newerPage_spec (h : InOrder (conversationRows rows id)) {after : Cursor}
    (hm : m ∈ conversationRows rows id) (hafter : after < m.cursor)
    (hnot : m ∉ newerPage rows id after) :
    ∀ p ∈ newerPage rows id after, p.cursor < m.cursor := by
  have hfilter : InOrder ((conversationRows rows id).filter fun m => decide (after < m.cursor)) :=
    h.filter _
  exact (orderBy_take_spec hfilter.cursors_nodup
    (List.mem_filter.mpr ⟨hm, decide_eq_true hafter⟩) hnot).2

/-- The window of a jump: its messages, and where the others are. -/
theorem aroundPage_spec (h : InOrder (conversationRows rows id)) {messageId : Nat}
    (htarget : ∃ t ∈ conversationRows rows id, t.id = messageId) :
    (∀ x ∈ (aroundPage rows id messageId).messages, x ∈ conversationRows rows id) ∧
      ∀ m ∈ conversationRows rows id, m ∉ (aroundPage rows id messageId).messages →
        ((aroundPage rows id messageId).hasOlder = true ∧
          ∀ x ∈ (aroundPage rows id messageId).messages, m.cursor < x.cursor) ∨
        ((aroundPage rows id messageId).hasNewer = true ∧
          ∀ x ∈ (aroundPage rows id messageId).messages, x.cursor < m.cursor) := by
  have hsome : ((conversationRows rows id).find? fun m => m.id = messageId).isSome := by
    obtain ⟨t, ht, hid⟩ := htarget
    rw [List.find?_isSome]
    exact ⟨t, ht, decide_eq_true hid⟩
  obtain ⟨target, hfind⟩ := Option.isSome_iff_exists.mp hsome
  have hmem := List.mem_of_find?_eq_some hfind
  have holderOrder : InOrder ((conversationRows rows id).filter fun m =>
    decide (m.cursor < target.cursor)) := h.filter _
  have hnewerOrder : InOrder ((conversationRows rows id).filter fun m =>
    decide (target.cursor < m.cursor)) := h.filter _
  simp only [aroundPage, hfind, List.take_take, List.length_take]
  have hmin : min aroundContext (aroundContext + 1) = aroundContext := by omega
  rw [hmin]
  have hbefore : ∀ x ∈ (newestRows ((conversationRows rows id).filter fun m =>
      decide (m.cursor < target.cursor))).take aroundContext,
      x ∈ conversationRows rows id ∧ x.cursor < target.cursor := by
    intro x hx
    simpa only [List.mem_filter, decide_eq_true_eq] using mem_of_mem_newestRows_take hx
  have hafter : ∀ x ∈ (orderBy Message.cursor ((conversationRows rows id).filter fun m =>
      decide (target.cursor < m.cursor))).take aroundContext,
      x ∈ conversationRows rows id ∧ target.cursor < x.cursor := by
    intro x hx
    simpa only [List.mem_filter, decide_eq_true_eq] using mem_orderBy.mp (List.mem_of_mem_take hx)
  constructor
  · intro x hx
    simp only [List.append_assoc, List.mem_append, List.mem_reverse, List.mem_singleton] at hx
    rcases hx with hx | rfl | hx
    · exact (hbefore x hx).1
    · exact hmem
    · exact (hafter x hx).1
  · intro m hm hnot
    simp only [List.append_assoc, List.mem_append, List.mem_reverse, List.mem_singleton,
      not_or] at hnot
    obtain ⟨hnotBefore, hne, hnotAfter⟩ := hnot
    rcases lt_trichotomy m.cursor target.cursor with hlt | heq | hlt
    · left
      have hin : m ∈ (conversationRows rows id).filter fun m =>
          decide (m.cursor < target.cursor) := List.mem_filter.mpr ⟨hm, decide_eq_true hlt⟩
      obtain ⟨hlength, hall⟩ := newestRows_take_spec holderOrder hin hnotBefore
      refine ⟨?_, ?_⟩
      · rw [decide_eq_true_eq]
        omega
      · intro x hx
        simp only [List.append_assoc, List.mem_append, List.mem_reverse,
          List.mem_singleton] at hx
        rcases hx with hx | rfl | hx
        · exact hall x hx
        · exact hlt
        · exact hlt.trans (hafter x hx).2
    · exact absurd (List.inj_on_of_nodup_map h.cursors_nodup hm hmem heq) hne
    · right
      have hin : m ∈ (conversationRows rows id).filter fun m =>
          decide (target.cursor < m.cursor) := List.mem_filter.mpr ⟨hm, decide_eq_true hlt⟩
      obtain ⟨hlength, hall⟩ := orderBy_take_spec hnewerOrder.cursors_nodup hin hnotAfter
      refine ⟨?_, ?_⟩
      · rw [decide_eq_true_eq]
        omega
      · intro x hx
        simp only [List.append_assoc, List.mem_append, List.mem_reverse,
          List.mem_singleton] at hx
        rcases hx with hx | rfl | hx
        · exact (hbefore x hx).2.trans hlt
        · exact hlt
        · exact hall x hx

variable {current fetched : List Message}

/-- Merging a page of newest messages loses and adds nothing else. -/
theorem Identified.mem_reconcile (h : Identified rows) (hcurrent : ∀ a ∈ current, a ∈ rows)
    (hfetched : ∀ a ∈ fetched, a ∈ rows) :
    m ∈ (reconcileConversationMessages current fetched).getD current ↔
      m ∈ current ∨ m ∈ fetched := by
  unfold reconcileConversationMessages
  dsimp only
  split
  next hagrees =>
    rw [Option.getD_none]
    refine ⟨Or.inl, fun hm => hm.elim (fun hm => hm) fun hm => ?_⟩
    have hfound := List.all_eq_true.mp hagrees m hm
    split at hfound
    next => cases hfound
    next c hc =>
      have hmem : c ∈ current := List.mem_reverse.mp (List.mem_of_find?_eq_some hc)
      have hid : c.id = m.id := by simpa using List.find?_some hc
      rw [← h.id c (hcurrent c hmem) m (hfetched m hm) hid]
      exact hmem
  next =>
    rw [Option.getD_some, List.mem_append, List.mem_filter]
    constructor
    · rintro (hm | ⟨hm, -⟩)
      · exact .inr hm
      · exact .inl hm
    · rintro (hm | hm)
      · by_cases hid : m.id ∈ fetched.map fun f => f.id
        · obtain ⟨f, hf, hfid⟩ := List.mem_map.mp hid
          rw [← h.id f (hfetched f hf) m (hcurrent m hm) hfid]
          exact .inl hf
        · exact .inr ⟨hm, decide_eq_true hid⟩
      · exact .inl hm

theorem Identified.mem_uniqueAdditions (h : Identified rows) {incoming : List Message}
    (hincoming : ∀ a ∈ incoming, a ∈ rows) (seenIds : List Nat) (seenContent : List Text)
    (hm : m ∈ incoming) :
    m ∈ uniqueAdditions seenIds seenContent incoming ∨ m.id ∈ seenIds ∨
      m.contentKey ∈ seenContent := by
  induction incoming generalizing seenIds seenContent with
  | nil => cases hm
  | cons first rest ih =>
      have hrest : ∀ a ∈ rest, a ∈ rows := fun a ha => hincoming a (List.mem_cons_of_mem _ ha)
      unfold uniqueAdditions
      split
      next hdrop =>
        rcases List.mem_cons.mp hm with rfl | hm
        · exact .inr hdrop
        · exact ih hrest seenIds seenContent hm
      next =>
        rcases List.mem_cons.mp hm with rfl | hm
        · exact .inl List.mem_cons_self
        · have hfirst := hincoming first List.mem_cons_self
          rcases ih hrest (first.id :: seenIds) (first.contentKey :: seenContent) hm with
            hadd | hid | hkey
          · exact .inl (List.mem_cons_of_mem _ hadd)
          · rcases List.mem_cons.mp hid with heq | hid
            · rw [h.id m (hrest m hm) first hfirst heq]
              exact .inl List.mem_cons_self
            · exact .inr (.inl hid)
          · rcases List.mem_cons.mp hkey with heq | hkey
            · rw [h.content m (hrest m hm) first hfirst heq]
              exact .inl List.mem_cons_self
            · exact .inr (.inr hkey)

/-- Appending a page adds its messages. -/
theorem Identified.mem_appendUnique (h : Identified rows) (hcurrent : ∀ a ∈ current, a ∈ rows)
    (hfetched : ∀ a ∈ fetched, a ∈ rows) :
    m ∈ appendUniqueMessages current fetched ↔ m ∈ current ∨ m ∈ fetched := by
  rw [appendUniqueMessages, List.mem_append]
  constructor
  · rintro (hm | hm)
    · exact .inl hm
    · exact .inr ((uniqueAdditions_spec _ _ fetched).1 m hm).1
  · rintro (hm | hm)
    · exact .inl hm
    · rcases h.mem_uniqueAdditions hfetched (current.map fun m => m.id)
        (current.map Message.contentKey) hm with hadd | hid | hkey
      · exact .inr hadd
      · obtain ⟨c, hc, heq⟩ := List.mem_map.mp hid
        rw [← h.id c (hcurrent c hc) m (hfetched m hm) heq]
        exact .inl hc
      · obtain ⟨c, hc, heq⟩ := List.mem_map.mp hkey
        rw [← h.content c (hcurrent c hc) m (hfetched m hm) heq]
        exact .inl hc

theorem oldestOf_mem (h : oldestOf rows = some m) : m ∈ rows := by
  induction rows generalizing m with
  | nil => cases h
  | cons first rest ih =>
      unfold oldestOf at h
      split at h
      next =>
        obtain rfl := Option.some.inj h
        exact List.mem_cons_self
      next o ho =>
        split at h
        · obtain rfl := Option.some.inj h
          exact List.mem_cons_of_mem _ (ih ho)
        · obtain rfl := Option.some.inj h
          exact List.mem_cons_self

theorem newestOf_eq_none (h : newestOf rows = none) : rows = [] := by
  cases rows with
  | nil => rfl
  | cons first rest =>
      unfold newestOf at h
      split at h
      · cases h
      · split at h <;> cases h

theorem newestOf_spec (h : newestOf rows = some m) :
    m ∈ rows ∧ ∀ x ∈ rows, x.cursor ≤ m.cursor := by
  induction rows generalizing m with
  | nil => cases h
  | cons first rest ih =>
      unfold newestOf at h
      split at h
      next hnone =>
        obtain rfl := Option.some.inj h
        rw [newestOf_eq_none hnone]
        exact ⟨List.mem_cons_self, fun x hx => (congrArg _ (List.mem_singleton.mp hx)).le⟩
      next o ho =>
        obtain ⟨hmem, hmax⟩ := ih ho
        split at h
        next hlt =>
          obtain rfl := Option.some.inj h
          refine ⟨List.mem_cons_of_mem _ hmem, fun x hx => ?_⟩
          rcases List.mem_cons.mp hx with rfl | hx
          · exact hlt.le
          · exact hmax x hx
        next hlt =>
          obtain rfl := Option.some.inj h
          refine ⟨List.mem_cons_self, fun x hx => ?_⟩
          rcases List.mem_cons.mp hx with rfl | hx
          · exact le_rfl
          · exact (hmax x hx).trans (not_lt.mp hlt)

end Pages

end RemoteTerm
