import RemoteTerm.Send.ChannelSlots

/-!
# The slot cache is a pairing

The two dictionaries of the slot cache are inverse to each other, whatever is
noted or forgotten. So a slot that is planned for a new channel is free, or it is
the slot of the one channel that is reported as evicted.
-/

namespace RemoteTerm

open Library

namespace ChannelSlots

/-- The two dictionaries are inverse, their keys are normalized, and they are empty while slots are
not reused. -/
structure WellFormed (s : ChannelSlots) : Prop where
  paired : ∀ k n, s.slotByKey.get? k = some n ↔ s.keyBySlot.get? n = some k
  normal : ∀ k n, s.slotByKey.get? k = some n → upper k = k
  disabled : s.channelSlotReuseEnabled = false → ∀ k, s.slotByKey.get? k = none

variable {s : ChannelSlots} {channelKey : Text} {slot : Int}

theorem WellFormed.slot_unique (h : s.WellFormed) {k k' : Text} {n : Int}
    (hk : s.slotByKey.get? k = some n) (hk' : s.slotByKey.get? k' = some n) : k = k' :=
  Option.some.inj (((h.paired k n).mp hk).symm.trans ((h.paired k' n).mp hk'))

/-- An empty cache is well formed. -/
theorem wellFormed_reset (s : ChannelSlots) : s.resetChannelSendCache.WellFormed where
  paired k n := by simp [resetChannelSendCache]
  normal k n h := by simp [resetChannelSendCache] at h
  disabled _ k := by simp [resetChannelSendCache]

section Plan

theorem mem_slotRange {capacity : Nat} {n : Int} :
    n ∈ slotRange capacity ↔ 0 ≤ n ∧ n < capacity := by
  unfold slotRange
  rw [List.mem_map]
  constructor
  · rintro ⟨m, hm, rfl⟩
    exact ⟨Int.natCast_nonneg m, Int.ofNat_lt.mpr (List.mem_range.mp hm)⟩
  · rintro ⟨hnonneg, hlt⟩
    exact ⟨n.toNat, List.mem_range.mpr (by omega), Int.toNat_of_nonneg hnonneg⟩

theorem nodup_slotRange (capacity : Nat) : (slotRange capacity).Nodup :=
  List.nodup_range.map fun _ _ => Int.ofNat.inj

theorem length_slotRange (capacity : Nat) : (slotRange capacity).length = capacity := by
  simp [slotRange]

/-- While there are fewer channels than slots some slot is free. -/
theorem WellFormed.exists_free (h : s.WellFormed) {capacity : Nat}
    (hsize : s.slotByKey.size < capacity) :
    ∃ n ∈ slotRange capacity, s.keyBySlot.get? n = none := by
  by_contra hfull
  have htaken : slotRange capacity ⊆ s.slotByKey.entries.map Prod.snd := by
    intro n hn
    cases hkey : s.keyBySlot.get? n with
    | none => exact absurd ⟨n, hn, hkey⟩ hfull
    | some k =>
        have hentry := s.slotByKey.get?_eq_some_iff.mp ((h.paired k n).mpr hkey)
        exact List.mem_map.mpr ⟨(k, n), hentry, rfl⟩
  have hle := ((nodup_slotRange capacity).subperm htaken).length_le
  rw [length_slotRange, List.length_map] at hle
  exact absurd hsize (Nat.not_lt.mpr hle)

theorem WellFormed.findFirstFree (h : s.WellFormed) {capacity : Nat}
    (hsize : s.slotByKey.size < capacity) (preferredSlot : Int) :
    s.keyBySlot.get? (s.findFirstFreeChannelSlot capacity preferredSlot) = none := by
  unfold findFirstFreeChannelSlot
  split
  next hpreferred => exact hpreferred.2
  next =>
    obtain ⟨n, hn, hfree⟩ := h.exists_free hsize
    cases hfind : (slotRange capacity).find? fun slot => s.keyBySlot.get? slot = none with
    | none =>
        rw [List.find?_eq_none] at hfind
        exact absurd hfree (by simpa using hfind n hn)
    | some slot => simpa using List.find?_some hfind

/-- A planned slot is the cached one, or it must be configured and is cached at most for the key
that it is taken from. -/
theorem WellFormed.planChannelSendSlot (h : s.WellFormed) (channelKey : Text)
    (preferredSlot : Int) {slot : Int} {needsConfigure : Bool} {evicted : Option Text}
    (hplan : s.planChannelSendSlot channelKey preferredSlot = (slot, needsConfigure, evicted)) :
    if needsConfigure then ∀ k, s.slotByKey.get? k = some slot → evicted = some k
    else s.slotByKey.get? (upper channelKey) = some slot := by
  unfold ChannelSlots.planChannelSendSlot at hplan
  split at hplan
  next =>
    split at hplan
    next cachedSlot hcached =>
      simp only [Prod.mk.injEq] at hplan
      obtain ⟨rfl, rfl, -⟩ := hplan
      simpa using hcached
    next =>
      dsimp only at hplan
      split at hplan
      next hsize =>
        simp only [Prod.mk.injEq] at hplan
        obtain ⟨rfl, rfl, -⟩ := hplan
        rw [if_pos rfl]
        intro k hk
        have hfree := h.findFirstFree hsize preferredSlot
        cases hfree.symm.trans ((h.paired k _).mp hk)
      next =>
        split at hplan
        next evictedKey slot' hhead =>
          simp only [Prod.mk.injEq] at hplan
          obtain ⟨rfl, rfl, rfl⟩ := hplan
          rw [if_pos rfl]
          intro k hk
          have hevicted := s.slotByKey.get?_eq_some_iff.mpr (List.mem_of_mem_head? hhead)
          exact congrArg some (h.slot_unique hevicted hk)
        next hhead =>
          simp only [Prod.mk.injEq] at hplan
          obtain ⟨-, rfl, -⟩ := hplan
          rw [if_pos rfl]
          intro k hk
          have hentry := s.slotByKey.get?_eq_some_iff.mp hk
          rw [List.head?_eq_none_iff.mp hhead] at hentry
          exact absurd hentry List.not_mem_nil
  next hdisabled =>
    simp only [Prod.mk.injEq] at hplan
    obtain ⟨-, rfl, -⟩ := hplan
    rw [if_pos rfl]
    intro k hk
    cases (h.disabled (by simpa using hdisabled) k).symm.trans hk

end Plan

section Notes

theorem WellFormed.keyBySlotMoved (h : s.WellFormed) {key k : Text} {n : Int} :
    (s.keyBySlotMoved key slot).get? n = some k ↔
      s.slotByKey.get? k = some n ∧ (k = key → n = slot) := by
  unfold ChannelSlots.keyBySlotMoved
  split
  next previous hprevious =>
    split
    next hne =>
      rw [OrderedMap.get?_pop_eq_some_iff, ← h.paired]
      constructor
      · rintro ⟨hn, hk⟩
        refine ⟨hk, ?_⟩
        rintro rfl
        exact absurd (Option.some.inj (hk.symm.trans hprevious)) hn
      · rintro ⟨hk, hmoved⟩
        refine ⟨?_, hk⟩
        rintro rfl
        exact hne (hmoved (h.slot_unique hk hprevious))
    next heq =>
      rw [← h.paired]
      refine ⟨fun hk => ⟨hk, ?_⟩, And.left⟩
      rintro rfl
      exact (Option.some.inj (hk.symm.trans hprevious)).trans (not_not.mp heq)
  next hprevious =>
    rw [← h.paired]
    refine ⟨fun hk => ⟨hk, ?_⟩, And.left⟩
    rintro rfl
    cases hprevious.symm.trans hk

theorem WellFormed.slotByKeyDisplaced (h : s.WellFormed) {key k : Text} {n : Int} :
    (s.slotByKeyDisplaced key slot).get? k = some n ↔
      k ≠ key ∧ n ≠ slot ∧ s.slotByKey.get? k = some n := by
  have hpopped : (s.slotByKey.pop key).get? k = some n ↔ k ≠ key ∧ s.slotByKey.get? k = some n :=
    OrderedMap.get?_pop_eq_some_iff ..
  unfold ChannelSlots.slotByKeyDisplaced
  split
  next displaced hdisplaced =>
    obtain ⟨hslot, -⟩ := h.keyBySlotMoved.mp hdisplaced
    split
    next hne =>
      rw [OrderedMap.get?_pop_eq_some_iff, hpopped]
      constructor
      · rintro ⟨hk, hkey, hn⟩
        refine ⟨hkey, ?_, hn⟩
        rintro rfl
        exact hk (h.slot_unique hn hslot)
      · rintro ⟨hkey, hn, hk⟩
        refine ⟨?_, hkey, hk⟩
        rintro rfl
        exact hn (Option.some.inj (hk.symm.trans hslot))
    next heq =>
      rw [hpopped]
      constructor
      · rintro ⟨hkey, hk⟩
        refine ⟨hkey, ?_, hk⟩
        rintro rfl
        exact hkey ((h.slot_unique hk hslot).trans (not_not.mp heq))
      · rintro ⟨hkey, -, hk⟩
        exact ⟨hkey, hk⟩
  next hfree =>
    rw [hpopped]
    constructor
    · rintro ⟨hkey, hk⟩
      refine ⟨hkey, ?_, hk⟩
      rintro rfl
      cases hfree.symm.trans (h.keyBySlotMoved.mpr ⟨hk, fun heq => absurd heq hkey⟩)
    · rintro ⟨hkey, -, hk⟩
      exact ⟨hkey, hk⟩

/-- What the cache holds after a key was loaded into a slot. -/
def Loaded (s : ChannelSlots) (key : Text) (slot : Int) (k : Text) (n : Int) : Prop :=
  (k = key ∧ n = slot) ∨ (k ≠ key ∧ n ≠ slot ∧ s.slotByKey.get? k = some n)

theorem WellFormed.noteLoaded_get? (h : s.WellFormed) (channelKey : Text) (slot : Int)
    (hreuse : s.channelSlotReuseEnabled = true) (k : Text) (n : Int) :
    ((s.noteChannelSlotLoaded channelKey slot).slotByKey.get? k = some n ↔
        s.Loaded (upper channelKey) slot k n) ∧
      ((s.noteChannelSlotLoaded channelKey slot).keyBySlot.get? n = some k ↔
        s.Loaded (upper channelKey) slot k n) := by
  unfold noteChannelSlotLoaded
  rw [if_pos hreuse]
  dsimp only
  rw [OrderedMap.get?_set_eq_some_iff, OrderedMap.get?_set_eq_some_iff, h.slotByKeyDisplaced,
    h.keyBySlotMoved]
  unfold Loaded
  refine ⟨by tauto, ?_⟩
  constructor
  · rintro (⟨rfl, rfl⟩ | ⟨hn, hk, hmoved⟩)
    · exact Or.inl ⟨rfl, rfl⟩
    · exact Or.inr ⟨fun heq => hn (hmoved heq), hn, hk⟩
  · rintro (⟨rfl, rfl⟩ | ⟨hkey, hn, hk⟩)
    · exact Or.inl ⟨rfl, rfl⟩
    · exact Or.inr ⟨hn, hk, fun heq => absurd heq hkey⟩

/-- What is noted of a loaded slot keeps the cache well formed. -/
theorem WellFormed.noteLoaded (h : s.WellFormed) (channelKey : Text) (slot : Int) :
    (s.noteChannelSlotLoaded channelKey slot).WellFormed := by
  by_cases hreuse : s.channelSlotReuseEnabled = true
  · have hget := h.noteLoaded_get? channelKey slot hreuse
    refine ⟨fun k n => (hget k n).1.trans (hget k n).2.symm, fun k n hk => ?_, fun hdisabled => ?_⟩
    · rcases (hget k n).1.mp hk with ⟨rfl, -⟩ | ⟨-, -, hk⟩
      · exact upper_idem channelKey
      · exact h.normal k n hk
    · have hsame : (s.noteChannelSlotLoaded channelKey slot).channelSlotReuseEnabled =
          s.channelSlotReuseEnabled := by
        unfold noteChannelSlotLoaded
        rw [if_pos hreuse]
        rfl
      exact absurd (hsame.symm.trans hdisabled) (by simp [hreuse])
  · unfold noteChannelSlotLoaded
    rw [if_neg hreuse]
    exact h

/-- A used slot only changes its place in the order. -/
theorem WellFormed.noteUsed_get? (h : s.WellFormed) (channelKey : Text) (k : Text) (n : Int) :
    ((s.noteChannelSlotUsed channelKey).slotByKey.get? k = some n ↔
        s.slotByKey.get? k = some n) ∧
      ((s.noteChannelSlotUsed channelKey).keyBySlot.get? n = some k ↔
        s.slotByKey.get? k = some n) := by
  unfold noteChannelSlotUsed
  split
  next =>
    dsimp only
    split
    next => exact ⟨Iff.rfl, (h.paired k n).symm⟩
    next slot hslot =>
      rw [OrderedMap.get?_moveToEnd, OrderedMap.get?_set_eq_some_iff, ← h.paired]
      refine ⟨Iff.rfl, ?_⟩
      constructor
      · rintro (⟨rfl, rfl⟩ | ⟨-, hk⟩)
        · exact hslot
        · exact hk
      · intro hk
        by_cases hn : n = slot
        · exact Or.inl ⟨hn, h.slot_unique (hn ▸ hk) hslot⟩
        · exact Or.inr ⟨hn, hk⟩
  next => exact ⟨Iff.rfl, (h.paired k n).symm⟩

theorem noteUsed_reuseEnabled (s : ChannelSlots) (channelKey : Text) :
    (s.noteChannelSlotUsed channelKey).channelSlotReuseEnabled = s.channelSlotReuseEnabled := by
  unfold noteChannelSlotUsed
  split
  next =>
    dsimp only
    split <;> rfl
  next => rfl

theorem WellFormed.noteUsed (h : s.WellFormed) (channelKey : Text) :
    (s.noteChannelSlotUsed channelKey).WellFormed := by
  have hget := h.noteUsed_get? channelKey
  refine ⟨fun k n => (hget k n).1.trans (hget k n).2.symm,
    fun k n hk => h.normal k n ((hget k n).1.mp hk), fun hdisabled k => ?_⟩
  have hnone := h.disabled ((s.noteUsed_reuseEnabled channelKey).symm.trans hdisabled) k
  cases hk : (s.noteChannelSlotUsed channelKey).slotByKey.get? k with
  | none => rfl
  | some n => exact (nomatch hnone.symm.trans ((hget k n).1.mp hk))

/-- A forgotten key is removed from both dictionaries. -/
theorem WellFormed.invalidate_get? (h : s.WellFormed) (channelKey : Text) (k : Text) (n : Int) :
    ((s.invalidateCachedChannelSlot channelKey).slotByKey.get? k = some n ↔
        k ≠ upper channelKey ∧ s.slotByKey.get? k = some n) ∧
      ((s.invalidateCachedChannelSlot channelKey).keyBySlot.get? n = some k ↔
        k ≠ upper channelKey ∧ s.slotByKey.get? k = some n) := by
  unfold invalidateCachedChannelSlot
  dsimp only
  split
  next hnone =>
    have hne : s.slotByKey.get? k = some n → k ≠ upper channelKey := by
      rintro hk rfl
      cases hnone.symm.trans hk
    rw [← h.paired]
    exact ⟨⟨fun hk => ⟨hne hk, hk⟩, And.right⟩, ⟨fun hk => ⟨hne hk, hk⟩, And.right⟩⟩
  next slot hslot =>
    rw [if_pos ((h.paired _ _).mp hslot), OrderedMap.get?_pop_eq_some_iff,
      OrderedMap.get?_pop_eq_some_iff, ← h.paired]
    refine ⟨Iff.rfl, ?_⟩
    constructor
    · rintro ⟨hn, hk⟩
      refine ⟨?_, hk⟩
      rintro rfl
      exact hn (Option.some.inj (hk.symm.trans hslot))
    · rintro ⟨hkey, hk⟩
      refine ⟨?_, hk⟩
      rintro rfl
      exact hkey (h.slot_unique hk hslot)

theorem invalidate_reuseEnabled (s : ChannelSlots) (channelKey : Text) :
    (s.invalidateCachedChannelSlot channelKey).channelSlotReuseEnabled =
      s.channelSlotReuseEnabled := by
  unfold invalidateCachedChannelSlot
  dsimp only
  split <;> rfl

theorem WellFormed.invalidate (h : s.WellFormed) (channelKey : Text) :
    (s.invalidateCachedChannelSlot channelKey).WellFormed := by
  have hget := h.invalidate_get? channelKey
  refine ⟨fun k n => (hget k n).1.trans (hget k n).2.symm,
    fun k n hk => h.normal k n ((hget k n).1.mp hk).2, fun hdisabled k => ?_⟩
  have hnone := h.disabled ((s.invalidate_reuseEnabled channelKey).symm.trans hdisabled) k
  cases hk : (s.invalidateCachedChannelSlot channelKey).slotByKey.get? k with
  | none => rfl
  | some n => exact (nomatch hnone.symm.trans ((hget k n).1.mp hk).2)

end Notes

end ChannelSlots

end RemoteTerm
