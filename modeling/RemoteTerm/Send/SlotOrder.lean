import RemoteTerm.Library.Machine
import RemoteTerm.Library.Recency
import RemoteTerm.Send.SlotCache

/-!
# Any sequence of calls on the slot cache

Plans, loads, uses and removals in any order, with any keys. A key may be loaded
into any slot that was planned for it before, however long ago and whatever was
removed since. The two dictionaries stay inverse, and the keys stand in the order of
their last use. The slots are those that the radio has as long as no preferred slot is
negative: only its upper bound is checked.
-/

namespace RemoteTerm

open Library

/-- The calls on the slot cache. -/
inductive SlotCall where
  | planChannelSendSlot (channelKey : Text) (preferredSlot : Int)
  | noteChannelSlotLoaded (channelKey : Text) (slot : Int)
  | noteChannelSlotUsed (channelKey : Text)
  | invalidateCachedChannelSlot (channelKey : Text)
  | resetChannelSendCache

/-- The cache, the slots that were planned with their keys, the preferred slots of these plans, and
the keys that were loaded or used, the latest last. -/
structure SlotSession where
  slots : ChannelSlots
  planned : List (Text × Int) := []
  preferred : List Int := []
  used : List Text := []

/-- A session of a radio with some number of channels, on some connection. -/
def slotSession (maxChannels : Int) (forceChannelSlotReconfigure : Bool)
    (connectionInfo : Option Text) (connectionType : Text) : SlotSession where
  slots := { maxChannels, forceChannelSlotReconfigure, connectionInfo, connectionType }

namespace SlotSession

/-- Make a call. -/
def apply (s : SlotSession) : SlotCall → SlotSession
  | .planChannelSendSlot channelKey preferredSlot =>
      { s with
        planned :=
          (upper channelKey, (s.slots.planChannelSendSlot channelKey preferredSlot).1) ::
            s.planned
        preferred := preferredSlot :: s.preferred }
  | .noteChannelSlotLoaded channelKey slot =>
      { s with
        slots := s.slots.noteChannelSlotLoaded channelKey slot
        used := s.used ++ [upper channelKey] }
  | .noteChannelSlotUsed channelKey =>
      { s with
        slots := s.slots.noteChannelSlotUsed channelKey
        used := s.used ++ [upper channelKey] }
  | .invalidateCachedChannelSlot channelKey =>
      { s with slots := s.slots.invalidateCachedChannelSlot channelKey }
  | .resetChannelSendCache => { s with slots := s.slots.resetChannelSendCache }

/-- A channel is loaded into a slot that was planned for it. -/
def Planned (s : SlotSession) : SlotCall → Prop
  | .noteChannelSlotLoaded channelKey slot => (upper channelKey, slot) ∈ s.planned
  | _ => True

end SlotSession

namespace ChannelSlots

variable {s : ChannelSlots} {channelKey : Text} {slot : Int}

/-- What two caches share that belong to one session. -/
structure SameSession (s t : ChannelSlots) : Prop where
  maxChannels : t.maxChannels = s.maxChannels
  reuse : t.channelSlotReuseEnabled = s.channelSlotReuseEnabled

theorem SameSession.trans {s t u : ChannelSlots} (h : s.SameSession t) (h' : t.SameSession u) :
    s.SameSession u :=
  ⟨h'.maxChannels.trans h.maxChannels, h'.reuse.trans h.reuse⟩

theorem SameSession.capacity {s t : ChannelSlots} (h : s.SameSession t) :
    t.getChannelSendCacheCapacity = s.getChannelSendCacheCapacity := by
  unfold getChannelSendCacheCapacity
  rw [h.maxChannels]

theorem sameSession_noteLoaded (s : ChannelSlots) (channelKey : Text) (slot : Int) :
    s.SameSession (s.noteChannelSlotLoaded channelKey slot) := by
  unfold noteChannelSlotLoaded
  split <;> exact ⟨rfl, rfl⟩

theorem sameSession_noteUsed (s : ChannelSlots) (channelKey : Text) :
    s.SameSession (s.noteChannelSlotUsed channelKey) := by
  refine ⟨?_, noteUsed_reuseEnabled s channelKey⟩
  unfold noteChannelSlotUsed
  split
  next =>
    dsimp only
    split <;> rfl
  next => rfl

theorem sameSession_invalidate (s : ChannelSlots) (channelKey : Text) :
    s.SameSession (s.invalidateCachedChannelSlot channelKey) := by
  refine ⟨?_, invalidate_reuseEnabled s channelKey⟩
  unfold invalidateCachedChannelSlot
  dsimp only
  split <;> rfl

/-- Every slot of the cache is one of the radio's. -/
def InRange (s : ChannelSlots) : Prop :=
  ∀ k n, s.slotByKey.get? k = some n → n ∈ slotRange s.getChannelSendCacheCapacity

/-- While slots are reused a planned slot is one of the radio's, if the preferred one is not
negative. -/
theorem InRange.plan (hrange : s.InRange) (h : s.WellFormed)
    (hreuse : s.channelSlotReuseEnabled = true) (channelKey : Text) {preferredSlot : Int}
    (hpreferred : 0 ≤ preferredSlot) :
    (s.planChannelSendSlot channelKey preferredSlot).1 ∈
      slotRange s.getChannelSendCacheCapacity := by
  have hpositive : 0 < s.getChannelSendCacheCapacity := by
    unfold getChannelSendCacheCapacity
    omega
  unfold planChannelSendSlot
  rw [if_pos hreuse]
  split
  next cachedSlot hcached => exact hrange _ _ hcached
  next =>
    dsimp only
    split
    next hsize =>
      unfold findFirstFreeChannelSlot
      split
      next hfits => exact mem_slotRange.mpr ⟨hpreferred, hfits.1⟩
      next =>
        obtain ⟨n, hn, hfree⟩ := h.exists_free hsize
        cases hfind : (slotRange s.getChannelSendCacheCapacity).find? fun slot =>
            s.keyBySlot.get? slot = none with
        | none =>
            rw [List.find?_eq_none] at hfind
            exact absurd hfree (by simpa using hfind n hn)
        | some slot => exact List.mem_of_find?_eq_some hfind
    next hsize =>
      split
      next evictedKey slot hhead =>
        exact hrange _ _ (s.slotByKey.get?_eq_some_iff.mpr (List.mem_of_mem_head? hhead))
      next hhead =>
        rw [List.head?_eq_none_iff] at hhead
        rw [OrderedMap.size, hhead] at hsize
        exact absurd hpositive hsize

theorem InRange.noteLoaded (hrange : s.InRange) (h : s.WellFormed)
    (hslot : s.channelSlotReuseEnabled = true → slot ∈ slotRange s.getChannelSendCacheCapacity)
    (channelKey : Text) : (s.noteChannelSlotLoaded channelKey slot).InRange := by
  intro k n hk
  rw [(sameSession_noteLoaded s channelKey slot).capacity]
  by_cases hreuse : s.channelSlotReuseEnabled = true
  · rcases (h.noteLoaded_get? channelKey slot hreuse k n).1.mp hk with ⟨-, rfl⟩ | ⟨-, -, hk⟩
    · exact hslot hreuse
    · exact hrange k n hk
  · unfold noteChannelSlotLoaded at hk
    rw [if_neg hreuse] at hk
    exact hrange k n hk

theorem InRange.noteUsed (hrange : s.InRange) (h : s.WellFormed) (channelKey : Text) :
    (s.noteChannelSlotUsed channelKey).InRange := by
  intro k n hk
  rw [(sameSession_noteUsed s channelKey).capacity]
  exact hrange k n ((h.noteUsed_get? channelKey k n).1.mp hk)

theorem InRange.invalidate (hrange : s.InRange) (h : s.WellFormed) (channelKey : Text) :
    (s.invalidateCachedChannelSlot channelKey).InRange := by
  intro k n hk
  rw [(sameSession_invalidate s channelKey).capacity]
  exact hrange k n ((h.invalidate_get? channelKey k n).1.mp hk).2

theorem slotByKeyDisplaced_sublist (s : ChannelSlots) (key : Text) (slot : Int) :
    (s.slotByKeyDisplaced key slot).keys.Sublist (s.slotByKey.pop key).keys := by
  unfold slotByKeyDisplaced
  split
  · split
    · exact OrderedMap.keys_pop_sublist _
    · exact List.Sublist.refl _
  · exact List.Sublist.refl _

/-- A loaded key is the last one. -/
theorem recency_noteLoaded {used : List Text} (h : ByRecency used s.slotByKey.keys)
    (hreuse : s.channelSlotReuseEnabled = true) (channelKey : Text) (slot : Int) :
    ByRecency (used ++ [upper channelKey])
      (s.noteChannelSlotLoaded channelKey slot).slotByKey.keys := by
  have hsub := s.slotByKeyDisplaced_sublist (upper channelKey) slot
  have habsent : upper channelKey ∉ (s.slotByKeyDisplaced (upper channelKey) slot).keys :=
    fun hmem => s.slotByKey.notMem_keys_pop (hsub.subset hmem)
  unfold noteChannelSlotLoaded
  rw [if_pos hreuse]
  dsimp only
  rw [OrderedMap.keys_set_absent _ habsent]
  exact (h.sublist (hsub.trans s.slotByKey.keys_pop_sublist)).snoc_last habsent

/-- A used key that is cached becomes the last one. -/
theorem recency_noteUsed {used : List Text} (h : ByRecency used s.slotByKey.keys)
    (hreuse : s.channelSlotReuseEnabled = true) (channelKey : Text) :
    ByRecency (used ++ [upper channelKey]) (s.noteChannelSlotUsed channelKey).slotByKey.keys := by
  unfold noteChannelSlotUsed
  rw [if_pos hreuse]
  dsimp only
  split
  next hnone =>
    refine h.snoc_absent fun hmem => ?_
    obtain ⟨n, hn⟩ := s.slotByKey.mem_keys_iff.mp hmem
    cases hnone.symm.trans hn
  next slot hslot =>
    dsimp only
    rw [OrderedMap.keys_moveToEnd _ hslot]
    exact (h.sublist s.slotByKey.keys_pop_sublist).snoc_last s.slotByKey.notMem_keys_pop

theorem recency_invalidate {used : List Text} (h : ByRecency used s.slotByKey.keys)
    (channelKey : Text) :
    ByRecency used (s.invalidateCachedChannelSlot channelKey).slotByKey.keys := by
  unfold invalidateCachedChannelSlot
  dsimp only
  split
  · exact h
  · exact h.sublist s.slotByKey.keys_pop_sublist

/-- A cache that is not used has no key. -/
theorem WellFormed.keys_disabled (h : s.WellFormed) (hreuse : ¬ s.channelSlotReuseEnabled = true) :
    s.slotByKey.keys = [] := by
  rw [List.eq_nil_iff_forall_not_mem]
  intro k hk
  obtain ⟨n, hn⟩ := s.slotByKey.mem_keys_iff.mp hk
  cases (h.disabled (by simpa using hreuse) k).symm.trans hn

/-- The evicted key is the first one. -/
theorem evicted_head {preferredSlot : Int} {needsConfigure : Bool} {k : Text}
    (hplan : s.planChannelSendSlot channelKey preferredSlot = (slot, needsConfigure, some k)) :
    s.slotByKey.keys.head? = some k ∧ s.slotByKey.get? k = some slot := by
  unfold planChannelSendSlot at hplan
  split at hplan
  · split at hplan
    · simp at hplan
    · dsimp only at hplan
      split at hplan
      · simp at hplan
      · split at hplan
        next evictedKey slot' hhead =>
          simp only [Prod.mk.injEq, Option.some.injEq] at hplan
          obtain ⟨rfl, -, rfl⟩ := hplan
          refine ⟨?_, s.slotByKey.get?_eq_some_iff.mpr (List.mem_of_mem_head? hhead)⟩
          rw [OrderedMap.keys, List.head?_map, hhead]
          rfl
        · simp at hplan
  · simp at hplan

section Sizes

/-- The cache has at most one channel for each slot. -/
theorem InRange.size_slotByKey (hrange : s.InRange) (h : s.WellFormed) :
    s.slotByKey.size ≤ s.getChannelSendCacheCapacity := by
  have hnodup : (s.slotByKey.entries.map Prod.snd).Nodup := by
    refine List.Nodup.map_on ?_ (List.Nodup.of_map _ s.slotByKey.nodup)
    rintro ⟨k, n⟩ hk ⟨k', n'⟩ hk' rfl
    rw [← OrderedMap.get?_eq_some_iff] at hk hk'
    rw [h.slot_unique hk hk']
  have hsub : s.slotByKey.entries.map Prod.snd ⊆ slotRange s.getChannelSendCacheCapacity := by
    intro n hn
    obtain ⟨⟨k, _⟩, hk, rfl⟩ := List.mem_map.mp hn
    exact hrange k _ (s.slotByKey.get?_eq_some_iff.mpr hk)
  have hle := (hnodup.subperm hsub).length_le
  rwa [List.length_map, length_slotRange] at hle

theorem InRange.size_keyBySlot (hrange : s.InRange) (h : s.WellFormed) :
    s.keyBySlot.size ≤ s.getChannelSendCacheCapacity := by
  have hsub : s.keyBySlot.keys ⊆ slotRange s.getChannelSendCacheCapacity := by
    intro n hn
    obtain ⟨k, hk⟩ := s.keyBySlot.mem_keys_iff.mp hn
    exact hrange k n ((h.paired k n).mpr hk)
  have hle := (s.keyBySlot.nodup.subperm hsub).length_le
  rwa [List.length_map, length_slotRange] at hle

end Sizes

end ChannelSlots

namespace SlotSession

variable {s : SlotSession}

/-- No preferred slot so far was negative. -/
def Unsigned (s : SlotSession) : Prop := ∀ n ∈ s.preferred, 0 ≤ n

/-- What every call keeps; the range of the slots needs the preferred ones not to be negative. -/
structure Kept (first : ChannelSlots) (s : SlotSession) : Prop where
  session : first.SameSession s.slots
  wellFormed : s.slots.WellFormed
  inRange : s.Unsigned → s.slots.InRange
  planned : s.Unsigned → s.slots.channelSlotReuseEnabled = true →
    ∀ e ∈ s.planned, e.2 ∈ ChannelSlots.slotRange s.slots.getChannelSendCacheCapacity
  recent : ByRecency s.used s.slots.slotByKey.keys

variable {first : ChannelSlots}

/-- A call that leaves what was planned keeps the range of the planned slots. -/
theorem Kept.planned_of (h : s.Kept first) {t : ChannelSlots} (hsame : s.slots.SameSession t)
    (hunsigned : s.Unsigned) (hreuse : t.channelSlotReuseEnabled = true) :
    ∀ e ∈ s.planned, e.2 ∈ ChannelSlots.slotRange t.getChannelSendCacheCapacity := by
  rw [hsame.capacity]
  exact h.planned hunsigned (hsame.reuse.symm.trans hreuse)

/-- **One call on the cache.** -/
theorem Kept.apply (h : s.Kept first) (call : SlotCall) (hplanned : s.Planned call) :
    (s.apply call).Kept first := by
  cases call with
  | planChannelSendSlot channelKey preferredSlot =>
      have hbefore (hunsigned : (s.apply (.planChannelSendSlot channelKey preferredSlot)).Unsigned) :
          s.Unsigned := fun n hn => hunsigned n (List.mem_cons_of_mem _ hn)
      refine ⟨h.session, h.wellFormed, fun hunsigned => h.inRange (hbefore hunsigned),
        fun hunsigned hreuse e he => ?_, h.recent⟩
      rcases List.mem_cons.mp he with rfl | he
      · exact (h.inRange (hbefore hunsigned)).plan h.wellFormed hreuse channelKey
          (hunsigned _ List.mem_cons_self)
      · exact h.planned (hbefore hunsigned) hreuse e he
  | noteChannelSlotLoaded channelKey slot =>
      have hsame := s.slots.sameSession_noteLoaded channelKey slot
      have hslot := fun hunsigned hreuse => h.planned hunsigned hreuse _ hplanned
      refine ⟨h.session.trans hsame, h.wellFormed.noteLoaded channelKey slot,
        fun hunsigned => (h.inRange hunsigned).noteLoaded h.wellFormed (hslot hunsigned) channelKey,
        h.planned_of hsame, ?_⟩
      by_cases hreuse : s.slots.channelSlotReuseEnabled = true
      · exact ChannelSlots.recency_noteLoaded h.recent hreuse channelKey slot
      · have hkeys := (h.wellFormed.noteLoaded channelKey slot).keys_disabled
          (fun hreuse' => hreuse (hsame.reuse.symm.trans hreuse'))
        simp only [SlotSession.apply, hkeys]
        exact .nil _
  | noteChannelSlotUsed channelKey =>
      have hsame := s.slots.sameSession_noteUsed channelKey
      refine ⟨h.session.trans hsame, h.wellFormed.noteUsed channelKey,
        fun hunsigned => (h.inRange hunsigned).noteUsed h.wellFormed channelKey,
        h.planned_of hsame, ?_⟩
      by_cases hreuse : s.slots.channelSlotReuseEnabled = true
      · exact ChannelSlots.recency_noteUsed h.recent hreuse channelKey
      · have hkeys := (h.wellFormed.noteUsed channelKey).keys_disabled
          (fun hreuse' => hreuse (hsame.reuse.symm.trans hreuse'))
        simp only [SlotSession.apply, hkeys]
        exact .nil _
  | invalidateCachedChannelSlot channelKey =>
      have hsame := s.slots.sameSession_invalidate channelKey
      exact ⟨h.session.trans hsame, h.wellFormed.invalidate channelKey,
        fun hunsigned => (h.inRange hunsigned).invalidate h.wellFormed channelKey,
        h.planned_of hsame, ChannelSlots.recency_invalidate h.recent channelKey⟩
  | resetChannelSendCache =>
      have hsame : s.slots.SameSession s.slots.resetChannelSendCache := ⟨rfl, rfl⟩
      refine ⟨h.session.trans hsame, ChannelSlots.wellFormed_reset s.slots, ?_,
        h.planned_of hsame, .nil _⟩
      intro _ k n hk
      cases hk

theorem kept_slotSession (maxChannels : Int) (force : Bool) (connectionInfo : Option Text)
    (connectionType : Text) :
    (slotSession maxChannels force connectionInfo connectionType).Kept
      (slotSession maxChannels force connectionInfo connectionType).slots := by
  refine ⟨⟨rfl, rfl⟩, ChannelSlots.wellFormed_reset (slotSession ..).slots, ?_, ?_, .nil _⟩
  · intro _ k n hk
    cases hk
  · intro _ _ e he
    cases he

end SlotSession

/-- **The slot cache of a session.** After any calls the two dictionaries are inverse to each other
and the keys stand in the order of their last use. If no preferred slot was negative, they hold at
most as many channels as the radio has slots, and only slots of the radio. A slot that is planned
to be configured is free, or it is the slot of the evicted key, and every other key was used after
it. -/
theorem channel_slot_maps_inverse {maxChannels : Int} {force : Bool}
    {connectionInfo : Option Text} {connectionType : Text} {s : SlotSession}
    (run : Machine SlotSession.apply SlotSession.Planned
      (slotSession maxChannels force connectionInfo connectionType) s) :
    let capacity := (max 1 maxChannels).toNat
    (∀ k n, s.slots.slotByKey.get? k = some n ↔ s.slots.keyBySlot.get? n = some k) ∧
      ((∀ n ∈ s.preferred, 0 ≤ n) →
        s.slots.slotByKey.size ≤ capacity ∧ s.slots.keyBySlot.size ≤ capacity ∧
          ∀ k n, s.slots.slotByKey.get? k = some n → 0 ≤ n ∧ n < capacity) ∧
      ByRecency s.used s.slots.slotByKey.keys ∧
      ∀ channelKey preferredSlot slot evicted,
        s.slots.planChannelSendSlot channelKey preferredSlot = (slot, true, evicted) →
          (evicted = none → s.slots.keyBySlot.get? slot = none) ∧
            ∀ k, evicted = some k → s.slots.keyBySlot.get? slot = some k ∧
              ∀ k' n', s.slots.slotByKey.get? k' = some n' → k' ≠ k →
                UsedBefore s.used k k' := by
  have h := run.invariant (fun _ call hplanned hkept => hkept.apply call hplanned)
    (SlotSession.kept_slotSession maxChannels force connectionInfo connectionType)
  have hcapacity : s.slots.getChannelSendCacheCapacity = (max 1 maxChannels).toNat :=
    h.session.capacity
  dsimp only
  rw [← hcapacity]
  refine ⟨h.wellFormed.paired, fun hunsigned => ?_, h.recent, ?_⟩
  · have hrange := h.inRange hunsigned
    exact ⟨hrange.size_slotByKey h.wellFormed, hrange.size_keyBySlot h.wellFormed,
      fun k n hk => ChannelSlots.mem_slotRange.mp (hrange k n hk)⟩
  · intro channelKey preferredSlot slot evicted hplan
    have hclaimed := h.wellFormed.planChannelSendSlot channelKey preferredSlot hplan
    rw [if_pos rfl] at hclaimed
    constructor
    · rintro rfl
      cases hkey : s.slots.keyBySlot.get? slot with
      | none => rfl
      | some k => cases hclaimed k ((h.wellFormed.paired k slot).mpr hkey)
    · rintro k rfl
      obtain ⟨hhead, hslot⟩ := ChannelSlots.evicted_head hplan
      refine ⟨(h.wellFormed.paired k slot).mp hslot, fun k' n' hk' hne => ?_⟩
      exact h.recent.head hhead (s.slots.slotByKey.mem_keys_iff.mpr ⟨n', hk'⟩) hne

/-- A radio with one slot that two channels are sent from. -/
def twoChannelSession : SlotSession :=
  [SlotCall.planChannelSendSlot "aa".toList 0, .noteChannelSlotLoaded "AA".toList 0,
    .planChannelSendSlot "bb".toList 3, .noteChannelSlotLoaded "bb".toList 0].foldl
      SlotSession.apply (slotSession 1 false none "serial".toList)

theorem channel_slot_maps_inverse_twoChannels :
    let plan := twoChannelSession.slots.planChannelSendSlot "cc".toList 3
    plan = (0, true, some "BB".toList) ∧
      twoChannelSession.slots.slotByKey.size ≤ 1 ∧
      twoChannelSession.slots.keyBySlot.get? 0 = some "BB".toList := by
  have hplan : twoChannelSession.slots.planChannelSendSlot "cc".toList 3 =
      (0, true, some "BB".toList) := by decide
  have hplanned : (upper "AA".toList, 0) ∈ (SlotSession.apply
      (slotSession 1 false none "serial".toList) (.planChannelSendSlot "aa".toList 0)).planned := by
    decide
  have hfirst : Machine SlotSession.apply SlotSession.Planned (slotSession 1 false none
      "serial".toList) (SlotSession.apply (slotSession 1 false none "serial".toList)
        (.planChannelSendSlot "aa".toList 0)) := .single _ trivial
  have hsecond := (hfirst.tail (.noteChannelSlotLoaded "AA".toList 0) hplanned).tail
    (.planChannelSendSlot "bb".toList 3) trivial
  have hrun : Machine SlotSession.apply SlotSession.Planned
      (slotSession 1 false none "serial".toList) twoChannelSession :=
    hsecond.tail (.noteChannelSlotLoaded "bb".toList 0) List.mem_cons_self
  have h := channel_slot_maps_inverse hrun
  exact ⟨hplan, (h.2.1 (by decide)).1, ((h.2.2.2 _ _ _ _ hplan).2 _ rfl).1⟩

/-- A radio with one slot: slot -1 is preferred for one channel, and both are loaded late. -/
def negativeSlotSession : SlotSession :=
  [SlotCall.planChannelSendSlot "aa".toList (-1), .planChannelSendSlot "bb".toList 0,
    .noteChannelSlotLoaded "aa".toList (-1), .noteChannelSlotLoaded "bb".toList 0].foldl
      SlotSession.apply (slotSession 1 false none "serial".toList)

/-- A negative preferred slot is planned and cached. -/
theorem negative_slot_cached :
    Machine SlotSession.apply SlotSession.Planned (slotSession 1 false none "serial".toList)
        negativeSlotSession ∧
      negativeSlotSession.slots.slotByKey.get? "AA".toList = some (-1) ∧
      negativeSlotSession.slots.slotByKey.size = 2 := by
  refine ⟨?_, by decide, by decide⟩
  exact (((Machine.single (SlotCall.planChannelSendSlot _ _) trivial).tail
    (.planChannelSendSlot _ _) trivial).tail (.noteChannelSlotLoaded "aa".toList (-1))
      (by change _ ∈ SlotSession.planned _; decide)).tail
        (.noteChannelSlotLoaded "bb".toList 0) (by change _ ∈ SlotSession.planned _; decide)

end RemoteTerm
