import Mathlib
import RemoteTerm.Frontend.RawPacketStore
import RemoteTerm.Library.Machine

/-!
# Raw packets from the radio to the browser

Each processed packet takes the next number of a counter that lives as long as
the server process, and is broadcast with it. The browser tab outlives both its
connections and the server process, and recognises packets by these numbers.

## Implementation notes

A packet that takes its number may be broadcast after packets with higher
numbers, and a broadcast may reach the tab late or never. An event remembers the
process that sent it, and the state the events that were delivered; neither is
visible to the program.
-/

namespace RemoteTerm

open Library

/-- A broadcast of `process_raw_packet`, with the server process that sent it. -/
structure RawPacketEvent where
  process : Nat
  observationId : Nat
  id : Nat
  timestamp : Int
  data : Text
  deriving DecidableEq

namespace RawPacketEvent

/-- The packet that the tab receives. -/
def packet (e : RawPacketEvent) : RawPacket where
  id := e.id
  observationId := some e.observationId
  timestamp := e.timestamp
  data := e.data

/-- What tells two observations apart. -/
def identity (e : RawPacketEvent) : Nat × Nat := (e.process, e.observationId)

end RawPacketEvent

/-- The server, the events on their way and the tab. -/
structure FeedState (δ : Type) where
  process : Nat := 0
  rawObservationCounter : Nat := 1
  processing : List RawPacketEvent := []
  inFlight : List RawPacketEvent := []
  store : RawPacketStore δ := {}
  delivered : List RawPacketEvent := []
  sinceClear : List RawPacketEvent := []
  deriving DecidableEq

/-- What happens next. -/
inductive FeedEvent where
  | receive (id : Nat) (timestamp : Int) (data : Text)
  | fail (i : Nat)
  | broadcast (i : Nat)
  | deliver (i : Nat)
  | lose (i : Nat)
  | reconnect
  | restart
  deriving DecidableEq

section Feed

variable {δ : Type} (decode : RawPacket → δ)

/-- `process_raw_packet` takes the next number. -/
def FeedState.receive (s : FeedState δ) (id : Nat) (timestamp : Int) (data : Text) : FeedState δ :=
  { s with
    rawObservationCounter := s.rawObservationCounter + 1
    processing := s.processing ++
      [{ process := s.process, observationId := s.rawObservationCounter, id, timestamp, data }] }

/-- The tab records a packet. -/
def FeedState.record (s : FeedState δ) (e : RawPacketEvent) : FeedState δ :=
  { s with
    store := recordRawPacket decode s.store e.packet
    delivered := s.delivered ++ [e]
    sinceClear := s.sinceClear ++ [e] }

/-- The state after an event; an event about a packet that is not there changes nothing. -/
def FeedState.apply (s : FeedState δ) : FeedEvent → FeedState δ
  | .receive id timestamp data => s.receive id timestamp data
  | .fail i => { s with processing := s.processing.eraseIdx i }
  | .broadcast i =>
      { s with
        processing := s.processing.eraseIdx i
        inFlight := s.inFlight ++ (s.processing[i]?).toList }
  | .deliver i =>
      match s.inFlight[i]? with
      | some e => { s.record decode e with inFlight := s.inFlight.eraseIdx i }
      | none => s
  | .lose i => { s with inFlight := s.inFlight.eraseIdx i }
  | .reconnect => { s with store := clearRawPackets s.store, sinceClear := [] }
  | .restart =>
      { s with process := s.process + 1, rawObservationCounter := 1, processing := [] }

/-- A tab that was just opened. -/
structure FeedState.Opened (s : FeedState δ) : Prop where
  store : s.store = {}
  idle : s.processing = [] ∧ s.inFlight = []
  delivered : s.delivered = [] ∧ s.sinceClear = []

/-- The delivered events that the statistics can still hold. -/
def FeedState.retained (s : FeedState δ) : List RawPacketEvent :=
  s.delivered.rtake maxRawPacketStatsObservations

/-- No event is delivered whose number a retained event of another server process has. -/
def Unreused (s : FeedState δ) : FeedEvent → Prop
  | .deliver i => ∀ e ∈ s.inFlight[i]?, ∀ d ∈ s.retained,
      d.process ≠ e.process → d.observationId ≠ e.observationId
  | _ => True

instance (s : FeedState δ) : ∀ event, Decidable (Unreused s event)
  | .deliver i => inferInstanceAs (Decidable (∀ e ∈ s.inFlight[i]?, ∀ d ∈ s.retained,
      d.process ≠ e.process → d.observationId ≠ e.observationId))
  | .receive .. | .fail _ | .broadcast _ | .lose _ | .reconnect | .restart => .isTrue trivial

/-- Every delivered observation was counted once, and the buffer lost none but by trimming and
clearing. -/
structure FeedState.Exact (s : FeedState δ) : Prop where
  counted : s.store.statsSession.totalObservedPackets = s.delivered.length
  observations : s.store.statsSession.observations =
    s.retained.map fun e => summarizeRawPacketForStats decode e.packet
  packets : s.store.packets =
    (s.sinceClear.rtake maxRawPackets).map RawPacketEvent.packet

/-- The events that exist. -/
def FeedState.events (s : FeedState δ) : List RawPacketEvent :=
  s.processing ++ s.inFlight ++ s.delivered

/-- Numbers are used once in a process, and the buffer holds events delivered since it was
cleared. -/
structure FeedState.Numbered (s : FeedState δ) : Prop where
  distinct : (s.events.map RawPacketEvent.identity).Nodup
  used : ∀ e ∈ s.events, e.process < s.process ∨
    e.process = s.process ∧ e.observationId < s.rawObservationCounter
  cleared : s.sinceClear <:+ s.delivered

end Feed

section Numbers

variable {δ : Type} {decode : RawPacket → δ} {s : FeedState δ}

theorem FeedState.Opened.numbered (h : s.Opened) : s.Numbered := by
  have hevents : s.events = [] := by
    simp [FeedState.events, h.idle.1, h.idle.2, h.delivered.1]
  refine ⟨by rw [hevents]; exact List.nodup_nil, ?_, ?_⟩
  · rw [hevents]
    intro e he
    cases he
  · rw [h.delivered.1, h.delivered.2]

/-- Events that only move or vanish keep their numbers. -/
theorem FeedState.Numbered.of_subperm {s' : FeedState δ} (h : s.Numbered)
    (hevents : s'.events.Subperm s.events) (hprocess : s'.process = s.process)
    (hcounter : s'.rawObservationCounter = s.rawObservationCounter)
    (hcleared : s'.sinceClear <:+ s'.delivered) : s'.Numbered where
  distinct := by
    obtain ⟨l, hperm, hsub⟩ := hevents
    exact (hperm.map _).nodup_iff.mp ((hsub.map _).nodup h.distinct)
  used e he := by
    rw [hprocess, hcounter]
    exact h.used e (hevents.subset he)
  cleared := hcleared

theorem toList_append_eraseIdx_perm {α : Type} (l : List α) (i : Nat) :
    (l[i]?.toList ++ l.eraseIdx i).Perm l := by
  cases h : l[i]? with
  | none =>
      rw [List.eraseIdx_of_length_le (List.getElem?_eq_none_iff.mp h)]
      exact List.Perm.refl l
  | some x =>
      obtain ⟨hi, rfl⟩ := List.getElem?_eq_some_iff.mp h
      exact List.getElem_cons_eraseIdx_perm hi

theorem FeedState.Numbered.receive (h : s.Numbered) (id : Nat) (timestamp : Int) (data : Text) :
    (s.receive id timestamp data).Numbered := by
  have hperm : (s.receive id timestamp data).events.Perm
      ({ process := s.process, observationId := s.rawObservationCounter, id, timestamp, data } ::
        s.events) := by
    simp only [FeedState.events, FeedState.receive, List.append_assoc]
    exact List.perm_middle
  refine ⟨?_, ?_, h.cleared⟩
  · rw [(hperm.map _).nodup_iff, List.map_cons, List.nodup_cons]
    refine ⟨?_, h.distinct⟩
    intro hused
    obtain ⟨e, he, hidentity⟩ := List.mem_map.mp hused
    obtain ⟨hprocess, hnumber⟩ := Prod.mk.inj hidentity
    dsimp only at hprocess hnumber
    rcases h.used e he with hlt | ⟨-, hlt⟩ <;> omega
  · intro e he
    rcases List.mem_cons.mp (hperm.subset he) with rfl | he
    · exact .inr ⟨rfl, Nat.lt_succ_self _⟩
    · rcases h.used e he with hlt | ⟨hprocess, hlt⟩
      · exact .inl hlt
      · exact .inr ⟨hprocess, Nat.lt_succ_of_lt hlt⟩

/-- Every event keeps the numbers apart. -/
theorem FeedState.Numbered.apply (h : s.Numbered) (event : FeedEvent) :
    (s.apply decode event).Numbered := by
  cases event with
  | receive id timestamp data => exact h.receive id timestamp data
  | fail i =>
      refine h.of_subperm ?_ rfl rfl h.cleared
      exact (((List.eraseIdx_sublist ..).append_right _).append_right _).subperm
  | broadcast i =>
      refine h.of_subperm (List.Perm.subperm ?_) rfl rfl h.cleared
      change (s.processing.eraseIdx i ++ (s.inFlight ++ s.processing[i]?.toList) ++
        s.delivered).Perm (s.processing ++ s.inFlight ++ s.delivered)
      refine List.Perm.append_right _ ?_
      calc (s.processing.eraseIdx i ++ (s.inFlight ++ s.processing[i]?.toList)).Perm
            (s.processing.eraseIdx i ++ (s.processing[i]?.toList ++ s.inFlight)) :=
          List.Perm.append_left _ List.perm_append_comm
        _ = s.processing.eraseIdx i ++ s.processing[i]?.toList ++ s.inFlight := by
          rw [List.append_assoc]
        _ |>.Perm (s.processing[i]?.toList ++ s.processing.eraseIdx i ++ s.inFlight) :=
          List.Perm.append_right _ List.perm_append_comm
        _ |>.Perm (s.processing ++ s.inFlight) :=
          List.Perm.append_right _ (toList_append_eraseIdx_perm ..)
  | deliver i =>
      simp only [FeedState.apply]
      split
      next e he =>
        have hperm : (e :: s.inFlight.eraseIdx i).Perm s.inFlight := by
          have := toList_append_eraseIdx_perm s.inFlight i
          rwa [he] at this
        refine h.of_subperm (List.Perm.subperm ?_) rfl rfl ?_
        · change (s.processing ++ s.inFlight.eraseIdx i ++ (s.delivered ++ [e])).Perm _
          simp only [FeedState.events, List.append_assoc]
          refine List.Perm.append_left _ ?_
          refine List.Perm.trans ?_ (hperm.append_right s.delivered)
          rw [← List.append_assoc]
          exact List.perm_append_singleton e _
        · obtain ⟨earlier, hearlier⟩ := h.cleared
          exact ⟨earlier, by
            change earlier ++ (s.sinceClear ++ [e]) = s.delivered ++ [e]
            rw [← List.append_assoc, hearlier]⟩
      next => exact h
  | lose i =>
      refine h.of_subperm ?_ rfl rfl h.cleared
      exact (((List.eraseIdx_sublist ..).append_left _).append_right _).subperm
  | reconnect => exact h.of_subperm (List.Perm.refl _).subperm rfl rfl (List.nil_suffix)
  | restart =>
      have hevents : ((s.apply decode .restart).events).Sublist s.events :=
        ((List.sublist_append_right s.processing s.inFlight)).append_right s.delivered
      refine ⟨hevents.map _ |>.nodup h.distinct, ?_, h.cleared⟩
      intro e he
      rcases h.used e (hevents.subset he) with hlt | ⟨heq, -⟩
      · exact .inl (Nat.lt_succ_of_lt hlt)
      · exact .inl (heq ▸ Nat.lt_succ_self _)

end Numbers

section Exactness

variable {δ : Type} {decode : RawPacket → δ} {s : FeedState δ} {e : RawPacketEvent}

theorem FeedState.Opened.exact (h : s.Opened) : s.Exact decode where
  counted := by simp [h.store, h.delivered.1]
  observations := by simp [h.store, FeedState.retained, h.delivered.1]
  packets := by simp [h.store, h.delivered.2]

theorem RawPacketEvent.key_inj {d e : RawPacketEvent}
    (h : getRawPacketObservationKey d.packet = getRawPacketObservationKey e.packet) :
    d.observationId = e.observationId :=
  getRawPacketObservationKey_inj rfl rfl h

theorem FeedState.Exact.mem_keys (h : s.Exact decode) {key : Text} :
    key ∈ s.store.statsSession.observations.map (fun o => o.observationKey) ↔
      ∃ d ∈ s.retained, getRawPacketObservationKey d.packet = key := by
  rw [h.observations, List.map_map, List.mem_map]
  rfl

/-- In an exact state the statistics count an event whose number no retained event has. -/
theorem FeedState.Exact.record (h : s.Exact decode) (hcleared : s.sinceClear <:+ s.delivered)
    (hnew : ∀ d ∈ s.retained, d.observationId ≠ e.observationId) :
    (s.record decode e).Exact decode := by
  have hkey : getRawPacketObservationKey e.packet ∉
      s.store.statsSession.observations.map fun o => o.observationKey := by
    intro hmem
    obtain ⟨d, hd, heq⟩ := h.mem_keys.mp hmem
    exact hnew d hd (RawPacketEvent.key_inj heq)
  have hbuffered : getRawPacketObservationKey e.packet ∉
      s.store.packets.map getRawPacketObservationKey := by
    rw [h.packets, List.map_map]
    intro hmem
    obtain ⟨d, hd, heq⟩ := List.mem_map.mp hmem
    have hd' : d ∈ s.retained := mem_rtake_of_suffix hcleared (by decide) hd
    exact hnew d hd' (RawPacketEvent.key_inj heq)
  have hobserved := @observePacket_of_new δ decode e.packet s.store.statsSession hkey
  obtain ⟨htotal, hobservations⟩ := hobserved
  constructor
  · change (observePacket decode _ _).totalObservedPackets = (s.delivered ++ [e]).length
    rw [htotal, h.counted, List.length_append, List.length_singleton]
  · change (observePacket decode _ _).observations = _
    rw [hobservations, h.observations]
    exact map_rtake_append_singleton (fun d : RawPacketEvent =>
      summarizeRawPacketForStats decode d.packet) s.delivered e (by decide)
  · change appendRawPacketUnique _ _ _ = _
    rw [appendRawPacketUnique_of_new (by decide) hbuffered, h.packets]
    exact map_rtake_append_singleton RawPacketEvent.packet s.sinceClear e (by decide)

/-- An event about to be delivered has another identity than the delivered ones. -/
theorem FeedState.Numbered.identity_ne (h : s.Numbered) (he : e ∈ s.inFlight)
    {d : RawPacketEvent} (hd : d ∈ s.delivered) : d.identity ≠ e.identity := by
  have hdistinct := h.distinct
  rw [FeedState.events, List.map_append, List.nodup_append] at hdistinct
  obtain ⟨-, -, hapart⟩ := hdistinct
  intro heq
  exact hapart _ (List.mem_map_of_mem (List.mem_append_right _ he)) _
    (List.mem_map_of_mem hd) heq.symm

/-- An event under the condition keeps a state exact. -/
theorem FeedState.Exact.apply (h : s.Exact decode) (hnumbered : s.Numbered) (event : FeedEvent)
    (hunreused : Unreused s event) : (s.apply decode event).Exact decode := by
  cases event with
  | deliver i =>
      simp only [FeedState.apply]
      split
      next e he =>
        have hmem : e ∈ s.inFlight := List.mem_of_getElem? he
        have hnew : ∀ d ∈ s.retained, d.observationId ≠ e.observationId := by
          intro d hd heq
          have hdelivered : d ∈ s.delivered := (List.drop_suffix ..).subset hd
          by_cases hprocess : d.process = e.process
          · exact hnumbered.identity_ne hmem hdelivered (Prod.ext hprocess heq)
          · exact hunreused e he d hd hprocess heq
        obtain ⟨hcounted, hobservations, hpackets⟩ := h.record hnumbered.cleared hnew
        exact ⟨hcounted, hobservations, hpackets⟩
      next => exact h
  | reconnect =>
      refine ⟨h.counted, h.observations, ?_⟩
      simp [FeedState.apply, clearRawPackets]
  | receive id timestamp data => exact ⟨h.counted, h.observations, h.packets⟩
  | fail i => exact ⟨h.counted, h.observations, h.packets⟩
  | broadcast i => exact ⟨h.counted, h.observations, h.packets⟩
  | lose i => exact ⟨h.counted, h.observations, h.packets⟩
  | restart => exact ⟨h.counted, h.observations, h.packets⟩

/-- The statistics missed a delivered event. -/
def FeedState.Behind (s : FeedState δ) : Prop :=
  s.store.statsSession.totalObservedPackets < s.delivered.length

/-- A missed event stays missed. -/
theorem FeedState.Behind.apply (h : s.Behind) (event : FeedEvent) :
    (s.apply decode event).Behind := by
  cases event with
  | deliver i =>
      simp only [FeedState.apply]
      split
      next e he =>
        have hle := @observePacket_total_le δ decode s.store.statsSession e.packet
        change (observePacket decode s.store.statsSession e.packet).totalObservedPackets <
          (s.delivered ++ [e]).length
        rw [List.length_append, List.length_singleton]
        exact lt_of_le_of_lt hle (Nat.succ_lt_succ h)
      next => exact h
  | _ => exact h

/-- A reused number is missed. -/
theorem FeedState.Exact.behind (h : s.Exact decode) {event : FeedEvent}
    (hreused : ¬ Unreused s event) : (s.apply decode event).Behind := by
  cases event with
  | deliver i =>
      simp only [Unreused, not_forall, not_not] at hreused
      obtain ⟨e, he, d, hd, -, heq⟩ := hreused
      have hkey : getRawPacketObservationKey e.packet ∈
          s.store.statsSession.observations.map fun o => o.observationKey :=
        h.mem_keys.mpr ⟨d, hd, by simp [getRawPacketObservationKey, RawPacketEvent.packet, heq]⟩
      have happly : s.apply decode (.deliver i) =
          { s.record decode e with inFlight := s.inFlight.eraseIdx i } := by
        have he' : s.inFlight[i]? = some e := he
        simp only [FeedState.apply, he']
      rw [happly]
      change (observePacket decode s.store.statsSession e.packet).totalObservedPackets <
        (s.delivered ++ [e]).length
      rw [observePacket_of_known hkey, h.counted, List.length_append, List.length_singleton]
      exact Nat.lt_succ_self _
  | _ => exact absurd trivial hreused

/-- Every event keeps the total balanced. -/
theorem FeedState.balanced_apply (h : s.store.statsSession.Balanced) (event : FeedEvent) :
    (s.apply decode event).store.statsSession.Balanced := by
  cases event with
  | deliver i =>
      simp only [FeedState.apply]
      split
      next e he => exact h.observePacket e.packet
      next => exact h
  | _ => exact h

end Exactness

section Runs

variable {δ : Type} {decode : RawPacket → δ} {s t : FeedState δ}

/-- A run of the server and the tab under a condition on its events. -/
abbrev FeedRun (decode : RawPacket → δ) (ok : FeedState δ → FeedEvent → Prop) :
    FeedState δ → FeedState δ → Prop :=
  Machine (FeedState.apply decode) ok

/-- **Every delivered observation is counted once**: in every run that delivers no number that a
retained observation of another server process has. A run that delivers one has missed it for
good. In every run the total is what is stored and what was trimmed. -/
theorem observations_counted_once (hs : s.Opened) :
    (FeedRun decode Unreused s t → t.Exact decode) ∧
      (∀ u event, FeedRun decode Unreused s u → ¬ Unreused u event →
        FeedRun decode (fun _ _ => True) (u.apply decode event) t → ¬ t.Exact decode) ∧
      (FeedRun decode (fun _ _ => True) s t → t.store.statsSession.Balanced) := by
  have hexact : ∀ {u}, FeedRun decode Unreused s u → u.Exact decode ∧ u.Numbered := by
    intro u run
    exact run.invariant (P := fun u => u.Exact decode ∧ u.Numbered)
      (fun v event hok hv => ⟨hv.1.apply hv.2 event hok, hv.2.apply event⟩) ⟨hs.exact, hs.numbered⟩
  refine ⟨fun run => (hexact run).1, ?_, ?_⟩
  · intro u event run hreused rest hend
    have hbehind : t.Behind :=
      rest.invariant (fun v event _ hv => hv.apply event) ((hexact run).1.behind hreused)
    exact absurd hend.counted (Nat.ne_of_lt hbehind)
  · intro run
    have hstart : s.store.statsSession.Balanced := by
      rw [hs.store]
      rfl
    exact run.invariant (P := fun u => u.store.statsSession.Balanced)
      (fun v event _ hv => FeedState.balanced_apply hv event) hstart

end Runs

section Example

/-- A packet is delivered, the server restarts, the tab reconnects, and a packet is delivered. -/
def restartedFeed : List FeedEvent :=
  [.receive 1 100 ['a', 'a'], .broadcast 0, .deliver 0, .restart, .reconnect,
    .receive 2 160 ['b', 'b'], .broadcast 0, .deliver 0]

/-- The second packet reuses the number of the first and is not counted. -/
theorem restarted_feed_misses_packet :
    ∃ s t : FeedState Unit, s.Opened ∧ FeedRun (fun _ => ()) (fun _ _ => True) s t ∧
      t.delivered.length = 2 ∧ t.store.statsSession.totalObservedPackets = 1 ∧
      ¬ t.Exact fun _ => () := by
  have hcounts : (restartedFeed.foldl (FeedState.apply fun _ => ()) {}).delivered.length = 2 ∧
      (restartedFeed.foldl (FeedState.apply fun _ => ())
        {}).store.statsSession.totalObservedPackets = 1 := by decide +kernel
  refine ⟨{}, restartedFeed.foldl (FeedState.apply fun _ => ()) {}, ⟨rfl, ⟨rfl, rfl⟩, rfl, rfl⟩,
    Machine.foldl .., hcounts.1, hcounts.2, fun h => ?_⟩
  have hcounted := h.counted
  rw [hcounts.1, hcounts.2] at hcounted
  cases hcounted

/-- The server restarts, and the first packet of the new process is lost before the second one is
delivered. -/
def renumberedFeed : List FeedEvent :=
  [.receive 1 100 ['a', 'a'], .broadcast 0, .deliver 0, .restart, .reconnect,
    .receive 2 160 ['b', 'b'], .broadcast 0, .lose 0, .receive 3 170 ['c', 'c'], .broadcast 0,
    .deliver 0]

/-- The tab counts both packets that were delivered, and its buffer holds the second one. -/
theorem observations_counted_once_first :
    ∃ t : FeedState Unit, t.delivered.length = 2 ∧
      t.store.packets.map RawPacket.id = [3] ∧ t.Exact fun _ => () := by
  have hopened : FeedState.Opened ({} : FeedState Unit) := ⟨rfl, ⟨rfl, rfl⟩, rfl, rfl⟩
  have run : FeedRun (fun _ => ()) Unreused ({} : FeedState Unit)
      (renumberedFeed.foldl (FeedState.apply fun _ => ()) {}) :=
    Machine.foldl_of_allOk (by decide +kernel)
  exact ⟨_, by decide +kernel, by decide +kernel, (observations_counted_once hopened).1 run⟩

end Example

end RemoteTerm
