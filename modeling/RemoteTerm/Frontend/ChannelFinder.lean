import RemoteTerm.Frontend.PathFraming
import RemoteTerm.Frontend.RawPacketStore
import RemoteTerm.Library.Machine
import RemoteTerm.Library.OrderedMap

/-!
# The queue of the channel finder

The finder queues the undecrypted group texts of the packet buffer, one for each
payload. Its effect runs when their number has changed since it last ran, so a new
packet is missed when another one leaves the buffer for it.

## Implementation notes

A re-render makes the list, runs the effect if it is due, and applies its update
of the queue. What the cracker finds is left to the events.
-/

namespace RemoteTerm

open Library

namespace ChannelFinder

/-- A raw packet with the fields that the finder reads. -/
structure Packet extends RawPacket where
  payloadType : Text
  decrypted : Bool
deriving DecidableEq

/-- `appendRawPacketUnique`, on these packets. -/
def appendPacketUnique (prev : List Packet) (packet : Packet) (maxPackets : Nat) : List Packet :=
  if getRawPacketObservationKey packet.toRawPacket ∈
      prev.map fun p => getRawPacketObservationKey p.toRawPacket then prev
  else
    let updated := prev ++ [packet]
    if maxPackets < updated.length then sliceLast updated maxPackets else updated

/-- The buffer is the one of the store. -/
theorem toRawPacket_appendPacketUnique (prev : List Packet) (packet : Packet) (maxPackets : Nat) :
    (appendPacketUnique prev packet maxPackets).map Packet.toRawPacket =
      appendRawPacketUnique (prev.map Packet.toRawPacket) packet.toRawPacket maxPackets := by
  unfold appendPacketUnique appendRawPacketUnique
  rw [List.map_map]
  dsimp only [Function.comp_def]
  split
  · rfl
  · simp only [List.length_append, List.length_map, List.length_singleton]
    split
    · rw [map_sliceLast, List.map_append, List.map_singleton]
    · rw [List.map_append, List.map_singleton]

/-- The status of a queued packet. -/
inductive Status where
  | pending
  | cracked
  | failed
deriving DecidableEq

/-- `QueueItem`. -/
structure QueueItem where
  packet : Packet
  attempts : Nat := 0
  lastAttemptLength : Nat := 0
  status : Status := .pending

/-- The queue with the payloads that were seen and the number of packets that were skipped for
them. `queued` lists the packets that were put into the queue. -/
structure Queue where
  items : OrderedMap Nat QueueItem := .empty
  seenPayloads : List Text := []
  skippedDuplicates : Nat := 0
  queued : List Packet := []

/-- The buffer, the component, and what it remembers of earlier renders: the list of the last
render, the list with which the effect last ran, the packet that is being cracked with the
length that is tried, and whether cracking was stopped since it was started. `removed` lists the packets that were taken out of the queue. -/
structure Finder where
  packets : List Packet := []
  queue : Queue := {}
  undecryptedGroupText : List Packet := []
  effectList : Option (List Packet) := none
  isRunning : Bool := false
  processing : Option (Nat × Nat) := none
  aborted : Bool := false
  removed : List Nat := []

/-- `packets.filter(...)`: the undecrypted group texts. -/
def undecrypted (packets : List Packet) : List Packet :=
  packets.filter fun p => decide (p.payloadType = "GROUP_TEXT".toList) && !p.decrypted

/-- `extractPacketPayloadHex` of a packet. -/
def payloadOf (packet : Packet) : Option Text := Frontend.extractPacketPayloadHex packet.data

/-- One turn of the loop of the queue effect. -/
def queuePacket (queue : Queue) (packet : Packet) : Queue :=
  if (queue.items.get? packet.id).isSome then queue
  else
    match payloadOf packet with
    | some payload =>
        if payload ∈ queue.seenPayloads then
          { queue with skippedDuplicates := queue.skippedDuplicates + 1 }
        else
          { queue with
            seenPayloads := payload :: queue.seenPayloads
            items := queue.items.set packet.id { packet }
            queued := queue.queued ++ [packet] }
    | none =>
        { queue with
          items := queue.items.set packet.id { packet }
          queued := queue.queued ++ [packet] }

/-- The failed items that are tried again, the one with the lowest length first. -/
def retryItem (items : List (Nat × QueueItem)) : Option (Nat × QueueItem) :=
  ((items.filter fun e => decide (e.2.status = .failed) && decide (e.2.lastAttemptLength < 10)
    ).mergeSort fun a b => a.2.lastAttemptLength ≤ b.2.lastAttemptLength).head?

/-- The item that `processNext` takes. -/
def nextItem (items : List (Nat × QueueItem)) (retryFailed : Bool) : Option (Nat × QueueItem) :=
  match items.find? fun e => e.2.status = .pending with
  | some e => some e
  | none => if retryFailed then retryItem items else none

/-- The length that an item is tried with. -/
def targetLength (item : QueueItem) (maxLength : Nat) : Nat :=
  if 0 < item.lastAttemptLength then item.lastAttemptLength + 1 else maxLength

/-- What happens: a packet is recorded, the buffer is cleared, the component is rendered, cracking
is started or stopped, `processNext` is called, or the cracker answers or raises. -/
inductive Event where
  | recordRawPacket (packet : Packet)
  | clearRawPackets
  | render
  | setRunning (running : Bool)
  | processNext (retryFailed : Bool) (maxLength : Nat)
  | crackAnswered (found : Bool)
  | crackRaised

/-- An item after an attempt. -/
def QueueItem.attempted (item : QueueItem) (length : Nat) (found : Bool) : QueueItem :=
  { item with
    status := if found then .cracked else .failed
    attempts := item.attempts + 1
    lastAttemptLength := length }

/-- The item that is being cracked, after its attempt. -/
def Finder.attemptEnded (s : Finder) (found : Bool) : Finder :=
  match s.processing with
  | none => s
  | some (nextId, length) =>
      match s.queue.items.get? nextId with
      | none => { s with processing := none }
      | some item =>
          { s with
            processing := none
            queue := { s.queue with
              items := s.queue.items.set nextId (item.attempted length found) } }

/-- Carry out an event. The answer to an attempt that was stopped leaves its item. -/
def apply (maxPackets : Nat) (s : Finder) : Event → Finder
  | .recordRawPacket packet =>
      { s with packets := appendPacketUnique s.packets packet maxPackets }
  | .clearRawPackets => { s with packets := [] }
  | .render =>
      let list := undecrypted s.packets
      if s.effectList.map List.length = some list.length then
        { s with undecryptedGroupText := list }
      else
        { s with
          undecryptedGroupText := list
          effectList := some list
          queue := list.foldl queuePacket s.queue }
  | .setRunning running => { s with isRunning := running, aborted := !running }
  | .processNext retryFailed maxLength =>
      if s.processing.isSome || !s.isRunning then s
      else
        match nextItem s.queue.items.entries retryFailed with
        | none => s
        | some (nextId, item) =>
            if nextId ∈ s.undecryptedGroupText.map (·.id) then
              { s with processing := some (nextId, targetLength item maxLength) }
            else
              { s with
                queue := { s.queue with items := s.queue.items.pop nextId }
                removed := nextId :: s.removed }
  | .crackAnswered found =>
      if s.aborted && s.processing.isSome then { s with processing := none, aborted := false }
      else s.attemptEnded found
  | .crackRaised => s.attemptEnded false

/-- At a render the number of undecrypted group texts is another one than when the effect last ran,
or each of them was there then. -/
def Noticed (s : Finder) : Event → Prop
  | .render => s.effectList.map List.length ≠ some (undecrypted s.packets).length ∨
      ∀ p ∈ undecrypted s.packets, p ∈ s.effectList.getD []
  | _ => True

instance (s : Finder) : ∀ e, Decidable (Noticed s e)
  | .render => inferInstanceAs (Decidable (_ ∨ ∀ p ∈ undecrypted s.packets, _))
  | .recordRawPacket _ | .clearRawPackets | .setRunning _ | .processNext .. | .crackAnswered _
  | .crackRaised => .isTrue trivial

/-- The packet is queued, was removed from the queue, or a packet with its payload was queued. -/
def Accounted (s : Finder) (packet : Packet) : Prop :=
  packet.id ∈ s.queue.items.entries.map Prod.fst ∨ packet.id ∈ s.removed ∨
    ∃ other ∈ s.queue.queued, (payloadOf other).isSome ∧ payloadOf other = payloadOf packet

/-! ### The loop of the effect -/

section Queue

variable {queue : Queue} {packet : Packet}

/-- The seen payloads are those of the packets that were queued, and each was queued once. -/
structure Queue.Tracked (queue : Queue) : Prop where
  seen : ∀ payload, payload ∈ queue.seenPayloads ↔
    ∃ other ∈ queue.queued, payloadOf other = some payload
  once : (queue.queued.filterMap payloadOf).Nodup

/-- What one queue keeps of an earlier one. -/
structure Queue.Extends (before after : Queue) : Prop where
  ids : ∀ id, (before.items.get? id).isSome → (after.items.get? id).isSome
  queued : ∀ p ∈ before.queued, p ∈ after.queued

theorem Queue.Extends.refl (queue : Queue) : queue.Extends queue :=
  ⟨fun _ h => h, fun _ h => h⟩

theorem Queue.Extends.trans {a b c : Queue} (h : a.Extends b) (h' : b.Extends c) : a.Extends c :=
  ⟨fun id hid => h'.ids id (h.ids id hid), fun p hp => h'.queued p (h.queued p hp)⟩

/-- The packet is in the queue, or one with its payload was put there. -/
def Queue.Holds (queue : Queue) (packet : Packet) : Prop :=
  (queue.items.get? packet.id).isSome ∨
    ∃ other ∈ queue.queued, (payloadOf other).isSome ∧ payloadOf other = payloadOf packet

theorem Queue.Holds.mono {before after : Queue} (h : before.Holds packet)
    (hext : before.Extends after) : after.Holds packet := by
  rcases h with hid | ⟨other, hother, hpayload⟩
  · exact .inl (hext.ids _ hid)
  · exact .inr ⟨other, hext.queued other hother, hpayload⟩

theorem isSome_get?_set {items : OrderedMap Nat QueueItem} {id id' : Nat} (item : QueueItem)
    (h : (items.get? id').isSome) : ((items.set id item).get? id').isSome := by
  by_cases hid : id' = id
  · rw [hid, OrderedMap.get?_set_self]
    rfl
  · rwa [OrderedMap.get?_set_of_ne _ _ hid]

/-- **One packet of the effect** is queued, or held already. -/
theorem queuePacket_spec (h : queue.Tracked) (packet : Packet) :
    (queuePacket queue packet).Tracked ∧ queue.Extends (queuePacket queue packet) ∧
      (queuePacket queue packet).Holds packet := by
  unfold queuePacket
  split
  next hid => exact ⟨h, .refl queue, .inl hid⟩
  next hid =>
    split
    next payload hpayload =>
      split
      next hseen =>
        obtain ⟨other, hother, hsame⟩ := (h.seen payload).mp hseen
        exact ⟨⟨h.seen, h.once⟩, ⟨fun _ h => h, fun _ h => h⟩,
          .inr ⟨other, hother, by rw [hsame]; rfl, by rw [hsame, hpayload]⟩⟩
      next hseen =>
        refine ⟨⟨fun other => ?_, ?_⟩, ⟨fun _ => isSome_get?_set _, fun p hp =>
          List.mem_append_left _ hp⟩, .inl (by rw [OrderedMap.get?_set_self]; rfl)⟩
        · rw [List.mem_cons, h.seen]
          constructor
          · rintro (rfl | ⟨p, hp, hsame⟩)
            · exact ⟨packet, List.mem_append_right _ (List.mem_singleton_self _), hpayload⟩
            · exact ⟨p, List.mem_append_left _ hp, hsame⟩
          · rintro ⟨p, hp, hsame⟩
            rcases List.mem_append.mp hp with hp | hp
            · exact .inr ⟨p, hp, hsame⟩
            · rw [List.mem_singleton.mp hp, hpayload] at hsame
              exact .inl (Option.some.inj hsame).symm
        · rw [List.filterMap_append, List.nodup_append]
          refine ⟨h.once, by simp [hpayload], ?_⟩
          intro a ha b hb hab
          obtain ⟨p, hp, hsame⟩ := List.mem_filterMap.mp ha
          have hlast : b = payload := by simpa [hpayload] using hb
          exact hseen ((h.seen payload).mpr ⟨p, hp, by rw [hsame, hab, hlast]⟩)
    next hpayload =>
      refine ⟨⟨fun other => ?_, ?_⟩, ⟨fun _ => isSome_get?_set _, fun p hp =>
        List.mem_append_left _ hp⟩, .inl (by rw [OrderedMap.get?_set_self]; rfl)⟩
      · simp [h.seen, hpayload]
      · simp [List.filterMap_append, hpayload, h.once]

/-- The effect holds every packet of its list afterwards. -/
theorem foldl_queuePacket_spec (packets : List Packet) (h : queue.Tracked) :
    (packets.foldl queuePacket queue).Tracked ∧
      queue.Extends (packets.foldl queuePacket queue) ∧
      ∀ p ∈ packets, (packets.foldl queuePacket queue).Holds p := by
  induction packets generalizing queue with
  | nil => exact ⟨h, .refl queue, by simp⟩
  | cons packet rest ih =>
      obtain ⟨htracked, hext, hheld⟩ := queuePacket_spec h packet
      obtain ⟨htracked', hext', hheld'⟩ := ih htracked
      refine ⟨htracked', hext.trans hext', ?_⟩
      intro p hp
      rcases List.mem_cons.mp hp with rfl | hp
      · exact hheld.mono hext'
      · exact hheld' p hp

end Queue

/-! ### Runs -/

section Runs

variable {s : Finder} {maxPackets : Nat}

theorem accounted_iff {packet : Packet} :
    Accounted s packet ↔ s.queue.Holds packet ∨ packet.id ∈ s.removed := by
  have hid : packet.id ∈ s.queue.items.entries.map Prod.fst ↔
      (s.queue.items.get? packet.id).isSome := by
    rw [← not_iff_not, ← OrderedMap.get?_eq_none_iff, Option.not_isSome_iff_eq_none]
  unfold Accounted Queue.Holds
  rw [hid, or_assoc]
  exact or_congr_right or_comm

/-- What every event keeps: the packets with which the effect last ran are accounted for, and those
of the last render are among them. -/
structure Kept (s : Finder) : Prop where
  tracked : s.queue.Tracked
  accounted : ∀ p ∈ s.effectList.getD [], Accounted s p
  rendered : ∀ p ∈ s.undecryptedGroupText, p ∈ s.effectList.getD []

/-- An event that leaves the lists and takes no account of a packet away. -/
theorem Kept.of_queue (h : Kept s) {t : Finder} (heffect : t.effectList = s.effectList)
    (hrendered : t.undecryptedGroupText = s.undecryptedGroupText) (htracked : t.queue.Tracked)
    (haccounted : ∀ p, Accounted s p → Accounted t p) : Kept t where
  tracked := htracked
  accounted p hp := haccounted p (h.accounted p (heffect ▸ hp))
  rendered p hp := by
    rw [heffect]
    exact h.rendered p (hrendered ▸ hp)

theorem Kept.attemptEnded (h : Kept s) (found : Bool) : Kept (s.attemptEnded found) := by
  unfold Finder.attemptEnded
  split
  · exact h
  next nextId length _ =>
    split
    · exact h.of_queue rfl rfl h.tracked fun p hp => hp
    · refine h.of_queue rfl rfl ⟨h.tracked.seen, h.tracked.once⟩ fun p hp => ?_
      rw [accounted_iff] at hp ⊢
      rcases hp with (hid | hother) | hremoved
      · exact .inl (.inl (isSome_get?_set _ hid))
      · exact .inl (.inr hother)
      · exact .inr hremoved

/-- **One event.** -/
theorem Kept.apply (h : Kept s) (e : Event) (hnoticed : Noticed s e) :
    Kept (apply maxPackets s e) := by
  cases e with
  | recordRawPacket packet => exact h.of_queue rfl rfl h.tracked fun p hp => hp
  | clearRawPackets => exact h.of_queue rfl rfl h.tracked fun p hp => hp
  | setRunning running => exact h.of_queue rfl rfl h.tracked fun p hp => hp
  | render =>
      simp only [ChannelFinder.apply]
      split
      next hlength =>
        refine ⟨h.tracked, h.accounted, ?_⟩
        exact hnoticed.resolve_left (not_not.mpr hlength)
      next hlength =>
        obtain ⟨htracked, -, hheld⟩ :=
          foldl_queuePacket_spec (undecrypted s.packets) h.tracked
        exact ⟨htracked, fun p hp => accounted_iff.mpr (.inl (hheld p hp)), fun p hp => hp⟩
  | processNext retryFailed maxLength =>
      simp only [ChannelFinder.apply]
      split
      · exact h
      · split
        · exact h
        next nextId item _ =>
          split
          · exact h.of_queue rfl rfl h.tracked fun p hp => hp
          · refine h.of_queue rfl rfl ⟨h.tracked.seen, h.tracked.once⟩ fun p hp => ?_
            rw [accounted_iff] at hp ⊢
            rcases hp with (hid | hother) | hremoved
            · by_cases hsame : p.id = nextId
              · exact .inr (hsame ▸ List.mem_cons_self)
              · refine .inl (.inl ?_)
                dsimp only
                rwa [OrderedMap.get?_pop_of_ne _ hsame]
            · exact .inl (.inr hother)
            · exact .inr (List.mem_cons_of_mem _ hremoved)
  | crackAnswered found =>
      simp only [ChannelFinder.apply]
      split
      · exact h.of_queue rfl rfl h.tracked fun p hp => hp
      · exact h.attemptEnded found
  | crackRaised => exact h.attemptEnded false

theorem kept_start : Kept {} where
  tracked := ⟨by simp, by simp⟩
  accounted := by simp
  rendered := by simp

end Runs

/-- **The finder sees every packet** as long as no render keeps the number of undecrypted group
texts with a new one among them: when the buffer has been rendered, each of them is in the queue,
was removed from it, or has the payload of a queued packet; and no payload was queued twice. -/
theorem finder_sees_every_packet {maxPackets : Nat} {s : Finder}
    (run : Machine (apply maxPackets) Noticed {} s)
    (hrendered : s.undecryptedGroupText = undecrypted s.packets) :
    (∀ p ∈ undecrypted s.packets, Accounted s p) ∧ (s.queue.queued.filterMap payloadOf).Nodup := by
  have h := run.invariant (fun _ e hnoticed hkept => hkept.apply e hnoticed) kept_start
  exact ⟨fun p hp => h.accounted p (h.rendered p (hrendered ▸ hp)), h.tracked.once⟩

/-- A group text with a payload of one byte. -/
def groupText (id : Nat) (data : Text) : Packet where
  id := id
  observationId := some id
  timestamp := 0
  data := data
  payloadType := "GROUP_TEXT".toList
  decrypted := false

/-- Three packets, two of them with one payload, arrive around an attempt that is stopped. -/
def renderedEvents : List Event :=
  [.recordRawPacket (groupText 1 "1500AA".toList), .render, .setRunning true, .processNext false 4,
    .recordRawPacket (groupText 2 "1500AA".toList), .setRunning false, .crackAnswered false,
    .recordRawPacket (groupText 3 "1500BB".toList), .render]

/-- Each of them is accounted for, one as a duplicate. -/
theorem finder_sees_every_packet_first :
    let s := renderedEvents.foldl (apply 500) {}
    (undecrypted s.packets).map (·.id) = [1, 2, 3] ∧ s.queue.skippedDuplicates = 1 ∧
      ∀ p ∈ undecrypted s.packets, Accounted s p := by
  have run : Machine (apply 500) Noticed {} (renderedEvents.foldl (apply 500) {}) :=
    Machine.foldl_of_allOk (by decide)
  exact ⟨by decide, by decide, (finder_sees_every_packet run (by decide)).1⟩

/-- At the cap of the buffer a new packet takes the place of an old one, and is never queued. -/
theorem packet_missed_at_cap :
    let s := [.recordRawPacket (groupText 1 "1500AA".toList),
      .recordRawPacket (groupText 2 "1500BB".toList), .render,
      .recordRawPacket (groupText 3 "1500CC".toList), .render].foldl (apply 2) {}
    s.undecryptedGroupText = undecrypted s.packets ∧
      groupText 3 "1500CC".toList ∈ undecrypted s.packets ∧
      ¬ Accounted s (groupText 3 "1500CC".toList) := by
  refine ⟨by decide, by decide, ?_⟩
  unfold Accounted
  decide

end ChannelFinder

end RemoteTerm
