import Mathlib
import RemoteTerm.Frontend.MessageIdentity

/-!
# The raw packet store

The packets that the browser observed last, and the statistics of the session.
Both drop a packet whose observation key they still hold. The buffer is cleared
when the connection comes back; the statistics survive.

## Implementation notes

What the packet decoder makes of a packet, or the fallback when it throws, is a
parameter. Fields of a packet that only the decoder or a view reads are left
out.
-/

namespace RemoteTerm

open Library

/-- `MAX_RAW_PACKETS`. -/
def maxRawPackets : Nat := 500

/-- `MAX_RAW_PACKET_STATS_OBSERVATIONS`. -/
def maxRawPacketStatsObservations : Nat := 20000

/-- A raw packet as the server broadcasts it. -/
structure RawPacket where
  id : Nat
  observationId : Option Nat
  timestamp : Int
  data : Text
  deriving DecidableEq

/-- `getRawPacketObservationKey`. -/
def getRawPacketObservationKey (packet : RawPacket) : Text :=
  match packet.observationId with
  | some observationId => ['o', 'b', 's', '-'] ++ decimal observationId
  | none => ['d', 'b', '-'] ++ decimal packet.id

/-- `slice(-count)`; `slice(-0)` is the whole list. -/
def sliceLast {α : Type} (xs : List α) (count : Nat) : List α :=
  if count = 0 then xs else xs.drop (xs.length - count)

theorem map_sliceLast {α β : Type} (f : α → β) (xs : List α) (count : Nat) :
    (sliceLast xs count).map f = sliceLast (xs.map f) count := by
  unfold sliceLast
  split
  · rfl
  · rw [List.map_drop, List.length_map]

/-- `appendRawPacketUnique`. -/
def appendRawPacketUnique (prev : List RawPacket) (packet : RawPacket) (maxPackets : Nat) :
    List RawPacket :=
  if getRawPacketObservationKey packet ∈ prev.map getRawPacketObservationKey then prev
  else
    let updated := prev ++ [packet]
    if maxPackets < updated.length then sliceLast updated maxPackets else updated

/-- `RawPacketStatsObservation`. -/
structure RawPacketStatsObservation (δ : Type) where
  observationKey : Text
  timestamp : Int
  details : δ
  deriving DecidableEq

/-- `RawPacketStatsSessionState`. -/
structure RawPacketStatsSession (δ : Type) where
  totalObservedPackets : Nat := 0
  trimmedObservationCount : Nat := 0
  observations : List (RawPacketStatsObservation δ) := []
  deriving DecidableEq

/-- The packets and the statistics. -/
structure RawPacketStore (δ : Type) where
  packets : List RawPacket := []
  statsSession : RawPacketStatsSession δ := {}
  deriving DecidableEq

section Store

variable {δ : Type} (decode : RawPacket → δ)

/-- `summarizeRawPacketForStats`. -/
def summarizeRawPacketForStats (packet : RawPacket) : RawPacketStatsObservation δ where
  observationKey := getRawPacketObservationKey packet
  timestamp := packet.timestamp
  details := decode packet

/-- `observePacket`. -/
def observePacket (session : RawPacketStatsSession δ) (packet : RawPacket) :
    RawPacketStatsSession δ :=
  let observation := summarizeRawPacketForStats decode packet
  if observation.observationKey ∈ session.observations.map fun o => o.observationKey then session
  else
    let observations := session.observations ++ [observation]
    if observations.length ≤ maxRawPacketStatsObservations then
      { session with totalObservedPackets := session.totalObservedPackets + 1, observations }
    else
      let overflow := observations.length - maxRawPacketStatsObservations
      { totalObservedPackets := session.totalObservedPackets + 1
        trimmedObservationCount := session.trimmedObservationCount + overflow
        observations := observations.drop overflow }

/-- `recordRawPacket`. -/
def recordRawPacket (store : RawPacketStore δ) (packet : RawPacket) : RawPacketStore δ where
  packets := appendRawPacketUnique store.packets packet maxRawPackets
  statsSession := observePacket decode store.statsSession packet

/-- `clearRawPackets`. -/
def clearRawPackets (store : RawPacketStore δ) : RawPacketStore δ := { store with packets := [] }

end Store

section Window

variable {α : Type}

/-- The last elements of a list stay the last ones of the list that one more is appended to. -/
theorem rtake_append_singleton (l : List α) (x : α) {n : Nat} (hn : 0 < n) :
    (l.rtake n ++ [x]).rtake n = (l ++ [x]).rtake n := by
  unfold List.rtake
  by_cases hlen : l.length < n
  · rw [show l.length - n = 0 by omega, List.drop_zero]
  · have hlength : (l.drop (l.length - n)).length = n := by
      rw [List.length_drop]
      omega
    rw [List.length_append, List.length_append, hlength, List.length_singleton,
      List.drop_append_of_le_length (by rw [hlength]; omega),
      List.drop_append_of_le_length (by omega), List.drop_drop]
    congr 2
    omega

theorem map_rtake {β : Type} (f : α → β) (l : List α) (n : Nat) :
    (l.rtake n).map f = (l.map f).rtake n := by
  rw [List.rtake, List.rtake, List.map_drop, List.length_map]

/-- Appending to the last elements and mapping commute. -/
theorem map_rtake_append_singleton {β : Type} (f : α → β) (l : List α) (x : α) {n : Nat}
    (hn : 0 < n) : ((l.rtake n).map f ++ [f x]).rtake n = ((l ++ [x]).rtake n).map f := by
  calc ((l.rtake n).map f ++ [f x]).rtake n
      = ((l.map f).rtake n ++ [f x]).rtake n := by rw [map_rtake]
    _ = (l.map f ++ [f x]).rtake n := rtake_append_singleton _ _ hn
    _ = ((l ++ [x]).rtake n).map f := by rw [map_rtake, List.map_append, List.map_singleton]

/-- The last elements of an end of a list are among its last elements. -/
theorem mem_rtake_of_suffix {l m : List α} (h : m <:+ l) {a b : Nat} (hab : a ≤ b) {x : α}
    (hx : x ∈ m.rtake a) : x ∈ l.rtake b := by
  have hm : m.rtake a <:+ l := (List.drop_suffix ..).trans h
  have hl : l.rtake b <:+ l := List.drop_suffix ..
  have hlength : (m.rtake a).length ≤ (l.rtake b).length := by
    have := h.length_le
    simp only [List.rtake, List.length_drop]
    omega
  exact (List.suffix_of_suffix_length_le hm hl hlength).subset hx

end Window

section Recorded

variable {δ : Type} {decode : RawPacket → δ} {packet : RawPacket}

/-- A key that the session does not hold is counted, and the newest observations stay. -/
theorem observePacket_of_new {session : RawPacketStatsSession δ}
    (h : getRawPacketObservationKey packet ∉ session.observations.map fun o => o.observationKey) :
    (observePacket decode session packet).totalObservedPackets = session.totalObservedPackets + 1 ∧
      (observePacket decode session packet).observations =
        (session.observations ++ [summarizeRawPacketForStats decode packet]).rtake
          maxRawPacketStatsObservations := by
  unfold observePacket
  dsimp only
  rw [if_neg (by exact h)]
  split
  next hfits =>
    refine ⟨rfl, ?_⟩
    rw [List.rtake, Nat.sub_eq_zero_of_le hfits, List.drop_zero]
  next =>
    refine ⟨rfl, ?_⟩
    rw [List.rtake]

theorem observePacket_of_known {session : RawPacketStatsSession δ}
    (h : getRawPacketObservationKey packet ∈ session.observations.map fun o => o.observationKey) :
    observePacket decode session packet = session :=
  if_pos h

theorem appendRawPacketUnique_of_new {prev : List RawPacket} {maxPackets : Nat}
    (hmax : 0 < maxPackets)
    (h : getRawPacketObservationKey packet ∉ prev.map getRawPacketObservationKey) :
    appendRawPacketUnique prev packet maxPackets = (prev ++ [packet]).rtake maxPackets := by
  unfold appendRawPacketUnique
  rw [if_neg h]
  dsimp only
  split
  next => rw [sliceLast, if_neg hmax.ne', List.rtake]
  next hfits => rw [List.rtake, Nat.sub_eq_zero_of_le (by omega), List.drop_zero]

/-- A packet is counted at most once. -/
theorem observePacket_total_le (session : RawPacketStatsSession δ) (packet : RawPacket) :
    (observePacket decode session packet).totalObservedPackets ≤
      session.totalObservedPackets + 1 := by
  by_cases h : getRawPacketObservationKey packet ∈
      session.observations.map fun o => o.observationKey
  · rw [observePacket_of_known h]
    omega
  · exact (observePacket_of_new h).1.le

/-- Every counted observation is stored or trimmed. -/
def RawPacketStatsSession.Balanced (session : RawPacketStatsSession δ) : Prop :=
  session.totalObservedPackets = session.observations.length + session.trimmedObservationCount

theorem RawPacketStatsSession.Balanced.observePacket {session : RawPacketStatsSession δ}
    (h : session.Balanced) (packet : RawPacket) :
    (RemoteTerm.observePacket decode session packet).Balanced := by
  unfold RawPacketStatsSession.Balanced RemoteTerm.observePacket at *
  dsimp only
  split
  next => exact h
  next =>
    split
    next =>
      simp only [List.length_append, List.length_singleton]
      omega
    next hlong =>
      simp only [List.length_drop]
      simp only [List.length_append, List.length_singleton] at *
      omega

theorem getRawPacketObservationKey_inj {p q : RawPacket} {m n : Nat}
    (hp : p.observationId = some m) (hq : q.observationId = some n)
    (h : getRawPacketObservationKey p = getRawPacketObservationKey q) : m = n := by
  simp only [getRawPacketObservationKey, hp, hq] at h
  exact decimal_inj (List.append_cancel_left h)

end Recorded

end RemoteTerm
