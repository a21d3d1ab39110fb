import Mathlib.Data.List.Basic
import RemoteTerm.Library.Machine

/-!
# The connection of the browser

`useWebSocket`: one socket, and a timer that opens the next one three seconds after the last
has closed. The browser opens and closes sockets and fires timers in any order.

## Implementation notes

Sockets and timers have numbers. A socket is live until its close event; one that was told to
close does not open any more. The reference to the timer is not reset when the timer fires, so
that it may name a timer that is gone. The handlers of the messages do not touch the connection
and are left out, and so is the ping.
-/

namespace RemoteTerm

open Library

namespace Frontend.WebSocketClient

/-- The references of the hook, what the browser holds for it, and what it has called. -/
structure Client where
  wsRef : Option Nat := none
  reconnectTimeoutRef : Option Nat := none
  shouldReconnect : Bool := true
  hasConnected : Bool := false
  live : List Nat := []
  mayOpen : List Nat := []
  pending : List Nat := []
  next : Nat := 0
  mounted : Bool := false
  opens : Nat := 0
  reconnects : Nat := 0

inductive Event where
  | mount
  | unmount
  | opened (socket : Nat)
  | closed (socket : Nat)
  | fired (timer : Nat)

namespace Client

/-- `connect`. -/
def connect (c : Client) : Client :=
  { c with
    wsRef := some c.next
    live := c.live ++ [c.next]
    mayOpen := c.mayOpen ++ [c.next]
    next := c.next + 1 }

/-- `clearTimeout` of the referenced timer. -/
def cleared (c : Client) : List Nat :=
  match c.reconnectTimeoutRef with
  | none => c.pending
  | some timer => c.pending.filter fun t => t ≠ timer

/-- `ws.onopen`. -/
def onOpen (c : Client) (socket : Nat) : Client :=
  { c with
    mayOpen := c.mayOpen.filter fun i => i ≠ socket
    pending := c.cleared
    reconnectTimeoutRef := none
    reconnects := if c.hasConnected then c.reconnects + 1 else c.reconnects
    hasConnected := true
    opens := c.opens + 1 }

/-- `ws.onclose`. -/
def onClose (c : Client) (socket : Nat) : Client :=
  let c := { c with
    live := c.live.filter fun i => i ≠ socket
    mayOpen := c.mayOpen.filter fun i => i ≠ socket
    wsRef := none }
  if !c.shouldReconnect then c
  else
    { c with
      pending := c.cleared ++ [c.next]
      reconnectTimeoutRef := some c.next
      next := c.next + 1 }

/-- The cleanup of the effect. -/
def cleanup (c : Client) : Client :=
  { c with
    shouldReconnect := false
    pending := c.cleared
    reconnectTimeoutRef := none
    mayOpen := c.mayOpen.filter fun i => c.wsRef ≠ some i
    mounted := false }

def apply (c : Client) : Event → Client
  | .mount => connect { c with shouldReconnect := true, mounted := true }
  | .unmount => c.cleanup
  | .opened socket => c.onOpen socket
  | .closed socket => c.onClose socket
  | .fired timer => connect { c with pending := c.pending.filter fun t => t ≠ timer }

/-- What the browser does. The hook is mounted again after its last socket has closed. -/
def Allowed (c : Client) : Event → Prop
  | .mount => c.mounted = false ∧ c.live = []
  | .unmount => c.mounted = true
  | .opened socket => socket ∈ c.live ∧ socket ∈ c.mayOpen
  | .closed socket => socket ∈ c.live
  | .fired timer => timer ∈ c.pending

instance (c : Client) : (e : Event) → Decidable (c.Allowed e)
  | .mount => inferInstanceAs (Decidable (c.mounted = false ∧ c.live = []))
  | .unmount => inferInstanceAs (Decidable (c.mounted = true))
  | .opened socket => inferInstanceAs (Decidable (socket ∈ c.live ∧ socket ∈ c.mayOpen))
  | .closed socket => inferInstanceAs (Decidable (socket ∈ c.live))
  | .fired timer => inferInstanceAs (Decidable (timer ∈ c.pending))

/-- The connection is open or on its way. -/
def Connected (c : Client) : Prop :=
  ∃ i, c.live = [i] ∧ c.wsRef = some i ∧ c.pending = []

/-- The next connection is due. -/
def Due (c : Client) : Prop :=
  c.live = [] ∧ ∃ t, c.pending = [t] ∧ c.reconnectTimeoutRef = some t

structure Inv (c : Client) : Prop where
  up : c.mounted = true → c.shouldReconnect = true ∧ (c.Connected ∨ c.Due)
  down : c.mounted = false → c.pending = [] ∧
    (c.live = [] ∨ c.shouldReconnect = false ∧ ∃ i, c.live = [i] ∧ i ∉ c.mayOpen)
  counted : c.reconnects = c.opens - 1
  connected : c.hasConnected = decide (0 < c.opens)

end Client

/-- A run of the hook. -/
def Run (s t : Client) : Prop := Machine Client.apply Client.Allowed s t

namespace Client

variable {c : Client}

theorem cleared_of_nil (h : c.pending = []) : c.cleared = [] := by
  unfold cleared
  split <;> simp [h]

theorem cleared_of_due (h : c.Due) : c.cleared = [] := by
  obtain ⟨-, t, hpending, href⟩ := h
  simp [cleared, href, hpending]

namespace Inv

theorem mount (h : Inv c) (hok : c.Allowed .mount) : Inv (c.apply .mount) := by
  obtain ⟨hdown, hlive⟩ := hok
  have hpending := (h.down hdown).1
  refine ⟨fun _ => ⟨rfl, .inl ⟨c.next, ?_, rfl, hpending⟩⟩, fun hno => (by cases hno), h.counted,
    h.connected⟩
  change c.live ++ [c.next] = [c.next]
  rw [hlive]
  rfl

theorem unmount (h : Inv c) (hok : c.Allowed .unmount) : Inv (c.apply .unmount) := by
  obtain ⟨-, hup⟩ := h.up hok
  refine ⟨fun hno => (by cases hno), fun _ => ?_, h.counted, h.connected⟩
  rcases hup with ⟨i, hlive, hws, hpending⟩ | hdue
  · refine ⟨cleared_of_nil hpending, .inr ⟨rfl, i, hlive, fun hmem => ?_⟩⟩
    have hne := (List.mem_filter.mp hmem).2
    simp [hws] at hne
  · exact ⟨cleared_of_due hdue, .inl hdue.1⟩

theorem opened (h : Inv c) {socket : Nat} (hok : c.Allowed (.opened socket)) :
    Inv (c.apply (.opened socket)) := by
  obtain ⟨hlive, hmay⟩ := hok
  have hcount : (c.onOpen socket).reconnects = (c.onOpen socket).opens - 1 := by
    change (if c.hasConnected then c.reconnects + 1 else c.reconnects) = c.opens + 1 - 1
    have hcounted := h.counted
    have hconnected := h.connected
    by_cases hpos : 0 < c.opens
    · rw [decide_eq_true hpos] at hconnected
      rw [if_pos hconnected]
      omega
    · rw [decide_eq_false hpos] at hconnected
      rw [hconnected, if_neg Bool.false_ne_true]
      omega
  have hhas : (c.onOpen socket).hasConnected = decide (0 < (c.onOpen socket).opens) :=
    (decide_eq_true (Nat.succ_pos _)).symm
  refine ⟨fun hup => ?_, fun hdown => ?_, hcount, hhas⟩
  · obtain ⟨hshould, hconnected | hdue⟩ := h.up hup
    · obtain ⟨i, hi, hws, hpending⟩ := hconnected
      exact ⟨hshould, .inl ⟨i, hi, hws, cleared_of_nil hpending⟩⟩
    · rw [hdue.1] at hlive
      cases hlive
  · rcases (h.down hdown).2 with hnil | ⟨-, i, hi, hno⟩
    · rw [hnil] at hlive
      cases hlive
    · rw [hi, List.mem_singleton] at hlive
      exact absurd (hlive ▸ hmay) hno

theorem closed (h : Inv c) {socket : Nat} (hok : c.Allowed (.closed socket)) :
    Inv (c.apply (.closed socket)) := by
  have hmem : socket ∈ c.live := hok
  have hgone {i : Nat} (hi : c.live = [i]) : c.live.filter (fun j => j ≠ socket) = [] := by
    rw [hi, List.mem_singleton] at hmem
    simp [hi, hmem]
  by_cases hshould : c.shouldReconnect = true
  · have hclose : c.apply (.closed socket) =
        { c with
          live := c.live.filter fun i => i ≠ socket
          mayOpen := c.mayOpen.filter fun i => i ≠ socket
          wsRef := none
          pending := c.cleared ++ [c.next]
          reconnectTimeoutRef := some c.next
          next := c.next + 1 } := by
      simp only [apply, onClose, hshould]
      rfl
    rw [hclose]
    refine ⟨fun hup => ⟨hshould, .inr ?_⟩, fun hdown => ?_, h.counted, h.connected⟩
    · obtain ⟨-, ⟨i, hi, -, hpending⟩ | hdue⟩ := h.up hup
      · refine ⟨hgone hi, c.next, ?_, rfl⟩
        change c.cleared ++ [c.next] = [c.next]
        rw [cleared_of_nil hpending]
        rfl
      · rw [hdue.1] at hmem
        cases hmem
    · rcases (h.down hdown).2 with hnil | ⟨hno, -⟩
      · rw [hnil] at hmem
        cases hmem
      · rw [hno] at hshould
        cases hshould
  · rw [Bool.not_eq_true] at hshould
    have hclose : c.apply (.closed socket) =
        { c with
          live := c.live.filter fun i => i ≠ socket
          mayOpen := c.mayOpen.filter fun i => i ≠ socket
          wsRef := none } := by
      simp only [apply, onClose, hshould]
      rfl
    rw [hclose]
    refine ⟨fun hup => ?_, fun hdown => ⟨(h.down hdown).1, .inl ?_⟩, h.counted, h.connected⟩
    · have hyes := (h.up hup).1
      rw [hyes] at hshould
      cases hshould
    · rcases (h.down hdown).2 with hnil | ⟨-, i, hi, -⟩
      · rw [hnil] at hmem
        cases hmem
      · exact hgone hi

theorem fired (h : Inv c) {timer : Nat} (hok : c.Allowed (.fired timer)) :
    Inv (c.apply (.fired timer)) := by
  have hmem : timer ∈ c.pending := hok
  refine ⟨fun hup => ?_, fun hdown => ?_, h.counted, h.connected⟩
  · obtain ⟨hshould, ⟨i, -, -, hpending⟩ | ⟨hlive, t, hpending, -⟩⟩ := h.up hup
    · rw [hpending] at hmem
      cases hmem
    · refine ⟨hshould, .inl ⟨c.next, ?_, rfl, ?_⟩⟩
      · change c.live ++ [c.next] = [c.next]
        rw [hlive]
        rfl
      · change c.pending.filter (fun t => t ≠ timer) = []
        rw [hpending, List.mem_singleton] at hmem
        simp [hpending, hmem]
  · rw [(h.down hdown).1] at hmem
    cases hmem

theorem apply (h : Inv c) (e : Event) (hok : c.Allowed e) : Inv (c.apply e) := by
  cases e with
  | mount => exact h.mount hok
  | unmount => exact h.unmount hok
  | opened socket => exact h.opened hok
  | closed socket => exact h.closed hok
  | fired timer => exact h.fired hok

end Inv

end Client

/-- **There is one connection or one attempt to come.** In every run, while the hook is mounted
there is exactly one live socket or else one timer for the next; after it is unmounted no timer
is left and at most its last socket, which opens no more; and `onReconnect` was called for
every open event but the first. -/
theorem one_connection {c : Client} (run : Run {} c) :
    (c.mounted = true → c.live.length + c.pending.length = 1) ∧
      (c.mounted = false → c.pending = [] ∧ c.live.length ≤ 1 ∧
        ∀ i ∈ c.live, i ∉ c.mayOpen) ∧
      c.reconnects = c.opens - 1 := by
  have h : Client.Inv c := run.invariant (fun _ e hok h => h.apply e hok)
    ⟨fun hno => (by cases hno), fun _ => ⟨rfl, .inl rfl⟩, rfl, rfl⟩
  refine ⟨fun hup => ?_, fun hdown => ?_, h.counted⟩
  · obtain ⟨-, ⟨i, hlive, -, hpending⟩ | ⟨hlive, t, hpending, -⟩⟩ := h.up hup
    · simp [hlive, hpending]
    · simp [hlive, hpending]
  · obtain ⟨hpending, hnil | ⟨-, i, hlive, hno⟩⟩ := h.down hdown
    · simp [hpending, hnil]
    · refine ⟨hpending, by simp [hlive], fun j hj => ?_⟩
      rw [hlive, List.mem_singleton] at hj
      exact hj ▸ hno

/-- A connection that is lost and made again. -/
theorem one_connection_again :
    ∃ c : Client, c.opens = 2 ∧ c.live = [2] ∧ c.pending = [] ∧ c.reconnects = 1 := by
  have run : Machine Client.apply Client.Allowed {} (((((({} : Client).apply .mount).apply
      (.opened 0)).apply (.closed 0)).apply (.fired 1)).apply (.opened 2)) :=
    ((((Machine.single Event.mount ⟨rfl, rfl⟩).tail (Event.opened 0) (by decide)).tail
      (Event.closed 0) (by decide)).tail (Event.fired 1) (by decide)).tail (Event.opened 2)
        (by decide)
  exact ⟨_, rfl, rfl, rfl, (one_connection run).2.2⟩

end Frontend.WebSocketClient

end RemoteTerm
