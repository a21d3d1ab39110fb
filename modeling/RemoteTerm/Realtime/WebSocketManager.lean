import Mathlib
import RemoteTerm.Library.Machine

/-!
# The list of WebSocket connections

The manager lists the connections that it broadcasts to. An endpoint enters its
socket once it is accepted, answers pings in a loop, and takes the socket out when
the loop ends; a broadcast takes out the sockets that it could not send to, which
does not end their endpoints.

## Implementation notes

The lock is never held over an `await`, so each of its sections is one step. A
socket belongs to one endpoint. Sending the initial state and answering a ping
change nothing here.
-/

namespace RemoteTerm

open Library

/-- Where an endpoint is. -/
inductive EndpointPhase where
  | connecting
  | greeting
  | looping
  | leaving
  | ended
  deriving DecidableEq

/-- A broadcast that was started: the sends that are under way, and the sockets that it could not
send to. -/
structure Broadcast where
  pending : List Nat
  disconnected : List Nat := []

/-- How a send ends. -/
inductive BroadcastSend where
  | sent
  | raised
  | timedOut
  deriving DecidableEq

/-- `WebSocketManager`, the endpoints and the broadcasts. -/
structure WebSocketManager where
  activeConnections : List Nat := []
  phase : Nat → Option EndpointPhase := fun _ => none
  closed : Nat → Bool := fun _ => false
  broadcasts : List Broadcast := []

/-- What one of the coroutines does next, or a client. -/
inductive WebSocketAction where
  | connect (ws : Nat)
  | accept (ws : Nat)
  | refuse (ws : Nat)
  | greet (ws : Nat)
  | ping (ws : Nat)
  | close (ws : Nat)
  | receiveFails (ws : Nat)
  | disconnect (ws : Nat)
  | broadcast
  | send (i : Nat) (ws : Nat) (result : BroadcastSend)
  | cleanUp (i : Nat)

namespace WebSocketManager

variable (s : WebSocketManager)

/-- The endpoint of a socket goes to another phase. -/
def setPhase (ws : Nat) (phase : EndpointPhase) : WebSocketManager :=
  { s with phase := Function.update s.phase ws (some phase) }

/-- `websocket_endpoint`, `connect`, `disconnect` and `broadcast`, step by step. An action that is
not the next one of its coroutine changes nothing. -/
def apply : WebSocketAction → WebSocketManager
  | .connect ws => if s.phase ws = none then s.setPhase ws .connecting else s
  | .accept ws =>
      if s.phase ws = some .connecting then
        { s.setPhase ws .greeting with activeConnections := s.activeConnections ++ [ws] }
      else s
  | .refuse ws => if s.phase ws = some .connecting then s.setPhase ws .ended else s
  | .greet ws => if s.phase ws = some .greeting then s.setPhase ws .looping else s
  | .ping _ => s
  | .close ws => { s with closed := Function.update s.closed ws true }
  | .receiveFails ws => if s.phase ws = some .looping then s.setPhase ws .leaving else s
  | .disconnect ws =>
      if s.phase ws = some .leaving then
        { s.setPhase ws .ended with activeConnections := s.activeConnections.erase ws }
      else s
  | .broadcast =>
      if s.activeConnections = [] then s
      else { s with broadcasts := s.broadcasts ++ [{ pending := s.activeConnections }] }
  | .send i ws result =>
      match s.broadcasts[i]? with
      | none => s
      | some b =>
          if ws ∈ b.pending then
            { s with
              broadcasts := s.broadcasts.set i
                { pending := b.pending.erase ws
                  disconnected :=
                    if result = .sent then b.disconnected else b.disconnected ++ [ws] } }
          else s
  | .cleanUp i =>
      match s.broadcasts[i]? with
      | none => s
      | some b =>
          if b.pending = [] then
            { s with
              activeConnections := s.activeConnections.diff b.disconnected
              broadcasts := s.broadcasts.eraseIdx i }
          else s

/-- The endpoint answers its client, or will. -/
def Running (ws : Nat) : Prop := s.phase ws = some .greeting ∨ s.phase ws = some .looping

/-- The endpoint has left its loop. -/
def HasEnded (ws : Nat) : Prop := s.phase ws = some .leaving ∨ s.phase ws = some .ended

/-- What the clients rely on. -/
structure Reachable : Prop where
  listed : ∀ ws, s.phase ws = some .looping → s.activeConnections.count ws = 1
  attempted : ∀ ws, s.phase ws = some .looping →
    ∃ b, (s.apply .broadcast).broadcasts = s.broadcasts ++ [b] ∧ ws ∈ b.pending
  dropped : ∀ ws, s.Running ws ∨ s.HasEnded ws → ws ∉ s.activeConnections →
    s.closed ws = true ∨ s.HasEnded ws

/-- A clean-up takes out only sockets whose endpoints have ended. -/
def DropsEnded : WebSocketAction → Prop
  | .cleanUp i => ∀ b, s.broadcasts[i]? = some b → b.pending = [] →
      ∀ ws ∈ b.disconnected, ¬ s.Running ws
  | _ => True

instance (ws : Nat) : Decidable (s.Running ws) :=
  inferInstanceAs (Decidable (_ ∨ _))

instance (s : WebSocketManager) : ∀ e, Decidable (s.DropsEnded e)
  | .cleanUp i => inferInstanceAs (Decidable (∀ b ∈ s.broadcasts[i]?, b.pending = [] →
      ∀ ws ∈ b.disconnected, ¬ s.Running ws))
  | .connect _ | .accept _ | .refuse _ | .greet _ | .ping _ | .close _ | .receiveFails _
  | .disconnect _ | .broadcast | .send .. => .isTrue trivial

/-- What holds of the list in every run. -/
structure Listed : Prop where
  nodup : s.activeConnections.Nodup
  entered : ∀ ws ∈ s.activeConnections, s.Running ws ∨ s.phase ws = some .leaving

/-- Every socket whose endpoint runs is in the list. -/
def Complete : Prop := ∀ ws, s.Running ws → ws ∈ s.activeConnections

end WebSocketManager

namespace WebSocketManager

variable {s : WebSocketManager}

/-- An endpoint that moves on within its run stays listed. -/
theorem Listed.setPhase (h : s.Listed) {ws : Nat} {phase : EndpointPhase}
    (hphase : ws ∈ s.activeConnections → phase = .looping ∨ phase = .leaving) :
    (s.setPhase ws phase).Listed := by
  refine ⟨h.nodup, fun other hother => ?_⟩
  unfold Running WebSocketManager.setPhase
  dsimp only
  by_cases heq : other = ws
  · subst heq
    rw [Function.update_self]
    rcases hphase hother with rfl | rfl
    · exact Or.inl (Or.inr rfl)
    · exact Or.inr rfl
  · rw [Function.update_of_ne heq]
    exact h.entered other hother

/-- The list is in order before any client connects. -/
theorem listed_start : Listed {} := ⟨List.nodup_nil, fun _ h => absurd h List.not_mem_nil⟩

/-- An endpoint that has not joined is not listed. -/
theorem Listed.notMem (h : s.Listed) {ws : Nat}
    (hphase : s.phase ws = none ∨ s.phase ws = some .connecting) : ws ∉ s.activeConnections := by
  intro hmem
  rcases h.entered ws hmem with (hrun | hrun) | hrun <;> rcases hphase with hp | hp <;>
    rw [hp] at hrun <;> cases hrun

/-- Every action keeps the list in order. -/
theorem Listed.apply (h : s.Listed) (e : WebSocketAction) : (s.apply e).Listed := by
  cases e with
  | connect ws =>
      rw [WebSocketManager.apply]
      split_ifs with hp
      · exact h.setPhase fun hmem => absurd hmem (h.notMem (Or.inl hp))
      · exact h
  | accept ws =>
      rw [WebSocketManager.apply]
      split_ifs with hp
      · have hnew := h.notMem (Or.inr hp)
        refine ⟨List.nodup_append.mpr ⟨h.nodup, List.nodup_singleton ws, ?_⟩, ?_⟩
        · intro a ha b hb heq
          rw [List.mem_singleton.mp hb] at heq
          exact hnew (heq ▸ ha)
        · intro other hother
          unfold Running WebSocketManager.setPhase
          dsimp only
          rcases List.mem_append.mp hother with hother | hother
          · rw [Function.update_of_ne fun heq : other = ws => hnew (heq ▸ hother)]
            exact h.entered other hother
          · rw [List.mem_singleton.mp hother, Function.update_self]
            exact Or.inl (Or.inl rfl)
      · exact h
  | refuse ws =>
      rw [WebSocketManager.apply]
      split_ifs with hp
      · exact h.setPhase fun hmem => absurd hmem (h.notMem (Or.inr hp))
      · exact h
  | greet ws =>
      rw [WebSocketManager.apply]
      split_ifs with hp
      · exact h.setPhase fun _ => Or.inl rfl
      · exact h
  | ping ws => exact h
  | close ws => exact ⟨h.nodup, h.entered⟩
  | receiveFails ws =>
      rw [WebSocketManager.apply]
      split_ifs with hp
      · exact h.setPhase fun _ => Or.inr rfl
      · exact h
  | disconnect ws =>
      rw [WebSocketManager.apply]
      split_ifs with hp
      · refine ⟨h.nodup.erase ws, fun other hother => ?_⟩
        obtain ⟨hne, hmem⟩ := (List.Nodup.mem_erase_iff h.nodup).mp hother
        unfold Running WebSocketManager.setPhase
        dsimp only
        rw [Function.update_of_ne hne]
        exact h.entered other hmem
      · exact h
  | broadcast =>
      rw [WebSocketManager.apply]
      split_ifs
      · exact h
      · exact ⟨h.nodup, h.entered⟩
  | send i ws result =>
      rw [WebSocketManager.apply]
      split
      next => exact h
      next =>
        split
        next => exact ⟨h.nodup, h.entered⟩
        next => exact h
  | cleanUp i =>
      rw [WebSocketManager.apply]
      split
      next => exact h
      next b _ =>
        split_ifs
        · refine ⟨h.nodup.diff, fun ws hws => h.entered ws ?_⟩
          exact (h.nodup.mem_sdiff_iff.mp hws).1
        · exact h

/-- An endpoint that moves on is listed if it was. -/
theorem Complete.setPhase (h : s.Complete) {ws : Nat} {phase : EndpointPhase}
    (hphase : phase = .greeting ∨ phase = .looping → ws ∈ s.activeConnections) :
    (s.setPhase ws phase).Complete := by
  intro other hother
  unfold Running WebSocketManager.setPhase at hother
  dsimp only at hother
  by_cases heq : other = ws
  · subst heq
    rw [Function.update_self, Option.some.injEq, Option.some.injEq] at hother
    exact hphase hother
  · rw [Function.update_of_ne heq] at hother
    exact h other hother

/-- An endpoint that does not run need not be listed. -/
theorem Complete.setPhase_outside (h : s.Complete) {ws : Nat} {phase : EndpointPhase}
    (hgreeting : phase ≠ .greeting) (hlooping : phase ≠ .looping) :
    (s.setPhase ws phase).Complete :=
  h.setPhase fun hphase => hphase.elim (absurd · hgreeting) (absurd · hlooping)

/-- Every action keeps the list complete, when a clean-up takes out only sockets whose endpoints
have ended. -/
theorem Complete.apply (h : s.Complete) (hlisted : s.Listed) (e : WebSocketAction)
    (hdrops : s.DropsEnded e) : (s.apply e).Complete := by
  cases e with
  | connect ws =>
      rw [WebSocketManager.apply]
      split_ifs
      · exact h.setPhase_outside (by decide) (by decide)
      · exact h
  | accept ws =>
      rw [WebSocketManager.apply]
      split_ifs
      · intro other hother
        unfold Running WebSocketManager.setPhase at hother
        dsimp only at hother ⊢
        by_cases heq : other = ws
        · exact List.mem_append_right _ (List.mem_singleton.mpr heq)
        · rw [Function.update_of_ne heq] at hother
          exact List.mem_append_left _ (h other hother)
      · exact h
  | refuse ws =>
      rw [WebSocketManager.apply]
      split_ifs
      · exact h.setPhase_outside (by decide) (by decide)
      · exact h
  | greet ws =>
      rw [WebSocketManager.apply]
      split_ifs with hp
      · exact h.setPhase fun _ => h ws (Or.inl hp)
      · exact h
  | ping ws => exact h
  | close ws => exact h
  | receiveFails ws =>
      rw [WebSocketManager.apply]
      split_ifs
      · exact h.setPhase_outside (by decide) (by decide)
      · exact h
  | disconnect ws =>
      rw [WebSocketManager.apply]
      split_ifs
      · intro other hother
        unfold Running WebSocketManager.setPhase at hother
        dsimp only at hother ⊢
        by_cases heq : other = ws
        · subst heq
          rw [Function.update_self] at hother
          rcases hother with hp | hp <;> cases hp
        · rw [Function.update_of_ne heq] at hother
          exact (List.mem_erase_of_ne heq).mpr (h other hother)
      · exact h
  | broadcast =>
      rw [WebSocketManager.apply]
      split_ifs <;> exact h
  | send i ws result =>
      rw [WebSocketManager.apply]
      split
      next => exact h
      next => split <;> exact h
  | cleanUp i =>
      rw [WebSocketManager.apply]
      split
      next => exact h
      next b hb =>
        split_ifs with hdone
        · intro ws hws
          have hkept : ws ∉ b.disconnected := fun hmem => hdrops b hb hdone ws hmem hws
          exact hlisted.nodup.mem_sdiff_iff.mpr ⟨h ws hws, hkept⟩
        · exact h

/-- A complete list is what the clients rely on. -/
theorem Complete.reachable (h : s.Complete) (hlisted : s.Listed) : s.Reachable := by
  refine ⟨fun ws hws => ?_, fun ws hws => ?_, fun ws hws hout => ?_⟩
  · exact List.count_eq_one_of_mem hlisted.nodup (h ws (Or.inr hws))
  · have hmem := h ws (Or.inr hws)
    refine ⟨{ pending := s.activeConnections }, ?_, hmem⟩
    rw [WebSocketManager.apply, if_neg (List.ne_nil_of_mem hmem)]
  · exact Or.inr (hws.resolve_left fun hrun => hout (h ws hrun))

/-- A run of the coroutines under a condition on their steps. -/
abbrev Run (ok : WebSocketManager → WebSocketAction → Prop) :
    WebSocketManager → WebSocketManager → Prop :=
  Machine WebSocketManager.apply ok

/-- The list is in order in every run. -/
theorem Run.listed {ok : WebSocketManager → WebSocketAction → Prop} {t : WebSocketManager}
    (run : Run ok {} t) : t.Listed :=
  run.invariant (fun _ e _ h => h.apply e) listed_start

end WebSocketManager

/-- **No client is cut off** in a run whose clean-ups take out only sockets whose endpoints have
ended. A clean-up that takes out another leaves an endpoint that runs without being listed. -/
theorem clients_stay_listed (s : WebSocketManager) :
    (WebSocketManager.Run WebSocketManager.DropsEnded {} s → s.Reachable) ∧
    (WebSocketManager.Run (fun _ _ => True) {} s → ∀ e, ¬ s.DropsEnded e →
      ∃ ws, (s.apply e).Running ws ∧ ws ∉ (s.apply e).activeConnections) := by
  constructor
  · intro run
    have hcomplete : s.Listed ∧ s.Complete := by
      refine run.invariant (P := fun s => s.Listed ∧ s.Complete) ?_ ?_
      · rintro s e hok ⟨hlisted, hcomplete⟩
        exact ⟨hlisted.apply e, hcomplete.apply hlisted e hok⟩
      · refine ⟨WebSocketManager.listed_start, fun ws hws => ?_⟩
        rcases hws with hws | hws <;> cases hws
    exact hcomplete.2.reachable hcomplete.1
  · intro run e hdrops
    cases e with
    | cleanUp i =>
        unfold WebSocketManager.DropsEnded at hdrops
        push Not at hdrops
        obtain ⟨b, hb, hdone, ws, hws, hrunning⟩ := hdrops
        have hcleaned : s.apply (.cleanUp i) =
            { s with
              activeConnections := s.activeConnections.diff b.disconnected
              broadcasts := s.broadcasts.eraseIdx i } := by
          rw [WebSocketManager.apply, hb]
          exact if_pos hdone
        rw [hcleaned]
        exact ⟨ws, hrunning, fun hmem => (run.listed.nodup.mem_sdiff_iff.mp hmem).2 hws⟩
    | _ => exact absurd trivial hdrops

section Runs

/-- Two clients connect, and one leaves while a broadcast is under way that then cannot reach it. -/
def partedClients : WebSocketManager :=
  [WebSocketAction.connect 0, .accept 0, .greet 0, .connect 1, .accept 1, .greet 1, .broadcast,
    .send 0 0 .sent, .close 1, .receiveFails 1, .send 0 1 .raised, .cleanUp 0,
    .disconnect 1].foldl WebSocketManager.apply {}

theorem clients_stay_listed_connected :
    partedClients.Reachable ∧ partedClients.phase 0 = some .looping ∧
      partedClients.activeConnections = [0] :=
  ⟨(clients_stay_listed partedClients).1 (Machine.foldl_of_allOk (by decide)), by decide,
    by decide⟩

/-- A send to a slow client times out: the client is taken out of the list, while its endpoint
answers its pings. -/
theorem slow_client_cut_off :
    ∃ t, WebSocketManager.Run (fun _ _ => True) {} t ∧ t.phase 0 = some .looping ∧
      t.closed 0 = false ∧ t.activeConnections = [] :=
  ⟨_, Machine.foldl WebSocketManager.apply {}
    [.connect 0, .accept 0, .greet 0, .broadcast, .send 0 0 .timedOut, .cleanUp 0, .ping 0],
    by decide, by decide, by decide⟩

end Runs

end RemoteTerm
