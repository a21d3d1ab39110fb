import RemoteTerm.Send.Timestamps

/-!
# Sends follow the protocol of their timestamps

Channel sends and direct sends, with every way they can fail, follow the protocol
of `Send.Timestamps`. So in every run of any number of them no two hold or store
one timestamp for one content.
-/

namespace RemoteTerm

open Library Library.Protocol

/-- A part of a task ends in one phase, whatever it returns. -/
abbrev EndsIn {α : Type} (l : SendPhase) : α → SendPhase → Prop := fun _ l' => l' = l

section Parts

variable {l : SendPhase} {α : Type}

/-- Calls that touch no stamp are allowed everywhere and leave the phase alone. -/
theorem follows_of_touchesNoStamp {p : Task α} (hp : p.Calls fun op => op.touchesNoStamp = true) :
    appProtocol.Follows (EndsIn l) p l := by
  refine follows_of_calls (fun op hop => ?_) hp
  cases op <;> simp only [Op.touchesNoStamp, reduceCtorEq] at hop <;> exact ⟨trivial, fun _ => rfl⟩

/-- A search for a timestamp ends with the stamp held, or with nothing. -/
theorem allocateOutgoingSenderTimestamp_follows (key : ReservationKey) (rounds : Nat)
    {candidate : Int} (hpositive : 0 < candidate) :
    appProtocol.Follows
      (fun allocated l => l = ⟨true, allocated.elim .none fun t => .held (key, t)⟩)
      (allocateOutgoingSenderTimestamp key rounds candidate) ⟨true, .none⟩ := by
  induction rounds generalizing candidate with
  | zero => rfl
  | succ rounds ih =>
      have hlater : 0 < candidate + 1 := by omega
      have hnext := ih hlater
      refine follows_await_bind.mpr ⟨⟨rfl, rfl, hpositive⟩, fun isReserved => ?_⟩
      cases isReserved with
      | true => exact hnext
      | false =>
          refine follows_await_bind.mpr ⟨⟨rfl, rfl⟩, fun existing => ?_⟩
          cases existing with
          | some row => exact hnext
          | none =>
              refine follows_await_bind.mpr ⟨⟨rfl, rfl⟩, fun reserved => ?_⟩
              cases reserved with
              | true => rfl
              | false => exact hnext

/-- A part of the process is a part of a send. -/
theorem follows_inApp {Q : α → SendPhase → Prop} {p : Task α}
    (h : appProtocol.Follows Q p l) : sendProtocol.Follows Q (inApp p) l := by
  induction p generalizing l with
  | pure a => exact h
  | call op next ih => exact ⟨h.1, fun x => ih x (h.2 x)⟩

/-- What happens on the radio is no matter of the protocol. -/
theorem follows_onAir (p : ScopedTask α) : sendProtocol.Follows (EndsIn l) (onAir p) l := by
  induction p with
  | pure a => rfl
  | call op next ih => exact ⟨trivial, fun x => ih x⟩

end Parts

section Direct

variable {d : DirectSend} {rounds : Nat}

/-- The work of a direct send whose radio operation has ended. -/
def Transmission.work (d : DirectSend) : Transmission → StampWork
  | .sent timestamp _ => .held (d.reservationKey, timestamp)
  | _ => .none

theorem transmitToContact_follows (hclock : 0 < d.sentAt) :
    appProtocol.Follows (fun t l => l = ⟨true, Transmission.work d t⟩)
      (transmitToContact d rounds) ⟨true, .none⟩ := by
  refine follows_await_bind.mpr ⟨trivial, fun added => ?_⟩
  cases added
  case raised | noResponse => exact rfl
  all_goals
    refine Follows.bind ((allocateOutgoingSenderTimestamp_follows _ rounds hclock).mono ?_)
    rintro (_ | timestamp) _ rfl
    · rfl
    · refine Follows.bind ((follows_of_touchesNoStamp
        (temporaryFloodScope_calls (fun _ => rfl) rfl fun _ => rfl)).mono ?_)
      rintro result _ rfl
      rfl

theorem transmitDirectMessage_follows (hclock : 0 < d.sentAt) :
    appProtocol.Follows (fun t l => l = ⟨false, Transmission.work d t⟩)
      (transmitDirectMessage d rounds) {} := by
  refine follows_await_bind.mpr ⟨⟨rfl, rfl⟩, fun grant => ?_⟩
  cases grant with
  | granted =>
      refine Follows.bind ((transmitToContact_follows hclock).mono ?_)
      rintro transmission _ rfl
      refine follows_await_bind.mpr ⟨⟨rfl, ?_⟩, fun _ => rfl⟩
      cases transmission <;> rfl
  | busy => rfl
  | disconnected => rfl

theorem sendDirectMessageToContact_follows (hclock : 0 < d.sentAt) :
    appProtocol.Follows (EndsIn {}) (sendDirectMessageToContact d rounds) {} := by
  refine Follows.bind ((transmitDirectMessage_follows hclock).mono ?_)
  rintro transmission _ rfl
  cases transmission with
  | raised => rfl
  | allocating => rfl
  | sent timestamp result =>
      have hstored : appProtocol.Follows
          (fun _ l => l.locked = false ∧ l.work.holds = some (d.reservationKey, timestamp))
          (storeTransmitted d timestamp result) ⟨false, .held (d.reservationKey, timestamp)⟩ := by
        unfold storeTransmitted
        split
        · refine ⟨⟨timestamp, rfl, rfl, rfl⟩, fun created => ?_⟩
          cases created <;> exact ⟨rfl, rfl⟩
        · exact ⟨rfl, rfl⟩
      refine Follows.bind (hstored.mono ?_)
      rintro message l ⟨hlocked, hholds⟩
      refine follows_await_bind.mpr ⟨hholds, fun _ => ?_⟩
      have hidle : appProtocol.after l (.releaseReservation d.reservationKey timestamp) () =
          ({} : SendPhase) := by
        change ({ l with work := .none } : SendPhase) = _
        rw [hlocked]
      rw [hidle]
      cases message with
      | none => rfl
      | some messageId =>
          refine follows_await_bind.mpr ⟨trivial, fun _ => ?_⟩
          refine Follows.bind ((follows_of_touchesNoStamp
            (applyDirectMessageAckTracking_calls (fun _ _ => rfl) rfl)).mono ?_)
          rintro ackCount _ rfl
          rfl

end Direct

section Channel

variable {m : ManagerView} {c : ChannelSend} {rounds : Nat}

/-- The work of a send whose radio operation has ended. -/
def ChannelTransmission.work (c : ChannelSend) (t : ChannelTransmission) : StampWork :=
  match t.senderTimestamp, t.messageId with
  | some timestamp, some id => .stored (c.reservationKey, timestamp) id
  | some timestamp, none => .held (c.reservationKey, timestamp)
  | none, _ => .none

theorem storeAndTransmit_follows (timestamp : Int) :
    sendProtocol.Follows (fun t l => l = ⟨true, t.work c⟩ ∧ t.senderTimestamp = some timestamp)
      (storeAndTransmit m c timestamp) ⟨true, .held (c.reservationKey, timestamp)⟩ := by
  unfold storeAndTransmit
  split
  next => exact ⟨rfl, rfl⟩
  next bytes _ =>
    have hstore : appProtocol.Follows (fun message l => l = ⟨true, match message with
        | some message => .stored (c.reservationKey, timestamp) message.1
        | none => .held (c.reservationKey, timestamp)⟩)
        (createOutgoingChannelMessage (c.outgoing timestamp))
        ⟨true, .held (c.reservationKey, timestamp)⟩ := by
      refine follows_await_bind.mpr ⟨⟨timestamp, rfl, rfl, rfl⟩, fun created => ?_⟩
      cases created with
      | none => rfl
      | some id => exact follows_await_bind.mpr ⟨trivial, fun _ => rfl⟩
    refine Follows.bind ((follows_inApp hstore).mono ?_)
    rintro (_ | message) _ rfl
    · exact ⟨rfl, rfl⟩
    · refine Follows.bind ((follows_onAir _).mono ?_)
      rintro outcome _ rfl
      exact ⟨rfl, rfl⟩

theorem transmitChannelMessage_follows (hclock : 0 < c.sentAt) :
    sendProtocol.Follows (fun t l => match t with
        | none => l = {}
        | some t => l = ⟨false, t.work c⟩ ∧ (t.senderTimestamp = none → t.messageId = none))
      (transmitChannelMessage m c rounds) {} := by
  have hacquire : appProtocol.Follows
      (fun (grant : RadioGrant) l => l = ⟨decide (grant = .granted), .none⟩)
      (await .acquireRadio) {} := by
    refine ⟨⟨rfl, rfl⟩, fun grant => ?_⟩
    cases grant <;> rfl
  have hrelease : ∀ {work : StampWork}, work.searches = none →
      appProtocol.Follows (fun _ l => l = ⟨false, work⟩) (await .releaseRadio) ⟨true, work⟩ :=
    fun hwork => ⟨⟨rfl, hwork⟩, fun _ => rfl⟩
  refine Follows.bind ((follows_inApp hacquire).mono ?_)
  rintro grant _ rfl
  cases grant with
  | granted =>
      refine Follows.bind ((follows_inApp
        (allocateOutgoingSenderTimestamp_follows _ rounds hclock)).mono ?_)
      rintro (_ | timestamp) _ rfl
      · refine Follows.bind ((follows_inApp (hrelease rfl)).mono ?_)
        rintro _ _ rfl
        rfl
      · refine Follows.bind ((storeAndTransmit_follows timestamp).mono ?_)
        rintro t _ ⟨rfl, hts⟩
        refine Follows.bind ((follows_inApp (hrelease ?_)).mono ?_)
        · unfold ChannelTransmission.work
          split <;> rfl
        · rintro _ _ rfl
          exact ⟨rfl, fun hnone => absurd (hts.symm.trans hnone) (by simp)⟩
  | busy => exact ⟨rfl, fun _ => rfl⟩
  | disconnected => exact ⟨rfl, fun _ => rfl⟩

/-- A send whose radio operation has ended holds its timestamp, if it found one. -/
def ChannelTransmission.Owes (c : ChannelSend) (t : ChannelTransmission) (l : SendPhase) : Prop :=
  l.locked = false ∧ match t.senderTimestamp with
    | some timestamp => l.work.holds = some (c.reservationKey, timestamp)
    | none => l.work = .none

/-- A failed send deletes its row and keeps its reservation. -/
theorem discardFailed_follows {t : ChannelTransmission}
    (hmessage : t.senderTimestamp = none → t.messageId = none) :
    sendProtocol.Follows (fun _ l => t.Owes c l) (discardFailed t) ⟨false, t.work c⟩ := by
  obtain ⟨senderTimestamp, messageId, outcome⟩ := t
  cases messageId with
  | none =>
      have howes : (⟨senderTimestamp, none, outcome⟩ : ChannelTransmission).Owes c
          ⟨false, ChannelTransmission.work c ⟨senderTimestamp, none, outcome⟩⟩ := by
        cases senderTimestamp <;> exact ⟨rfl, rfl⟩
      cases outcome with
      | event isError => cases isError <;> exact howes
      | raised => exact howes
      | cancelled => exact howes
  | some id =>
      cases senderTimestamp with
      | none => exact (nomatch hmessage rfl)
      | some timestamp =>
          have hdelete : sendProtocol.Follows (fun _ l => l.locked = false ∧
              l.work.holds = some (c.reservationKey, timestamp))
              (Program.await (SendOp.deleteMessage id))
              ⟨false, .stored (c.reservationKey, timestamp) id⟩ :=
            ⟨⟨_, rfl⟩, fun _ => ⟨rfl, rfl⟩⟩
          cases outcome with
          | event isError =>
              cases isError with
              | false => exact ⟨rfl, rfl⟩
              | true => exact hdelete
          | raised => exact hdelete
          | cancelled => exact ⟨rfl, rfl⟩

theorem releaseAllocated_follows {t : ChannelTransmission} {l : SendPhase} (h : t.Owes c l) :
    sendProtocol.Follows (EndsIn {}) (releaseAllocated c t) l := by
  obtain ⟨hlocked, hholds⟩ := h
  obtain ⟨senderTimestamp, messageId, outcome⟩ := t
  cases senderTimestamp with
  | none =>
      obtain ⟨locked, work⟩ := l
      obtain rfl : locked = false := hlocked
      obtain rfl : work = .none := hholds
      rfl
  | some timestamp =>
      refine follows_inApp (p := await (.releaseReservation c.reservationKey timestamp))
        ⟨hholds, fun _ => ?_⟩
      change ({ l with work := .none } : SendPhase) = {}
      rw [hlocked]

theorem finishChannelSend_follows (t : ChannelTransmission) :
    sendProtocol.Follows (EndsIn {}) (finishChannelSend t) {} := by
  obtain ⟨senderTimestamp, messageId, outcome⟩ := t
  have hread : ∀ id, sendProtocol.Follows (EndsIn {}) (finishChannelSend
      ⟨senderTimestamp, some id, .event false⟩) {} :=
    fun id => ⟨trivial, fun _ => ⟨trivial, fun _ => rfl⟩⟩
  cases messageId with
  | none =>
      cases outcome with
      | event isError => cases isError <;> rfl
      | raised => rfl
      | cancelled => rfl
  | some id =>
      cases outcome with
      | event isError =>
          cases isError with
          | false => exact hread id
          | true => rfl
      | raised => rfl
      | cancelled => rfl

/-- A channel send follows the protocol and ends with nothing held. -/
theorem sendChannelMessageToChannel_follows (hclock : 0 < c.sentAt) :
    sendProtocol.Follows (EndsIn {}) (sendChannelMessageToChannel m c rounds) {} := by
  refine Follows.bind ((transmitChannelMessage_follows hclock).mono ?_)
  rintro (_ | t) l hl
  · exact hl
  · obtain ⟨rfl, hmessage⟩ := hl
    refine Follows.bind ((discardFailed_follows hmessage).mono ?_)
    rintro _ l howes
    refine Follows.bind ((releaseAllocated_follows howes).mono ?_)
    rintro _ _ rfl
    exact finishChannelSend_follows t

end Channel

section Runs

/-- A send of either kind, and how far its search for a timestamp is unrolled. -/
inductive SendWork where
  | direct (d : DirectSend) (rounds : Nat)
  | channel (m : ManagerView) (c : ChannelSend) (rounds : Nat)

namespace SendWork

/-- The time at which a send starts. -/
def sentAt : SendWork → Int
  | .direct d _ => d.sentAt
  | .channel _ c _ => c.sentAt

/-- The task of a send. -/
def task : SendWork → SendTask Unit
  | .direct d rounds => do
      let _ ← inApp (sendDirectMessageToContact d rounds)
      pure ()
  | .channel m c rounds => do
      let _ ← sendChannelMessageToChannel m c rounds
      pure ()

theorem task_follows {w : SendWork} (hclock : 0 < w.sentAt) :
    sendProtocol.Follows (EndsIn {}) w.task {} := by
  cases w with
  | direct d rounds =>
      refine Follows.bind ((follows_inApp (sendDirectMessageToContact_follows hclock)).mono ?_)
      rintro _ _ rfl
      rfl
  | channel m c rounds =>
      refine Follows.bind ((sendChannelMessageToChannel_follows hclock).mono ?_)
      rintro _ _ rfl
      rfl

end SendWork

/-- Sends that run at once. -/
def sendsPool (works : List SendWork) (s : App) : Pool SendOp SendOp.Ans Unit App :=
  ⟨s, works.map SendWork.task⟩

/-- A task holds a stamp while it still has to give it back, whatever happens. -/
def Holds (k : Stamp) (t : SendTask Unit) : Prop :=
  t.Must fun op => op = .app (.releaseReservation k.1 k.2)

variable {k : Stamp} {t : SendTask Unit} {l : SendPhase}

/-- Only giving it back ends the hold of a stamp. -/
theorem holds_after {op : SendOp} (hallowed : l.Allows op) (hk : l.work.holds = some k)
    (hop : op ≠ .app (.releaseReservation k.1 k.2)) (x : op.Ans) :
    (l.after op x).work.holds = some k := by
  cases op with
  | transmit op => exact hk
  | deleteMessage id =>
      obtain ⟨k', hwork⟩ := hallowed
      rw [hwork] at hk
      simp only [SendPhase.after, hwork]
      exact hk
  | app op =>
      cases op with
      | acquireRadio =>
          rw [hallowed.2] at hk
          cases hk
      | isReserved key timestamp =>
          rw [hallowed.2.1] at hk
          cases hk
      | getByContent msgType conversationKey text senderTimestamp outgoing =>
          cases senderTimestamp with
          | none => exact hallowed.elim
          | some timestamp =>
              cases outgoing with
              | some outgoing => exact hallowed.elim
              | none =>
                  rw [hallowed.2] at hk
                  cases hk
      | reserve key timestamp =>
          rw [hallowed.2] at hk
          cases hk
      | createMessage m =>
          obtain ⟨timestamp, hts, -, hwork⟩ := hallowed
          rw [hwork] at hk
          cases x with
          | none =>
              simp only [SendPhase.after, SendPhase.afterApp, hwork]
              exact hk
          | some id =>
              simp only [SendPhase.after, SendPhase.afterApp, hts]
              exact hk
      | releaseReservation key timestamp =>
          obtain rfl : k = (key, timestamp) := Option.some.inj (hk.symm.trans hallowed)
          exact absurd rfl hop
      | _ => exact hk

/-- A task that follows the protocol to its end holds the stamp of its phase. -/
theorem holds_of_phase (h : sendProtocol.Follows (EndsIn {}) t l) (hk : l.work.holds = some k) :
    Holds k t := by
  induction t generalizing l with
  | pure a =>
      obtain rfl : l = {} := h
      exact (nomatch hk)
  | call op next ih =>
      by_cases hop : op = .app (.releaseReservation k.1 k.2)
      · exact .inl hop
      · exact .inr fun x => ih x (h.2 x) (holds_after h.1 hk hop x)

/-- Some answer of each call gives a send no stamp that it did not hold. -/
theorem exists_after_holds {op : SendOp} (hallowed : l.Allows op) :
    ∃ x, (l.after op x).work.holds = some k → l.work.holds = some k := by
  cases op with
  | transmit op =>
      cases op with
      | getSettings => exact ⟨({} : AppSettings), fun hk => hk⟩
      | _ => exact ⟨default, fun hk => hk⟩
  | deleteMessage id =>
      obtain ⟨k', hwork⟩ := hallowed
      refine ⟨(), fun hk => ?_⟩
      simp only [SendPhase.after, hwork] at hk
      rw [hwork]
      exact hk
  | app op =>
      cases op with
      | acquireRadio => exact ⟨.busy, fun hk => hk⟩
      | isReserved key timestamp => exact ⟨true, fun hk => hk⟩
      | getByContent msgType conversationKey text senderTimestamp outgoing =>
          cases senderTimestamp with
          | none => exact hallowed.elim
          | some timestamp =>
              cases outgoing with
              | some outgoing => exact hallowed.elim
              | none =>
                  refine ⟨none, fun hk => ?_⟩
                  cases hk
      | reserve key timestamp =>
          refine ⟨false, fun hk => ?_⟩
          cases hk
      | createMessage m => exact ⟨none, fun hk => hk⟩
      | releaseReservation key timestamp =>
          refine ⟨(), fun hk => ?_⟩
          cases hk
      | getSettings => exact ⟨({} : AppSettings), fun hk => hk⟩
      | _ => first | exact ⟨default, fun hk => hk⟩ | exact hallowed.elim

/-- A task that holds a stamp is in a phase that does. -/
theorem phase_holds {Q : Unit → SendPhase → Prop} (h : sendProtocol.Follows Q t l)
    (ht : Holds k t) : l.work.holds = some k := by
  induction t generalizing l with
  | pure a => exact ht.elim
  | call op next ih =>
      rcases ht with rfl | hnext
      · exact h.1
      · obtain ⟨x, hx⟩ := exists_after_holds (k := k) h.1
        exact hx (ih x (h.2 x) (hnext x))

/-- Thread `i` makes a call next. -/
def Next (q : Pool SendOp SendOp.Ans Unit App) (i : Nat) (op : SendOp) : Prop :=
  q.threads[i]?.bind Program.nextCall = some op

/-- Sends that started with the messages `before` use no timestamp of a content twice: a
timestamp is only reserved when nobody holds it and no message has it, it is then held, no two
sends hold one, a message that is stored finds no row in its place, and a content has at most
one message of a timestamp unless it already had more. -/
structure TimestampsUnique (before : MessageTable) (q : Pool SendOp SendOp.Ans Unit App) :
    Prop where
  allocated : ∀ i key timestamp, Next q i (.app (.reserve key timestamp)) →
    (key, timestamp) ∉ q.shared.reservations ∧ storedIds q.shared.messages (key, timestamp) = []
  held : ∀ (i : Nat) key timestamp (next : Bool → SendTask Unit),
    q.threads[i]? = some (.call (.app (.reserve key timestamp)) next) →
      Holds (key, timestamp) (next true)
  holders : ∀ (i j : Nat) k t u, q.threads[i]? = some t → q.threads[j]? = some u → Holds k t →
    Holds k u → i = j
  created : ∀ i m, Next q i (.app (.createMessage m)) →
    (MessageRepository.create q.shared.messages m).1 ≠ none
  stored : ∀ k, if storedIds before k = [] then (storedIds q.shared.messages k).length ≤ 1
    else storedIds q.shared.messages k = storedIds before k

/-- Sends that follow the protocol and keep its invariant use no timestamp twice. -/
theorem timestampsUnique_of_follow {before : MessageTable}
    {q : Pool SendOp SendOp.Ans Unit App} {ls : Nat → SendPhase}
    (hfollow : sendProtocol.Follow (EndsIn {}) {} q ls) (h : StampsUnique before q.shared ls) :
    TimestampsUnique before q := by
  have hnext : ∀ {i op}, Next q i op → (ls i).Allows op := by
    intro i op hi
    obtain ⟨t, ht, hcall⟩ := Option.bind_eq_some_iff.mp hi
    cases t with
    | pure a => simp at hcall
    | call op' next =>
        obtain rfl := Option.some.inj hcall
        exact (hfollow.threads i _ ht).1
  constructor
  · intro i key timestamp hi
    obtain ⟨-, hwork⟩ := hnext hi
    have hs := h.stamped i
    exact ⟨(hs.searches _ (by rw [hwork]; rfl)).2.2, hs.probed _ hwork⟩
  · intro i key timestamp next hi
    exact holds_of_phase ((hfollow.threads i _ hi).2 true) rfl
  · intro i j k t u hi hj ht hu
    exact h.holds i j k (phase_holds (hfollow.threads i t hi) ht)
      (phase_holds (hfollow.threads j u hj) hu)
  · intro i m hi
    obtain ⟨timestamp, hts, hout, hwork⟩ := hnext hi
    have hs := h.stamped i
    exact create_of_unstored hts (hs.holds _ (by rw [hwork]; rfl)).1 hout (hs.held _ hwork)
  · exact h.stored

/-- However many sends run at once, from whatever the process holds, no timestamp of a content
is used twice. The clock of the sends is past the epoch. -/
theorem timestamps_unique (sha256 : Bytes → Bytes) {works : List SendWork} {s : App}
    (hclock : ∀ w ∈ works, 0 < w.sentAt) {q : Pool SendOp SendOp.Ans Unit App}
    (run : Pool.Run (sending sha256) Pool.always (sendsPool works s) q) :
    TimestampsUnique s.messages q := by
  have hidle : sendProtocol.Follow (EndsIn {}) {} (sendsPool works s) fun _ => {} := by
    apply follow_idle
    intro t ht
    obtain ⟨w, hw, rfl⟩ := List.mem_map.mp ht
    exact SendWork.task_follows (hclock w hw)
  obtain ⟨ls, hfollow, hunique⟩ := Follow.run (I := StampsUnique s.messages) run
    (fun _ hI _ _ hallowed hx => stampsUnique_step hI hallowed hx) hidle
    (stampsUnique_idle s)
  exact timestampsUnique_of_follow hfollow hunique

end Runs

section Sample

/-- A radio that answers every command. -/
def answeringRadio : SendChoice where
  transmit
    | .getSettings => {}
    | .command _ => .ok
    | .planChannelSendSlot _ slot => (slot, true, none)
    | .noteChannelSlotLoaded .. | .noteChannelSlotUsed _ | .invalidateCachedChannelSlot _
    | .rememberPathHashMode _ | .reportError _ => ()

/-- The same text sent twice within a second. -/
def twinSends : List SendWork :=
  let c : ChannelSend := { channelKey := ['a'], text := ['x'], sentAt := 5 }
  [.channel {} c 3, .channel {} c 3]

/-- The first send still holds its timestamp while the second runs. -/
def twinSendSchedule : List (Nat × SendChoice) :=
  (List.replicate 12 0 ++ List.replicate 16 1 ++ List.replicate 3 0).map (·, answeringRadio)

/-- Both are stored, under timestamps of their own. -/
theorem timestamps_unique_twinSends :
    ∃ q, Pool.Run (sending id) Pool.always (sendsPool twinSends .empty) q ∧
      q.shared.messages.rows.map MessageRow.senderTimestamp = [some 5, some 6] ∧
      TimestampsUnique App.empty.messages q := by
  have hexec : (Pool.exec (performSend id) (fun _ _ _ => true) twinSendSchedule
      (sendsPool twinSends .empty)).any (fun q => decide
        (q.shared.messages.rows.map MessageRow.senderTimestamp = [some 5, some 6])) = true := by
    decide +kernel
  obtain ⟨q, hrun, hstored⟩ := Pool.exec_reaches hexec
  have run : Pool.Run (sending id) Pool.always (sendsPool twinSends .empty) q :=
    hrun.mono fun _ _ _ => trivial
  refine ⟨q, run, hstored, timestamps_unique id ?_ run⟩
  intro w hw
  simp only [twinSends, List.mem_cons, List.not_mem_nil, or_false, or_self] at hw
  subst hw
  decide

end Sample

end RemoteTerm
