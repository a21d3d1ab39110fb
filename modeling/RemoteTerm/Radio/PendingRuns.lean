import Mathlib
import RemoteTerm.Radio.PendingMessages

/-!
# What becomes of the messages that are taken

Each message that a loop takes is passed once to its storing step, in the order
of the queue, and after the handlers ran the table has its row, unless a handler
gave it up.
-/

namespace RemoteTerm

open Library

/-- The event, as a handler meets it. -/
def ContactMessageEvent.at (e : ContactMessageEvent) (now : Int) : ContactMessageEvent :=
  { e with now := now }

/-- The process makes the run, among its other tasks. -/
def HandlerRun.Runs {α : Type} (sha256 : Bytes → Bytes) (handler : Int → Task α)
    (run : HandlerRun α) : Prop :=
  RunsAmong sha256 (handler run.now) run.before run.answers run.ending run.after

/-- The storing steps of messages, one after another among the other tasks. The subscriber's run on
a direct message has begun and ended somewhere on the way. -/
inductive Happened (sha256 : Bytes → Bytes) : App → List QueuedMessage → App → Prop
  | done {s t : App} (others : Others sha256 s t) : Happened sha256 s [] t
  | contact {s t : App} {event : ContactMessageEvent}
      {stored : HandlerRun (Option (Option Nat))}
      {heard : Option (HandlerRun (Option (Option Nat)))} {rest : List QueuedMessage}
      (others : Others sha256 s stored.before)
      (runs : stored.Runs sha256 fun now => onContactMessage (event.at now))
      (hears : ∀ run ∈ heard, Others sha256 s run.before ∧
        run.Runs sha256 (fun now => onContactMessage (event.at now)) ∧ Others sha256 run.after t)
      (tail : Happened sha256 stored.after rest t) :
      Happened sha256 s (.contact event stored heard :: rest) t
  | dropped {s t : App} {payload : ChannelPayload} {slot : SlotAnswers}
      {stored : HandlerRun (Option Nat)} {rest : List QueuedMessage}
      (unresolved : ∀ key, channelOfPayload payload slot ≠ .ok (some key))
      (tail : Happened sha256 s rest t) :
      Happened sha256 s (.channel payload slot stored :: rest) t
  | channel {s t : App} {payload : ChannelPayload} {slot : SlotAnswers}
      {stored : HandlerRun (Option Nat)} {rest : List QueuedMessage} {key : Text}
      (resolved : channelOfPayload payload slot = .ok (some key))
      (others : Others sha256 s stored.before)
      (runs : stored.Runs sha256 fun now =>
        createFallbackChannelMessage (fallbackOfPayload payload key now))
      (tail : Happened sha256 stored.after rest t) :
      Happened sha256 s (.channel payload slot stored :: rest) t

/-- The handler gave the message up: it raised or was cancelled, the sender is a repeater, or the
lookup met the row of another author. -/
inductive GivesUp (event : ContactMessageEvent) (run : HandlerRun (Option (Option Nat))) : Prop
  | raised (h : run.ending = .raised ∨ run.ending = .returned none)
  | cancelled (h : run.ending = .cancelled)
  | repeater (h : (event.at run.now).FromRepeater run.answers)
  | other (contact : Option Contact) (resolves : (event.at run.now).Resolves run.answers contact)
      (h : (event.at run.now).MetOther contact run.answers)

/-- The row of the message is in the table, under what the handler resolved its sender to. -/
def KeptBy (event : ContactMessageEvent) (run : HandlerRun (Option (Option Nat))) (t : App) :
    Prop :=
  ∃ contact, (event.at run.now).Resolves run.answers contact ∧
    (event.at run.now).Kept contact t

namespace QueuedMessage

/-- A reply to a command. -/
def IsCli : QueuedMessage → Prop
  | .contact event _ _ => event.txtType = 1
  | .channel .. => False

/-- The message is in the table, or each of its handlers gave it up; a channel message is given up
with its slot, too. -/
def Accounted (t : App) : QueuedMessage → Prop
  | .contact event stored heard =>
      (∃ run, (run = stored ∨ run ∈ heard) ∧ KeptBy event run t) ∨
        ∀ run, run = stored ∨ run ∈ heard → GivesUp event run
  | .channel payload slot stored =>
      match channelOfPayload payload slot with
      | .ok (some key) =>
          (fallbackOfPayload payload key stored.now).Kept t ∨ ∀ r, stored.ending ≠ .returned r
      | _ => True

end QueuedMessage

section Handlers

variable {sha256 : Bytes → Bytes} {s t : App}

/-- **One handler** of a direct message leaves the row, or gives the message up. -/
theorem keptBy_or_givesUp {event : ContactMessageEvent}
    {run : HandlerRun (Option (Option Nat))} (hcli : event.txtType ≠ 1)
    (h : run.Runs sha256 fun now => onContactMessage (event.at now))
    (hothers : Others sha256 run.after t) : KeptBy event run t ∨ GivesUp event run := by
  cases hending : run.ending with
  | raised => exact .inr (.raised (.inl hending))
  | cancelled => exact .inr (.cancelled hending)
  | returned result =>
      cases result with
      | none => exact .inr (.raised (.inr hending))
      | some stored =>
          rw [HandlerRun.Runs, hending] at h
          rcases onContactMessage_kept (e := event.at run.now) hcli h with
            hrepeater | ⟨contact, hresolves, hkept | hmet⟩
          · exact .inr (.repeater hrepeater)
          · exact .inl ⟨contact, hresolves, hkept.others hothers⟩
          · exact .inr (.other contact hresolves hmet)

/-- What happens after a storing step is among what the other tasks may do. -/
theorem Happened.others {messages : List QueuedMessage} (h : Happened sha256 s messages t) :
    Others sha256 s t := by
  induction h with
  | done others => exact others
  | contact others runs _ _ ih => exact (others.trans (RunsAmong.others runs)).trans ih
  | dropped _ _ ih => exact ih
  | channel _ others runs _ ih => exact (others.trans (RunsAmong.others runs)).trans ih

/-- **Every message that was passed on is accounted for** after its handlers ran. -/
theorem Happened.accounted {messages : List QueuedMessage} (h : Happened sha256 s messages t)
    {m : QueuedMessage} (hm : m ∈ messages) (hcli : ¬ m.IsCli) : m.Accounted t := by
  induction h with
  | done => cases hm
  | @contact s t event stored heard rest others runs hears tail ih =>
      rcases List.mem_cons.mp hm with rfl | hm
      · -- the row of one of the runs suffices
        by_cases hkept : ∃ run, (run = stored ∨ run ∈ heard) ∧ KeptBy event run t
        · exact .inl hkept
        · refine .inr fun run hrun => ?_
          have hone : KeptBy event run t ∨ GivesUp event run := by
            rcases hrun with rfl | hheard
            · exact keptBy_or_givesUp hcli runs tail.others
            · obtain ⟨-, hruns, hafter⟩ := hears run hheard
              exact keptBy_or_givesUp hcli hruns hafter
          exact hone.resolve_left fun h => hkept ⟨run, hrun, h⟩
      · exact ih hm
  | @dropped s t payload slot stored rest unresolved tail ih =>
      rcases List.mem_cons.mp hm with rfl | hm
      · rw [QueuedMessage.Accounted]
        split
        next key hkey => exact absurd hkey (unresolved key)
        next => trivial
      · exact ih hm
  | @channel s t payload slot stored rest key resolved others runs tail ih =>
      rcases List.mem_cons.mp hm with rfl | hm
      · rw [QueuedMessage.Accounted, resolved]
        cases hending : stored.ending with
        | raised => exact .inr fun r hr => by cases hr
        | cancelled => exact .inr fun r hr => by cases hr
        | returned result =>
            rw [HandlerRun.Runs, hending] at runs
            exact .inl ((createFallbackChannelMessage_kept runs).others tail.others)
      · exact ih hm

end Handlers

/-- The message of a result. -/
def GetMsgResult.message? : GetMsgResult → Option QueuedMessage
  | .message m => some m
  | _ => none

/-- The messages of the first results. -/
def handedOver (pulls : List Pull) (taken : Nat) : List QueuedMessage :=
  (pulls.take taken).filterMap fun pull => pull.result.message?

/-- Each message that was handed over is passed once to its storing step, in the order of the
queue; only a reply to a command is returned instead. -/
structure PassedOn (pulls : List Pull) (run : PumpRun) : Prop where
  handedOver : handedOver pulls run.taken = run.passed ++ run.returned.toList
  returned : ∀ m ∈ run.returned, m.IsCli

namespace PassedOn

variable {pull : Pull} {rest : List Pull} {run : PumpRun}

theorem start (pulls : List Pull) (reply : Option ContactMessageEvent) (ending : PumpEnd) :
    PassedOn pulls { taken := 0, reply := reply, ending := ending } :=
  ⟨rfl, fun _ hm => by cases hm⟩

/-- A result without a message. -/
theorem took (h : PassedOn rest run) (hresult : pull.result.message? = none) :
    PassedOn (pull :: rest) run.took where
  handedOver := by
    rw [PumpRun.took, ← h.handedOver]
    simp [RemoteTerm.handedOver, hresult]
  returned := h.returned

/-- A message that is passed to its storing step. -/
theorem handled (h : PassedOn rest run) {m : QueuedMessage} (counted : Nat)
    (hresult : pull.result = .message m) : PassedOn (pull :: rest) (run.handled m counted) where
  handedOver := by
    rw [PumpRun.handled, List.cons_append, ← h.handedOver]
    simp [RemoteTerm.handedOver, hresult, GetMsgResult.message?]
  returned := h.returned

/-- A message at whose storing step a loop ends. -/
theorem last {m : QueuedMessage} (ending : PumpEnd) (hresult : pull.result = .message m) :
    PassedOn (pull :: rest) { taken := 1, passed := [m], ending := ending } :=
  (start rest none ending).handled 0 hresult

/-- A reply that is returned. -/
theorem reply {m : QueuedMessage} {reply : Option ContactMessageEvent} (ending : PumpEnd)
    (hresult : pull.result = .message m) (hcli : m.IsCli) :
    PassedOn (pull :: rest)
      { taken := 1, returned := some m, reply := reply, ending := ending } where
  handedOver := by simp [RemoteTerm.handedOver, hresult, GetMsgResult.message?]
  returned := fun _ hm => Option.some.inj hm ▸ hcli

/-- A message that a fetch stores. -/
theorem afterStore (h : PassedOn rest run) {m : QueuedMessage}
    (hresult : pull.result = .message m) : PassedOn (pull :: rest) (run.afterStore m) := by
  rw [PumpRun.afterStore]
  cases storePending m with
  | ok => exact h.handled 0 hresult
  | error e =>
      cases e with
      | raised => exact last _ hresult
      | cancelled => exact last _ hresult

end PassedOn

/-- **The drain** passes on every message it takes. -/
theorem drainPendingMessages_passedOn (pulls : List Pull) :
    PassedOn pulls (drainPendingMessages pulls) := by
  induction pulls with
  | nil => exact .start [] none .waiting
  | cons pull rest ih =>
      have hsleep : PassedOn rest (if pull.sleepCancelled then
          { taken := 0, ending := .cancelled } else drainPendingMessages rest) := by
        split
        next => exact .start _ none _
        next => exact ih
      rw [drainPendingMessages]
      cases hresult : pull.result with
      | message m =>
          dsimp only
          cases storePending m with
          | ok => exact hsleep.handled 1 hresult
          | error e =>
              cases e with
              | raised => exact .last _ hresult
              | cancelled => exact .last _ hresult
      | unexpected => exact hsleep.took (by rw [hresult]; rfl)
      | _ => exact (PassedOn.start rest none _).took (by rw [hresult]; rfl)

/-- **The fetch** passes on every message it takes, but for the reply that it returns. -/
theorem fetchContactCliResponse_passedOn (target : Text) (polls : List Poll) :
    PassedOn (polls.map Poll.toPull) (fetchContactCliResponse target polls) := by
  induction polls with
  | nil => exact .start [] none .waiting
  | cons poll rest ih =>
      have hsleep : PassedOn (rest.map Poll.toPull) (if poll.sleepCancelled then
          { taken := 0, ending := .cancelled } else fetchContactCliResponse target rest) := by
        split
        next => exact .start _ none _
        next => exact ih
      rw [fetchContactCliResponse, List.map_cons]
      by_cases hdeadline : poll.beforeDeadline = false
      · rw [if_pos hdeadline]
        exact .start _ _ _
      rw [if_neg hdeadline]
      by_cases hcaptured : poll.captured.isSome = true
      · rw [if_pos hcaptured]
        exact .start _ _ _
      rw [if_neg hcaptured]
      cases hresult : poll.result with
      | noMoreMsgs =>
          dsimp only
          by_cases hlate : poll.capturedAfter.isSome = true
          · rw [if_pos hlate]
            exact (PassedOn.start _ _ _).took (by rw [hresult]; rfl)
          · rw [if_neg hlate]
            exact hsleep.took (by rw [hresult]; rfl)
      | timeout => exact ih.took (by rw [hresult]; rfl)
      | unexpected => exact ih.took (by rw [hresult]; rfl)
      | exception => exact hsleep.took (by rw [hresult]; rfl)
      | error => exact hsleep.took (by rw [hresult]; rfl)
      | cancelled => exact (PassedOn.start _ none _).took (by rw [hresult]; rfl)
      | message m =>
          cases m with
          | contact event run heard =>
              dsimp only
              by_cases htarget : event.pubkeyPrefix = target ∧ event.txtType = 1
              · rw [if_pos htarget]
                exact .reply _ hresult htarget.2
              · rw [if_neg htarget]
                exact ih.afterStore hresult
          | channel payload slot run => exact ih.afterStore hresult

/-- The subscription only captures replies of the target, as its attribute filter says. -/
def FiltersTarget (target : Text) (polls : List Poll) : Prop :=
  ∀ poll ∈ polls, ∀ event, poll.captured = some event ∨ poll.capturedAfter = some event →
    event.pubkeyPrefix = target ∧ event.txtType = 1

/-- A fetch that stores a message returns the reply of its later rounds. -/
theorem reply_afterStore {run : PumpRun} {m : QueuedMessage} {event : ContactMessageEvent}
    (h : (run.afterStore m).reply = some event) : run.reply = some event := by
  rw [PumpRun.afterStore] at h
  cases hstep : storePending m with
  | ok => rw [hstep] at h; exact h
  | error e => rw [hstep] at h; cases e <;> cases h

/-- **The reply** that a fetch returns comes from the target. -/
theorem reply_from_target {target : Text} {polls : List Poll} {event : ContactMessageEvent}
    (hfilter : FiltersTarget target polls)
    (hreply : (fetchContactCliResponse target polls).reply = some event) :
    event.pubkeyPrefix = target ∧ event.txtType = 1 := by
  induction polls with
  | nil => cases hreply
  | cons poll rest ih =>
      have hpoll := hfilter poll List.mem_cons_self event
      have hrest : (fetchContactCliResponse target rest).reply = some event →
          event.pubkeyPrefix = target ∧ event.txtType = 1 :=
        ih fun p hp => hfilter p (List.mem_cons_of_mem _ hp)
      have hsleep : (if poll.sleepCancelled then ({ taken := 0, ending := .cancelled } : PumpRun)
          else fetchContactCliResponse target rest).reply = some event →
          event.pubkeyPrefix = target ∧ event.txtType = 1 := by
        split
        next => exact fun h => by cases h
        next => exact hrest
      rw [fetchContactCliResponse] at hreply
      by_cases hdeadline : poll.beforeDeadline = false
      · rw [if_pos hdeadline] at hreply
        exact hpoll (Or.inl hreply)
      rw [if_neg hdeadline] at hreply
      by_cases hcaptured : poll.captured.isSome = true
      · rw [if_pos hcaptured] at hreply
        exact hpoll (Or.inl hreply)
      rw [if_neg hcaptured] at hreply
      cases hresult : poll.result with
      | noMoreMsgs =>
          rw [hresult] at hreply
          dsimp only at hreply
          by_cases hlate : poll.capturedAfter.isSome = true
          · rw [if_pos hlate] at hreply
            exact hpoll (Or.inr hreply)
          · rw [if_neg hlate] at hreply
            exact hsleep hreply
      | timeout => rw [hresult] at hreply; exact hrest hreply
      | unexpected => rw [hresult] at hreply; exact hrest hreply
      | exception => rw [hresult] at hreply; exact hsleep hreply
      | error => rw [hresult] at hreply; exact hsleep hreply
      | cancelled => rw [hresult] at hreply; cases hreply
      | message m =>
          rw [hresult] at hreply
          cases m with
          | contact c run heard =>
              dsimp only at hreply
              by_cases htarget : c.pubkeyPrefix = target ∧ c.txtType = 1
              · rw [if_pos htarget] at hreply
                rw [← Option.some.inj hreply]
                exact htarget
              · rw [if_neg htarget] at hreply
                exact hrest (reply_afterStore hreply)
          | channel payload slot run => exact hrest (reply_afterStore hreply)

/-- A loop passes on what it takes, and each message that is no reply is accounted for in every
state that the storing steps lead to. -/
def PumpAccounted (sha256 : Bytes → Bytes) (pulls : List Pull) (run : PumpRun) : Prop :=
  PassedOn pulls run ∧ ∀ s t, Happened sha256 s run.passed t →
    ∀ m ∈ run.passed, ¬ m.IsCli → m.Accounted t

section Example

/-- A channel message from a slot that neither the radio nor a cache knows. -/
def unknownSlotMessage : QueuedMessage :=
  .channel { channelIdx := .slot 3, text := "hi".toList } {}
    { now := 0, before := .empty, ending := .cancelled, after := .empty }

/-- A handler that runs alone. -/
theorem HandlerRun.exists_alone {α : Type} {sha256 : Bytes → Bytes} {handler : Int → Task α}
    {now : Int} {s t : App} {a : α}
    (h : (handler now).run (perform sha256 default) s = some (a, t)) :
    ∃ answers, HandlerRun.Runs sha256 handler ⟨now, s, answers, .returned a, t⟩ :=
  (Program.run_eval (fun _ _ _ _ hact => ⟨default, hact⟩) h).among fun _ => .refl

/-- A message of another contact than the one that a command waits for. -/
def otherGreeting : ContactMessageEvent where
  pubkeyPrefix := "cd".toList
  text := "hi".toList
  senderTimestamp := some 5
  now := 7

/-- The reply that the command waits for. -/
def awaitedReply : ContactMessageEvent where
  txtType := 1
  pubkeyPrefix := "ab".toList
  now := 9

/-- A message on a channel that a cache knows. -/
def cachedSlotMessage : ChannelPayload where
  channelIdx := .slot 3
  text := "bob: yo".toList
  senderTimestamp := some 6

/-- The process after the greeting was stored, heard by the subscriber, and the channel message was
stored. -/
def afterFetch : Option App := do
  let (_, s) ← (onContactMessage (otherGreeting.at 7)).run (perform id default) .empty
  let (_, s) ← (onContactMessage (otherGreeting.at 8)).run (perform id default) s
  let (_, s) ← (createFallbackChannelMessage (fallbackOfPayload cachedSlotMessage "AB".toList 9)).run
    (perform id default) s
  pure s

end Example

end RemoteTerm
