import RemoteTerm.Library.Protocol
import RemoteTerm.Send.ChannelMessage

/-!
# Sender timestamps of concurrent sends

Any number of channel and direct sends run at once. A timestamp is looked up and
reserved under the radio lock, and it is given back only after the message is
stored or the send has failed. So no two sends hold one timestamp for one
content, and none takes the timestamp of a stored message.

## Implementation notes

What a send has done about its timestamp is the local state of a protocol. Rows
are identified by their rowids: the rowids of a content are what the sends add
to and remove from.
-/

namespace RemoteTerm

open Library

/-- A content together with a timestamp: what must not be used twice. -/
abbrev Stamp := ReservationKey × Int

/-- A row has the content and the timestamp. -/
def MessageRow.HasStamp (r : MessageRow) (k : Stamp) : Bool :=
  r.matchesContent k.1.msgType k.1.conversationKey k.1.text (some k.2) none

/-- The rowids under which a content is stored with a timestamp. -/
def storedIds (t : MessageTable) (k : Stamp) : List Nat :=
  (t.rows.filter fun r => r.HasStamp k).map MessageRow.id

/-- What a send has done about its timestamp. -/
inductive StampWork where
  | none
  | checked (k : Stamp)
  | probed (k : Stamp)
  | held (k : Stamp)
  | stored (k : Stamp) (id : Nat)

/-- The reservation that a send owns. -/
def StampWork.holds : StampWork → Option Stamp
  | .held k => some k
  | .stored k _ => some k
  | _ => Option.none

/-- The stamps of a search for a timestamp, which only exists under the radio lock. -/
def StampWork.searches : StampWork → Option Stamp
  | .checked k => some k
  | .probed k => some k
  | _ => Option.none

/-- A send: whether it has the radio lock, and its work. -/
structure SendPhase where
  locked : Bool := false
  work : StampWork := .none

namespace SendPhase

/-- The calls of the process that a send may make. -/
def AllowsApp (l : SendPhase) : Op → Prop
  | .acquireRadio => l.locked = false ∧ l.work = .none
  | .releaseRadio => l.locked = true ∧ l.work.searches = none
  | .isReserved _ timestamp => l.locked = true ∧ l.work = .none ∧ 0 < timestamp
  | .getByContent msgType conversationKey text (some timestamp) none =>
      l.locked = true ∧ l.work = .checked (⟨msgType, conversationKey, text⟩, timestamp)
  | .reserve key timestamp => l.locked = true ∧ l.work = .probed (key, timestamp)
  | .createMessage m => ∃ timestamp, m.senderTimestamp = some timestamp ∧ m.outgoing = true ∧
      l.work = .held (⟨m.msgType, m.conversationKey, m.text⟩, timestamp)
  | .releaseReservation key timestamp => l.work.holds = some (key, timestamp)
  | .radio _ | .reportError _ | .getSettings | .getAckAndPaths _ | .updateLastContacted ..
  | .incrementAckCount _ | .registerAck .. => True
  | _ => False

/-- The phase after a call of the process and its answer. -/
def afterApp (l : SendPhase) : (op : Op) → op.Ans → SendPhase
  | .acquireRadio, grant => if grant = .granted then { l with locked := true } else l
  | .releaseRadio, _ => { l with locked := false }
  | .isReserved key timestamp, isReserved =>
      if isReserved then l else { l with work := .checked (key, timestamp) }
  | .getByContent msgType conversationKey text (some timestamp) none, existing =>
      if existing.isSome then { l with work := .none }
      else { l with work := .probed (⟨msgType, conversationKey, text⟩, timestamp) }
  | .reserve key timestamp, reserved =>
      if reserved then { l with work := .held (key, timestamp) } else { l with work := .none }
  | .createMessage m, created =>
      match created with
      | some id =>
          { l with work :=
              .stored (⟨m.msgType, m.conversationKey, m.text⟩, m.senderTimestamp.getD 0) id }
      | none => l
  | .releaseReservation .., _ => { l with work := .none }
  | _, _ => l

/-- The calls that a send may make. -/
def Allows (l : SendPhase) : SendOp → Prop
  | .app op => l.AllowsApp op
  | .transmit _ => True
  | .deleteMessage id => ∃ k, l.work = .stored k id

/-- The phase after a call and its answer. -/
def after (l : SendPhase) : (op : SendOp) → op.Ans → SendPhase
  | .app op, x => l.afterApp op x
  | .transmit _, _ => l
  | .deleteMessage _, _ =>
      match l.work with
      | .stored k _ => { l with work := .held k }
      | _ => l

end SendPhase

/-- The protocol of a send towards the process. -/
def appProtocol : Protocol Op Op.Ans SendPhase := ⟨SendPhase.AllowsApp, SendPhase.afterApp⟩

/-- The protocol of a send. -/
def sendProtocol : Protocol SendOp SendOp.Ans SendPhase := ⟨SendPhase.Allows, SendPhase.after⟩

section StoredIds

open MessageRepository

theorem hasStamp_iff {r : MessageRow} {k : Stamp} :
    r.HasStamp k = true ↔ r.type = k.1.msgType ∧ r.conversationKey = k.1.conversationKey ∧
      r.text = k.1.text ∧ r.senderTimestamp = some k.2 := by
  simp [MessageRow.HasStamp]

/-- A row has at most one content and timestamp. -/
theorem hasStamp_unique {r : MessageRow} {k k' : Stamp} (h : r.HasStamp k = true)
    (h' : r.HasStamp k' = true) : k = k' := by
  obtain ⟨htype, hkey, htext, hts⟩ := hasStamp_iff.mp h
  obtain ⟨htype', hkey', htext', hts'⟩ := hasStamp_iff.mp h'
  obtain ⟨⟨msgType, conversationKey, text⟩, timestamp⟩ := k
  obtain ⟨⟨msgType', conversationKey', text'⟩, timestamp'⟩ := k'
  dsimp only at *
  rw [hts] at hts'
  obtain rfl := Option.some.inj hts'
  rw [← htype, ← hkey, ← htext, htype', hkey', htext']

theorem mem_storedIds {t : MessageTable} {k : Stamp} {id : Nat} :
    id ∈ storedIds t k ↔ ∃ r ∈ t.rows, r.HasStamp k = true ∧ r.id = id := by
  simp [storedIds, and_assoc]

/-- The lookup by content finds a row exactly when some row has the stamp. -/
theorem getByContent_isSome_iff {t : MessageTable} {k : Stamp} :
    (getByContent t k.1.msgType k.1.conversationKey k.1.text (some k.2) none).isSome = true ↔
      storedIds t k ≠ [] := by
  rw [Option.isSome_iff_ne_none, not_iff_not, getByContent_eq_none_iff, storedIds,
    List.map_eq_nil_iff, List.filter_eq_nil_iff]
  simp only [Bool.not_eq_true]
  rfl

theorem storedIds_incrementAckCount (t : MessageTable) (id : Nat) (k : Stamp) :
    storedIds (incrementAckCount t id) k = storedIds t k := by
  have hstamp : ∀ r : MessageRow, (if r.id = id then bumpAck r else r).HasStamp k = r.HasStamp k := by
    intro r
    split <;> rfl
  have hid : ∀ r : MessageRow, (if r.id = id then bumpAck r else r).id = r.id := by
    intro r
    split <;> rfl
  simp only [storedIds, incrementAckCount_rows, List.filter_map, List.map_map, Function.comp_def,
    hstamp, hid]

/-- Storing a message adds its rowid to its stamp. -/
theorem storedIds_create {t : MessageTable} {m : NewMessage} {id : Nat}
    (h : (create t m).1 = some id) (k : Stamp) :
    storedIds (create t m).2 k =
      if (m.toRow id).HasStamp k then storedIds t k ++ [id] else storedIds t k := by
  obtain ⟨rfl, hrows, -⟩ := create_of_some h
  simp only [storedIds, hrows, List.filter_append, List.map_append]
  have hid : (m.toRow t.nextId).id = t.nextId := rfl
  by_cases hk : (m.toRow t.nextId).HasStamp k = true
  · simp [hk, hid]
  · simp [hk]

/-- Deleting the only message of a stamp leaves the other stamps alone. -/
theorem storedIds_delete {t : MessageTable} {k : Stamp} {id : Nat} (h : storedIds t k = [id])
    (k' : Stamp) :
    storedIds (t.delete fun r => r.id = id) k' = if k' = k then [] else storedIds t k' := by
  have hrows : storedIds (t.delete fun r => r.id = id) k' =
      (storedIds t k').filter fun n => decide (n ≠ id) := by
    simp only [storedIds, Table.delete, List.filter_filter, List.filter_map, Function.comp_def]
    congr 2
    ext r
    simp [Bool.and_comm]
  rw [hrows]
  by_cases hk : k' = k
  · subst hk
    simp [h]
  · rw [if_neg hk, List.filter_eq_self]
    intro n hn
    simp only [decide_eq_true_eq]
    rintro rfl
    obtain ⟨r, hr, hstamp, hid⟩ := mem_storedIds.mp hn
    obtain ⟨r', hr', hstamp', hid'⟩ := mem_storedIds.mp (h ▸ List.mem_singleton.mpr rfl)
    obtain rfl := t.eq_of_id hr hr' (hid.trans hid'.symm)
    exact hk (hasStamp_unique hstamp hstamp')

/-- A sent message whose stamp no row has is stored. -/
theorem create_of_unstored {t : MessageTable} {m : NewMessage} {timestamp : Int}
    (hts : m.senderTimestamp = some timestamp) (hpositive : 0 < timestamp)
    (hout : m.outgoing = true)
    (h : storedIds t (⟨m.msgType, m.conversationKey, m.text⟩, timestamp) = []) :
    (create t m).1 ≠ none := by
  intro hnone
  obtain ⟨key, r, hkey, hr⟩ := (create_eq_none_iff t m).mp hnone
  obtain ⟨hmem, hrkey⟩ := (t.holder_eq_some_iff).mp hr
  rw [messageSchema_key] at hrkey
  cases htype : m.msgType with
  | priv => simp [NewMessage.dedupKey, MessageRow.dedupKey, NewMessage.toRow, htype, hout] at hkey
  | chan =>
      have hkey' : key = .channel m.conversationKey m.text timestamp := by
        simpa [NewMessage.dedupKey, MessageRow.dedupKey, NewMessage.toRow, htype, hts, eq_comm]
          using hkey
      subst hkey'
      have hstamp : r.HasStamp (⟨m.msgType, m.conversationKey, m.text⟩, timestamp) = true := by
        rw [hasStamp_iff, htype]
        unfold MessageRow.dedupKey at hrkey
        split at hrkey
        next hrtype =>
          simp only [Option.some.injEq, DedupKey.channel.injEq] at hrkey
          refine ⟨hrtype, hrkey.1, hrkey.2.1, ?_⟩
          cases hrts : r.senderTimestamp with
          | none =>
              rw [hrts, Option.getD_none] at hrkey
              omega
          | some n => rw [← hrkey.2.2, hrts, Option.getD_some]
        next => split at hrkey <;> simp at hrkey
      have hin := mem_storedIds.mpr ⟨r, hmem, hstamp, rfl⟩
      rw [h] at hin
      exact absurd hin List.not_mem_nil

end StoredIds

section Invariant

/-- What one send relies on: the lock it has, and the state of the stamp it works on. -/
structure Stamped (s : App) (l : SendPhase) : Prop where
  lock : l.locked = true → s.radioLock = true
  searches : ∀ k, l.work.searches = some k → l.locked = true ∧ 0 < k.2 ∧ k ∉ s.reservations
  probed : ∀ k, l.work = .probed k → storedIds s.messages k = []
  holds : ∀ k, l.work.holds = some k → 0 < k.2 ∧ k ∈ s.reservations
  held : ∀ k, l.work = .held k → storedIds s.messages k = []
  stored : ∀ k id, l.work = .stored k id → storedIds s.messages k = [id]

/-- Every send has what it relies on, one at most has the lock, no two hold one stamp, and a stamp
has at most one message unless it was stored before. -/
structure StampsUnique (before : MessageTable) (s : App) (ls : Nat → SendPhase) : Prop where
  stamped : ∀ i, Stamped s (ls i)
  locked : ∀ i j, (ls i).locked = true → (ls j).locked = true → i = j
  holds : ∀ i j k, (ls i).work.holds = some k → (ls j).work.holds = some k → i = j
  fresh : ∀ i k, (ls i).work.holds = some k → storedIds before k = []
  stored : ∀ k, if storedIds before k = [] then (storedIds s.messages k).length ≤ 1
    else storedIds s.messages k = storedIds before k

/-- The stamp that a send works on. -/
def StampWork.stamp : StampWork → Option Stamp
  | .none => Option.none
  | .checked k => some k
  | .probed k => some k
  | .held k => some k
  | .stored k _ => some k

/-- Before any send starts there is nothing to keep. -/
theorem stampsUnique_idle (s : App) : StampsUnique s.messages s fun _ => {} where
  stamped _ := ⟨nofun, nofun, nofun, nofun, nofun, nofun⟩
  locked _ _ h := nomatch h
  holds _ _ _ h := nomatch h
  fresh _ _ h := nomatch h
  stored k := by
    split
    next h => simp [h]
    next => rfl

variable {before : MessageTable} {s s' : App} {l : SendPhase} {ls : Nat → SendPhase} {i : Nat}

/-- A send keeps what it relies on when nothing it relies on changes. -/
theorem Stamped.frame (h : Stamped s l) (hlock : l.locked = true → s'.radioLock = true)
    (hsearches : ∀ k, l.work.searches = some k → k ∉ s'.reservations)
    (hholds : ∀ k, l.work.holds = some k → k ∈ s'.reservations)
    (hids : ∀ k, l.work.stamp = some k → storedIds s'.messages k = storedIds s.messages k) :
    Stamped s' l where
  lock := hlock
  searches k hk := ⟨(h.searches k hk).1, (h.searches k hk).2.1, hsearches k hk⟩
  probed k hk := (hids k (by rw [hk]; rfl)).trans (h.probed k hk)
  holds k hk := ⟨(h.holds k hk).1, hholds k hk⟩
  held k hk := (hids k (by rw [hk]; rfl)).trans (h.held k hk)
  stored k id hk := (hids k (by rw [hk]; rfl)).trans (h.stored k id hk)

/-- A call that touches no lock, no reservation and no stamp. -/
structure Untouched (s s' : App) : Prop where
  lock : s'.radioLock = s.radioLock
  reservations : s'.reservations = s.reservations
  ids : ∀ k, storedIds s'.messages k = storedIds s.messages k

theorem Untouched.stamped (h : Untouched s s') (hl : Stamped s l) : Stamped s' l :=
  hl.frame (fun hlocked => h.lock ▸ hl.lock hlocked)
    (fun k hk => h.reservations ▸ (hl.searches k hk).2.2)
    (fun k hk => h.reservations ▸ (hl.holds k hk).2) fun k _ => h.ids k

/-- The moving send replaces its own part of the invariant. -/
theorem StampsUnique.update (h : StampsUnique before s ls)
    (hmine : Stamped s' l) (hothers : ∀ j, j ≠ i → Stamped s' (ls j))
    (hlocked : l.locked = true → ∀ j, j ≠ i → (ls j).locked = false)
    (hholds : ∀ k, l.work.holds = some k →
      storedIds before k = [] ∧ ∀ j, j ≠ i → (ls j).work.holds ≠ some k)
    (hstored : ∀ k, if storedIds before k = [] then (storedIds s'.messages k).length ≤ 1
      else storedIds s'.messages k = storedIds before k) :
    StampsUnique before s' (Function.update ls i l) where
  stamped := by
    intro j
    by_cases hj : j = i
    · rw [hj, Function.update_self]
      exact hmine
    · rw [Function.update_of_ne hj]
      exact hothers j hj
  locked := by
    intro j j' hlock hlock'
    by_cases hj : j = i <;> by_cases hj' : j' = i
    · exact hj.trans hj'.symm
    · rw [hj, Function.update_self] at hlock
      rw [Function.update_of_ne hj', hlocked hlock j' hj'] at hlock'
      exact absurd hlock' (by decide)
    · rw [hj', Function.update_self] at hlock'
      rw [Function.update_of_ne hj, hlocked hlock' j hj] at hlock
      exact absurd hlock (by decide)
    · rw [Function.update_of_ne hj] at hlock
      rw [Function.update_of_ne hj'] at hlock'
      exact h.locked j j' hlock hlock'
  holds := by
    intro j j' k hk hk'
    by_cases hj : j = i <;> by_cases hj' : j' = i
    · exact hj.trans hj'.symm
    · rw [hj, Function.update_self] at hk
      rw [Function.update_of_ne hj'] at hk'
      exact absurd hk' ((hholds k hk).2 j' hj')
    · rw [hj', Function.update_self] at hk'
      rw [Function.update_of_ne hj] at hk
      exact absurd hk ((hholds k hk').2 j hj)
    · rw [Function.update_of_ne hj] at hk
      rw [Function.update_of_ne hj'] at hk'
      exact h.holds j j' k hk hk'
  fresh := by
    intro j k hk
    by_cases hj : j = i
    · rw [hj, Function.update_self] at hk
      exact (hholds k hk).1
    · rw [Function.update_of_ne hj] at hk
      exact h.fresh j k hk
  stored := hstored

/-- A call that touches nothing, by a send that stays in its phase. -/
theorem StampsUnique.untouched (h : StampsUnique before s ls) (hu : Untouched s s') :
    StampsUnique before s' ls where
  stamped j := hu.stamped (h.stamped j)
  locked := h.locked
  holds := h.holds
  fresh := h.fresh
  stored k := by
    rw [hu.ids k]
    exact h.stored k

/-- A search for a stamp only stands in the way of the send that makes it. -/
theorem StampsUnique.searches_unlocked (h : StampsUnique before s ls)
    (hlocked : (ls i).locked = true) {j : Nat} (hj : j ≠ i) {k : Stamp}
    (hk : (ls j).work.searches = some k) : False :=
  hj (h.locked j i ((h.stamped j).searches k hk).1 hlocked)

/-- No other send has the radio lock of a send that has it. -/
theorem StampsUnique.others_unlocked (h : StampsUnique before s ls)
    (hlocked : (ls i).locked = true) {j : Nat} (hj : j ≠ i) : (ls j).locked = false := by
  cases hlj : (ls j).locked with
  | false => rfl
  | true => exact absurd (h.locked j i hlj hlocked) hj

/-- The radio lock is taken by a send that works on nothing. -/
theorem StampsUnique.acquire (h : StampsUnique before s ls) (hfree : s.radioLock = false)
    (hwork : (ls i).work = .none) :
    StampsUnique before { s with radioLock := true }
      (Function.update ls i { ls i with locked := true }) := by
  have hunlocked : ∀ j, (ls j).locked = false := by
    intro j
    cases hj : (ls j).locked with
    | false => rfl
    | true => exact absurd ((h.stamped j).lock hj) (by simp [hfree])
  refine h.update ?_ ?_ (fun _ j _ => hunlocked j) ?_ h.stored
  · refine ⟨fun _ => rfl, ?_, ?_, ?_, ?_, ?_⟩ <;> simp [hwork, StampWork.searches, StampWork.holds]
  · intro j _
    have hs := h.stamped j
    exact hs.frame (fun hj => absurd hj (by simp [hunlocked j])) (fun k hk => (hs.searches k hk).2.2)
      (fun k hk => (hs.holds k hk).2) fun _ _ => rfl
  · intro k hk
    simp [hwork, StampWork.holds] at hk

/-- The radio lock is given back by a send that does not search. -/
theorem StampsUnique.releaseLock (h : StampsUnique before s ls) (hlocked : (ls i).locked = true)
    (hwork : (ls i).work.searches = none) :
    StampsUnique before { s with radioLock := false }
      (Function.update ls i { ls i with locked := false }) := by
  have hs := h.stamped i
  refine h.update ⟨fun hl => (nomatch hl), ?_, hs.probed, hs.holds, hs.held, hs.stored⟩ ?_
    (fun hl => (nomatch hl)) ?_ h.stored
  · intro k hk
    rw [hwork] at hk
    exact (nomatch hk)
  · intro j hj
    have hsj := h.stamped j
    exact hsj.frame (fun hl => absurd (h.locked j i hl hlocked) hj)
      (fun k hk => (hsj.searches k hk).2.2) (fun k hk => (hsj.holds k hk).2) fun _ _ => rfl
  · intro k hk
    exact ⟨h.fresh i k hk, fun j hj hk' => hj (h.holds j i k hk' hk)⟩

/-- A search moves on without touching the process. -/
theorem StampsUnique.search (h : StampsUnique before s ls) (hlocked : (ls i).locked = true)
    {work : StampWork} (hmine : Stamped s { ls i with work := work }) (hholds : work.holds = none) :
    StampsUnique before s (Function.update ls i { ls i with work := work }) := by
  refine h.update hmine (fun j _ => h.stamped j) (fun _ _ hj => h.others_unlocked hlocked hj) ?_
    h.stored
  · intro k hk
    rw [hholds] at hk
    exact (nomatch hk)

/-- A stamp that is not reserved is looked for among the messages. -/
theorem StampsUnique.check (h : StampsUnique before s ls) (hlocked : (ls i).locked = true)
    {k : Stamp} (hpositive : 0 < k.2) (hfree : k ∉ s.reservations) :
    StampsUnique before s (Function.update ls i { ls i with work := .checked k }) := by
  refine h.search hlocked ⟨(h.stamped i).lock, ?_, ?_, ?_, ?_, ?_⟩ rfl
  · intro k' hk'
    obtain rfl := Option.some.inj hk'
    exact ⟨hlocked, hpositive, hfree⟩
  all_goals simp [StampWork.holds]

/-- A stamp that a message has is given up. -/
theorem StampsUnique.giveUp (h : StampsUnique before s ls) (hlocked : (ls i).locked = true) :
    StampsUnique before s (Function.update ls i { ls i with work := .none }) := by
  refine h.search hlocked ⟨(h.stamped i).lock, ?_, ?_, ?_, ?_, ?_⟩ rfl <;>
    simp [StampWork.searches, StampWork.holds]

/-- A stamp that no message has may be reserved. -/
theorem StampsUnique.probe (h : StampsUnique before s ls) (hlocked : (ls i).locked = true)
    {k : Stamp} (hwork : (ls i).work = .checked k) (hunstored : storedIds s.messages k = []) :
    StampsUnique before s (Function.update ls i { ls i with work := .probed k }) := by
  have hs := h.stamped i
  refine h.search hlocked ⟨hs.lock, ?_, ?_, ?_, ?_, ?_⟩ rfl
  · intro k' hk'
    obtain rfl := Option.some.inj hk'
    exact hs.searches k (by rw [hwork]; rfl)
  · intro k' hk'
    obtain rfl := StampWork.probed.inj hk'
    exact hunstored
  all_goals simp [StampWork.holds]

/-- The stamp that was found free is reserved. -/
theorem StampsUnique.reserve (h : StampsUnique before s ls) (hlocked : (ls i).locked = true)
    {k : Stamp} (hwork : (ls i).work = .probed k) :
    StampsUnique before { s with reservations := k :: s.reservations }
      (Function.update ls i { ls i with work := .held k }) := by
  have hs := h.stamped i
  have hsearch := hs.searches k (by rw [hwork]; rfl)
  refine h.update ⟨hs.lock, fun _ hk => (nomatch hk), fun _ hk => (nomatch hk), ?_, ?_,
    fun _ _ hk => (nomatch hk)⟩ ?_ (fun _ _ hj => h.others_unlocked hlocked hj) ?_ h.stored
  · intro k' hk'
    obtain rfl := Option.some.inj hk'
    exact ⟨hsearch.2.1, List.mem_cons_self⟩
  · intro k' hk'
    obtain rfl := StampWork.held.inj hk'
    exact hs.probed k hwork
  · intro j hj
    have hsj := h.stamped j
    exact hsj.frame hsj.lock (fun k' hk' => (h.searches_unlocked hlocked hj hk').elim)
      (fun k' hk' => List.mem_cons_of_mem _ (hsj.holds k' hk').2) fun _ _ => rfl
  · intro k' hk'
    obtain rfl := Option.some.inj hk'
    refine ⟨?_, fun j hj hkj => hsearch.2.2 ((h.stamped j).holds k hkj).2⟩
    have hstored := h.stored k
    split at hstored
    next hbefore => exact hbefore
    next => exact hstored.symm.trans (hs.probed k hwork)

/-- Another send that works on the stamp of a send that holds it does not exist. -/
theorem StampsUnique.stamp_ne (h : StampsUnique before s ls) {k : Stamp}
    (hk : (ls i).work.holds = some k) {j : Nat} (hj : j ≠ i) :
    (ls j).work.stamp ≠ some k := by
  intro hstamp
  have hreserved := ((h.stamped i).holds k hk).2
  have hsj := h.stamped j
  cases hwork : (ls j).work with
  | none => simp [hwork, StampWork.stamp] at hstamp
  | checked k' =>
      rw [hwork] at hstamp
      obtain rfl := Option.some.inj hstamp
      exact (hsj.searches k' (by rw [hwork]; rfl)).2.2 hreserved
  | probed k' =>
      rw [hwork] at hstamp
      obtain rfl := Option.some.inj hstamp
      exact (hsj.searches k' (by rw [hwork]; rfl)).2.2 hreserved
  | held k' =>
      rw [hwork] at hstamp
      obtain rfl := Option.some.inj hstamp
      exact hj (h.holds j i k' (by rw [hwork]; rfl) hk)
  | stored k' id =>
      rw [hwork] at hstamp
      obtain rfl := Option.some.inj hstamp
      exact hj (h.holds j i k' (by rw [hwork]; rfl) hk)

/-- A send changes the messages of the stamp that it holds. -/
theorem StampsUnique.write (h : StampsUnique before s ls) {k : Stamp}
    (hk : (ls i).work.holds = some k) {messages : MessageTable} {rawPackets : RawPacketTable}
    {work : StampWork} (hwork : work.holds = some k)
    (hsearches : work.searches = none)
    (hheld : ∀ k', work = .held k' → storedIds messages k' = [])
    (hstored : ∀ k' id, work = .stored k' id → storedIds messages k' = [id])
    (hone : (storedIds messages k).length ≤ 1)
    (hothers : ∀ k', k' ≠ k → storedIds messages k' = storedIds s.messages k') :
    StampsUnique before { s with messages := messages, rawPackets := rawPackets }
      (Function.update ls i { ls i with work := work }) := by
  have hs := h.stamped i
  refine h.update ⟨hs.lock, ?_, ?_, ?_, hheld, hstored⟩ ?_ ?_ ?_ ?_
  · intro k' hk'
    rw [show ({ ls i with work := work } : SendPhase).work.searches = none from hsearches] at hk'
    exact (nomatch hk')
  · rintro k' rfl
    exact (nomatch hsearches)
  · intro k' hk'
    obtain rfl : k = k' := Option.some.inj (hwork.symm.trans hk')
    exact hs.holds k hk
  · intro j hj
    have hsj := h.stamped j
    refine hsj.frame hsj.lock (fun k' hk' => (hsj.searches k' hk').2.2)
      (fun k' hk' => (hsj.holds k' hk').2) fun k' hk' => hothers k' ?_
    rintro rfl
    exact h.stamp_ne hk hj hk'
  · exact fun hl j hj => h.others_unlocked hl hj
  · intro k' hk'
    obtain rfl : k = k' := Option.some.inj (hwork.symm.trans hk')
    exact ⟨h.fresh i k hk, fun j hj hkj => hj (h.holds j i k hkj hk)⟩
  · intro k'
    by_cases heq : k' = k
    · subst heq
      rw [if_pos (h.fresh i k' hk)]
      exact hone
    · have hold := h.stored k'
      rw [← hothers k' heq] at hold
      exact hold

/-- The message of a send is stored under the stamp that it holds, and gets a rowid. -/
theorem StampsUnique.create (h : StampsUnique before s ls) {m : NewMessage} {timestamp : Int}
    (hts : m.senderTimestamp = some timestamp) (hout : m.outgoing = true)
    (hwork : (ls i).work = .held (⟨m.msgType, m.conversationKey, m.text⟩, timestamp)) :
    ∃ id, (MessageRepository.create s.messages m).1 = some id ∧
      StampsUnique before { s with messages := (MessageRepository.create s.messages m).2 }
        (Function.update ls i { ls i with
          work := .stored (⟨m.msgType, m.conversationKey, m.text⟩, timestamp) id }) := by
  have hs := h.stamped i
  have hunstored := hs.held _ hwork
  have hholds : (ls i).work.holds =
      some (⟨m.msgType, m.conversationKey, m.text⟩, timestamp) := by
    rw [hwork]
    rfl
  obtain ⟨id, hid⟩ := Option.ne_none_iff_exists'.mp
    (create_of_unstored hts (hs.holds _ hholds).1 hout hunstored)
  have hids := storedIds_create hid
  have hmine : (m.toRow id).HasStamp (⟨m.msgType, m.conversationKey, m.text⟩, timestamp) = true :=
    hasStamp_iff.mpr ⟨rfl, rfl, rfl, hts⟩
  have hnew : storedIds (MessageRepository.create s.messages m).2
      (⟨m.msgType, m.conversationKey, m.text⟩, timestamp) = [id] := by
    rw [hids, if_pos hmine, hunstored, List.nil_append]
  refine ⟨id, hid, h.write hholds rfl rfl (fun _ hk => (nomatch hk)) ?_ ?_ ?_⟩
  · intro k' id' hk
    obtain ⟨rfl, rfl⟩ := StampWork.stored.inj hk
    exact hnew
  · rw [hnew]
    exact le_rfl
  · intro k' hk
    rw [hids, if_neg]
    exact fun hother => hk (hasStamp_unique hother hmine)

/-- A reservation is given back. -/
theorem StampsUnique.releaseStamp (h : StampsUnique before s ls) {k : Stamp}
    (hk : (ls i).work.holds = some k) :
    StampsUnique before { s with reservations := s.reservations.filter fun r => r ≠ k }
      (Function.update ls i { ls i with work := .none }) := by
  have hs := h.stamped i
  refine h.update ⟨hs.lock, fun _ h => (nomatch h), fun _ h => (nomatch h), fun _ h => (nomatch h),
    fun _ h => (nomatch h), fun _ _ h => (nomatch h)⟩ ?_ ?_ (fun _ h => (nomatch h)) h.stored
  · intro j hj
    have hsj := h.stamped j
    refine hsj.frame hsj.lock (fun k' hk' hmem => ?_) (fun k' hk' => ?_) fun _ _ => rfl
    · exact (hsj.searches k' hk').2.2 (List.mem_of_mem_filter hmem)
    · rw [List.mem_filter]
      refine ⟨(hsj.holds k' hk').2, ?_⟩
      simp only [ne_eq, decide_eq_true_eq]
      rintro rfl
      exact hj (h.holds j i _ hk' hk)
  · exact fun hl j hj => h.others_unlocked hl hj

/-- The calls that touch no lock, no reservation and no stamp. -/
def Op.touchesNoStamp : Op → Bool
  | .radio _ | .reportError _ | .getSettings | .getAckAndPaths _ | .updateLastContacted ..
  | .incrementAckCount _ | .registerAck .. => true
  | _ => false

theorem untouched_of_op {sha256 : Bytes → Bytes} {op : Op} {x : op.Ans}
    (hop : op.touchesNoStamp = true) (h : process sha256 op s x s') : Untouched s s' := by
  obtain ⟨c, hc⟩ := h
  cases op <;> simp only [Op.touchesNoStamp, reduceCtorEq] at hop <;>
    simp only [perform, Option.some.injEq, Prod.mk.injEq] at hc <;> obtain ⟨-, rfl⟩ := hc
  case incrementAckCount id => exact ⟨rfl, rfl, fun k => storedIds_incrementAckCount _ id k⟩
  all_goals exact ⟨rfl, rfl, fun _ => rfl⟩

/-- One call of a send, where its phase allows it, keeps the stamps unique. -/
theorem stampsUnique_app {sha256 : Bytes → Bytes} {op : Op} {x : op.Ans}
    (h : StampsUnique before s ls) (hallowed : (ls i).AllowsApp op)
    (hx : process sha256 op s x s') :
    StampsUnique before s' (Function.update ls i ((ls i).afterApp op x)) := by
  have hs := h.stamped i
  have hstay : ∀ {op : Op} {x : op.Ans}, process sha256 op s x s' → op.touchesNoStamp = true →
      StampsUnique before s' (Function.update ls i (ls i)) := by
    intro op x hx hop
    rw [Function.update_eq_self]
    exact h.untouched (untouched_of_op hop hx)
  have hsame : StampsUnique before s (Function.update ls i (ls i)) := by
    rwa [Function.update_eq_self]
  cases op with
  | acquireRadio =>
      obtain ⟨hunlocked, hwork⟩ := hallowed
      obtain ⟨c, hc⟩ := hx
      simp only [perform] at hc
      split at hc
      next =>
        split at hc
        next => simp at hc
        next hfree =>
          simp only [Option.some.injEq, Prod.mk.injEq] at hc
          obtain ⟨rfl, rfl⟩ := hc
          exact h.acquire (by simpa using hfree) hwork
      next refused hrefused =>
        simp only [Option.some.injEq, Prod.mk.injEq] at hc
        obtain ⟨rfl, rfl⟩ := hc
        rw [SendPhase.afterApp, if_neg (fun hgrant => hrefused hgrant)]
        exact hsame
  | releaseRadio =>
      obtain ⟨hlocked, hwork⟩ := hallowed
      obtain ⟨c, hc⟩ := hx
      simp only [perform, Option.some.injEq, Prod.mk.injEq] at hc
      obtain ⟨-, rfl⟩ := hc
      exact h.releaseLock hlocked hwork
  | isReserved key timestamp =>
      obtain ⟨hlocked, hwork, hpositive⟩ := hallowed
      obtain ⟨rfl, rfl⟩ := process_isReserved.mp hx
      simp only [SendPhase.afterApp]
      split
      next => exact hsame
      next hfree => exact h.check hlocked hpositive (by simpa using hfree)
  | getByContent msgType conversationKey text senderTimestamp outgoing =>
      obtain ⟨rfl, rfl⟩ := process_getByContent.mp hx
      cases senderTimestamp with
      | none => exact hallowed.elim
      | some timestamp =>
          cases outgoing with
          | some outgoing => exact hallowed.elim
          | none =>
              obtain ⟨hlocked, hwork⟩ := hallowed
              simp only [SendPhase.afterApp]
              split
              next => exact h.giveUp hlocked
              next hmissing =>
                refine h.probe hlocked hwork ?_
                by_contra hne
                exact hmissing (getByContent_isSome_iff.mpr hne)
  | reserve key timestamp =>
      obtain ⟨hlocked, hwork⟩ := hallowed
      have hsearch := hs.searches _ (by rw [hwork]; rfl)
      rw [process_reserve, if_neg hsearch.2.2] at hx
      obtain ⟨rfl, rfl⟩ := hx
      exact h.reserve hlocked hwork
  | createMessage m =>
      obtain ⟨timestamp, hts, hout, hwork⟩ := hallowed
      obtain ⟨rfl, rfl⟩ := process_createMessage.mp hx
      obtain ⟨id, hid, hcreated⟩ := h.create hts hout hwork
      simp only [SendPhase.afterApp, hid, hts, Option.getD_some]
      exact hcreated
  | releaseReservation key timestamp =>
      obtain ⟨c, hc⟩ := hx
      simp only [perform, Option.some.injEq, Prod.mk.injEq] at hc
      obtain ⟨-, rfl⟩ := hc
      exact h.releaseStamp hallowed
  | radio command => exact hstay hx rfl
  | reportError report => exact hstay hx rfl
  | getSettings => exact hstay hx rfl
  | getAckAndPaths id => exact hstay hx rfl
  | updateLastContacted publicKey timestamp => exact hstay hx rfl
  | incrementAckCount id => exact hstay hx rfl
  | registerAck ackCode messageId timeoutMs => exact hstay hx rfl
  | _ => exact hallowed.elim

theorem stampsUnique_step {sha256 : Bytes → Bytes} {op : SendOp} {x : op.Ans}
    (h : StampsUnique before s ls) (hallowed : (ls i).Allows op)
    (hx : sending sha256 op s x s') :
    StampsUnique before s' (Function.update ls i ((ls i).after op x)) := by
  obtain ⟨c, hc⟩ := hx
  cases op with
  | app op => exact stampsUnique_app h hallowed ⟨c.app, hc⟩
  | transmit op =>
      simp only [performSend, Option.some.injEq, Prod.mk.injEq] at hc
      obtain ⟨-, rfl⟩ := hc
      rw [SendPhase.after, Function.update_eq_self]
      exact h
  | deleteMessage id =>
      simp only [performSend, Option.some.injEq, Prod.mk.injEq] at hc
      obtain ⟨-, rfl⟩ := hc
      obtain ⟨k, hwork⟩ := hallowed
      have hids := storedIds_delete ((h.stamped i).stored k id hwork)
      simp only [SendPhase.after, hwork]
      refine h.write (by rw [hwork]; rfl) rfl rfl ?_ (fun _ _ hk => (nomatch hk)) ?_ ?_
      · intro k' hk
        obtain rfl := StampWork.held.inj hk
        rw [hids, if_pos rfl]
      · rw [hids, if_pos rfl]
        exact Nat.zero_le 1
      · intro k' hk
        rw [hids, if_neg hk]

end Invariant

end RemoteTerm
