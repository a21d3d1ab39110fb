import RemoteTerm.Decoder.Advert
import RemoteTerm.Library.Machine
import RemoteTerm.Repository.Contacts

/-!
# The processing of adverts

`_process_advertisement` looks for the contact of an advert, reads the settings when there is
none, and writes the contact. Adverts are processed at the same time, contacts are deleted and
seen meanwhile, and the settings change. The row of a contact is a summary of what has been
written of it, in whatever order the writes came.

## Implementation notes

The signature check and the decoding of a name are parameters. What follows the write, the
paths of the advert and the promotion of prefixes, has modules of its own. The lists of writes,
of created and of deleted contacts are read by no function.
-/

namespace RemoteTerm

open Library

namespace Adverts

/-- `verify_advert_signature`, and the name that `parse_advertisement` decodes. -/
structure Reader where
  verifyAdvertSignature : Bytes → Bool
  name : Bytes → Option Text

/-- What is written of an advert. -/
structure Advert where
  publicKey : Text
  name : Option Text
  deviceRole : Nat
  timestamp : Int
  deriving DecidableEq

/-- The checks of the packet. -/
def readAdvert (r : Reader) (payload : Bytes) (timestamp : Int) : Option Advert :=
  match parseAdvertisement payload with
  | none => none
  | some advert =>
      if r.verifyAdvertSignature payload then
        some ⟨advert.publicKey, r.name payload, advert.deviceRole, timestamp⟩
      else none

/-- `contact_type`. -/
def contactType (a : Advert) (existing : Option Contact) : Nat :=
  if a.deviceRole > 0 then a.deviceRole
  else
    match existing with
    | some c => c.type
    | none => 0

/-- `contact_upsert`. -/
def contactUpsert (a : Advert) (type : Nat) : ContactUpsert where
  publicKey := lower a.publicKey
  name := a.name
  type := type
  lastSeen := some a.timestamp
  firstSeen := some a.timestamp

/-- The call that a task makes next. -/
inductive Stage where
  | getByKey
  | getSettings
  | upsert (known : Bool) (type : Nat)
  deriving DecidableEq

/-- A run of `_process_advertisement`. -/
structure AdvertTask where
  advert : Advert
  stage : Stage := .getByKey
  deriving DecidableEq

structure State where
  contacts : ContactTable := .empty
  discoveryBlockedTypes : List Nat := []
  tasks : List AdvertTask := []
  writes : Text → List ContactUpsert := fun _ => []
  created : List (Text × Nat) := []
  deleted : List Text := []

inductive Event where
  | heard (payload : Bytes) (timestamp : Int)
  | step (task : AdvertTask)
  | delete (publicKey : Text)
  | touch (publicKey : Text) (timestamp : Int)
  | block (types : List Nat)

namespace State

/-- The keys of the contacts. -/
def keys (p : State) : List Text := p.contacts.rows.map Contact.publicKey

/-- A task that goes on, or ends. -/
def goOn (p : State) (task : AdvertTask) (next : Option Stage) : State :=
  { p with tasks := p.tasks.erase task ++ (next.map fun stage => ⟨task.advert, stage⟩).toList }

/-- The writes with one more for a key. -/
def wrote (p : State) (u : ContactUpsert) (k : Text) : List ContactUpsert :=
  if k = lower u.publicKey then u :: p.writes k else p.writes k

/-- The upsert of a contact. -/
def upsert (p : State) (u : ContactUpsert) : State :=
  { p with
    contacts := ContactRepository.upsert p.contacts u
    writes := p.wrote u
    created :=
      if lower u.publicKey ∈ p.keys then p.created else (lower u.publicKey, u.type) :: p.created }

/-- A call of `_process_advertisement`. -/
def step (p : State) (task : AdvertTask) : State :=
  match task.stage with
  | .getByKey =>
      match ContactRepository.getByKey p.contacts (lower task.advert.publicKey) with
      | none => p.goOn task (some .getSettings)
      | some c => p.goOn task (some (.upsert true (contactType task.advert (some c))))
  | .getSettings =>
      let type := contactType task.advert none
      if type > 0 ∧ type ∈ p.discoveryBlockedTypes then p.goOn task none
      else p.goOn task (some (.upsert false type))
  | .upsert _ type => (p.upsert (contactUpsert task.advert type)).goOn task none

/-- `touch_last_seen`. -/
def touch (p : State) (publicKey : Text) (timestamp : Int) : State :=
  { p with
    contacts := ContactRepository.touchLastSeen p.contacts publicKey timestamp
    writes :=
      if lower publicKey ∈ p.keys then
        p.wrote { publicKey := publicKey, lastSeen := some timestamp }
      else p.writes }

/-- `delete`. -/
def delete (p : State) (publicKey : Text) : State :=
  { p with
    contacts := ContactRepository.delete p.contacts publicKey
    writes := fun k => if k = lower publicKey then [] else p.writes k
    deleted := lower publicKey :: p.deleted }

def apply (r : Reader) (p : State) : Event → State
  | .heard payload timestamp =>
      match readAdvert r payload timestamp with
      | none => p
      | some advert => { p with tasks := p.tasks ++ [⟨advert, .getByKey⟩] }
  | .step task => p.step task
  | .delete publicKey => p.delete publicKey
  | .touch publicKey timestamp => p.touch publicKey timestamp
  | .block types => { p with discoveryBlockedTypes := types }

/-- A task that runs is one that was started. -/
def Allowed (p : State) : Event → Prop
  | .step task => task ∈ p.tasks
  | _ => True

/-- A type stays blocked. -/
def KeepsBlocked (b : Nat) (p : State) (e : Event) : Prop :=
  p.Allowed e ∧ ∀ types, e = .block types → b ∈ types

end State

/-- A run of the processing. -/
def Run (r : Reader) (s t : State) : Prop := Machine (State.apply r) State.Allowed s t

/-- A run in which a type stays blocked. -/
def BlockedRun (r : Reader) (b : Nat) (s t : State) : Prop :=
  Machine (State.apply r) (State.KeepsBlocked b) s t

/-- A row that summarises its writes, the newest first: the latest time, the time of the first
write, the last name and the last type. -/
structure Summarises (writes : List ContactUpsert) (c : Contact) : Prop where
  lastSeen : c.lastSeen = (writes.filterMap ContactUpsert.lastSeen).max?
  firstSeen : c.firstSeen = (writes.filterMap ContactUpsert.firstSeen).getLast?
  name : c.name = (writes.filterMap ContactUpsert.name).head?
  type : c.type = ((writes.map ContactUpsert.type).find? fun type => type ≠ 0).getD 0

namespace Summarises

theorem laterOf_max? (times : List Int) (t : Int) :
    ContactRepository.laterOf times.max? (some t) = (t :: times).max? := by
  rw [List.max?_cons]
  cases times.max? with
  | none => rfl
  | some s =>
      simp only [ContactRepository.laterOf, Option.elim_some]
      split
      · rw [max_eq_left (by omega)]
      · rw [max_eq_right (by omega)]

/-- One write of a row that is there. -/
theorem write {writes : List ContactUpsert} {c : Contact} (h : Summarises writes c)
    (u : ContactUpsert) : Summarises (u :: writes) (ContactRepository.mergeUpsert u c) where
  lastSeen := by
    change ContactRepository.laterOf c.lastSeen u.lastSeen = _
    rw [h.lastSeen]
    cases hu : u.lastSeen with
    | none =>
        rw [List.filterMap_cons_none hu]
        rfl
    | some t =>
        rw [List.filterMap_cons_some hu]
        exact laterOf_max? _ t
  firstSeen := by
    change (c.firstSeen <|> u.firstSeen) = _
    rw [h.firstSeen]
    cases hu : u.firstSeen with
    | none =>
        rw [List.filterMap_cons_none hu]
        cases (writes.filterMap ContactUpsert.firstSeen).getLast? <;> rfl
    | some t =>
        rw [List.filterMap_cons_some hu, List.getLast?_cons]
        cases (writes.filterMap ContactUpsert.firstSeen).getLast? <;> rfl
  name := by
    change (u.name <|> c.name) = _
    rw [h.name]
    cases hu : u.name with
    | none =>
        rw [List.filterMap_cons_none hu]
        rfl
    | some n =>
        rw [List.filterMap_cons_some hu]
        rfl
  type := by
    change (if u.type = 0 then c.type else u.type) = _
    rw [h.type, List.map_cons, List.find?_cons]
    by_cases hu : u.type = 0
    · simp [hu]
    · simp [hu]

/-- The write that makes a row. -/
theorem fresh (u : ContactUpsert) (k : Text) :
    Summarises [u]
      { publicKey := k, name := u.name, type := u.type, lastSeen := u.lastSeen,
        lastContacted := u.lastContacted, firstSeen := u.firstSeen } where
  lastSeen := by cases hu : u.lastSeen <;> simp [hu]
  firstSeen := by cases hu : u.firstSeen <;> simp [hu]
  name := by cases hu : u.name <;> simp [hu]
  type := by by_cases hu : u.type = 0 <;> simp [hu]

end Summarises

/-! ### The rows -/

variable {r : Reader} {p q : State} {b : Nat}

theorem keys_update (t : ContactTable) (k : Text) (f : Contact → Contact)
    (hkey : ∀ c, (f c).publicKey = c.publicKey) :
    (t.update k f hkey).rows.map Contact.publicKey = t.rows.map Contact.publicKey := by
  simp only [ContactTable.update, List.map_map]
  refine List.map_congr_left fun c _ => ?_
  by_cases hc : c.publicKey = k <;> simp [hc, hkey]

theorem mem_update {t : ContactTable} {k : Text} (f : Contact → Contact)
    (hkey : ∀ c, (f c).publicKey = c.publicKey) {c : Contact}
    (hc : c ∈ (t.update k f hkey).rows) :
    (∃ c₀ ∈ t.rows, c₀.publicKey = k ∧ f c₀ = c) ∨ c ∈ t.rows ∧ c.publicKey ≠ k := by
  obtain ⟨c₀, hc₀, rfl⟩ := List.mem_map.mp hc
  by_cases hk : c₀.publicKey = k
  · rw [if_pos hk]
    exact .inl ⟨c₀, hc₀, hk, rfl⟩
  · rw [if_neg hk]
    exact .inr ⟨hc₀, hk⟩

theorem keys_upsert (t : ContactTable) (u : ContactUpsert) (k : Text) :
    k ∈ (ContactRepository.upsert t u).rows.map Contact.publicKey ↔
      k ∈ t.rows.map Contact.publicKey ∨ k = lower u.publicKey := by
  unfold ContactRepository.upsert
  split
  next hthere =>
    have hkeys := keys_update t (lower u.publicKey) (ContactRepository.mergeUpsert u) fun _ => rfl
    exact (Iff.of_eq (congrArg (k ∈ ·) hkeys)).trans
      ⟨.inl, fun hk => hk.elim id fun heq => heq ▸ hthere⟩
  next => simp

theorem keys_touch (p : State) (publicKey : Text) (timestamp : Int) :
    (p.touch publicKey timestamp).keys = p.keys :=
  keys_update p.contacts (lower publicKey)
    (fun c => { c with lastSeen := ContactRepository.laterOf c.lastSeen (some timestamp) })
    fun _ => rfl

/-- A touch is a write of the time alone. -/
theorem mergeUpsert_touch (c : Contact) (publicKey : Text) (timestamp : Int) :
    ContactRepository.mergeUpsert { publicKey := publicKey, lastSeen := some timestamp } c =
      { c with lastSeen := ContactRepository.laterOf c.lastSeen (some timestamp) } := by
  have hfirst : (c.firstSeen <|> none) = c.firstSeen := by cases c.firstSeen <;> rfl
  simp only [ContactRepository.mergeUpsert, hfirst]
  rfl

theorem mem_touch {publicKey : Text} {timestamp : Int} {c : Contact}
    (hc : c ∈ (p.touch publicKey timestamp).contacts.rows) :
    (∃ c₀ ∈ p.contacts.rows, c₀.publicKey = lower publicKey ∧
      ContactRepository.mergeUpsert { publicKey := publicKey, lastSeen := some timestamp } c₀ = c) ∨
        c ∈ p.contacts.rows ∧ c.publicKey ≠ lower publicKey := by
  refine (mem_update (fun c => { c with
    lastSeen := ContactRepository.laterOf c.lastSeen (some timestamp) }) (fun _ => rfl)
      hc).imp_left ?_
  rintro ⟨c₀, hc₀, hkey, heq⟩
  exact ⟨c₀, hc₀, hkey, (mergeUpsert_touch c₀ publicKey timestamp).trans heq⟩

/-- The rows summarise the writes; the first write of a contact gives both its times. -/
structure Shown (p : State) : Prop where
  summarises : ∀ c ∈ p.contacts.rows, Summarises (p.writes c.publicKey) c
  unwritten : ∀ k, k ∉ p.keys → p.writes k = []
  times : ∀ k, ∀ u ∈ p.writes k, ∀ t, u.firstSeen = some t → u.lastSeen = some t

theorem wrote_self (p : State) (u : ContactUpsert) :
    p.wrote u (lower u.publicKey) = u :: p.writes (lower u.publicKey) := if_pos rfl

theorem wrote_of_ne (p : State) {u : ContactUpsert} {k : Text} (hk : k ≠ lower u.publicKey) :
    p.wrote u k = p.writes k := if_neg hk

namespace Shown

theorem times_wrote (h : Shown p) {u : ContactUpsert}
    (hu : ∀ t, u.firstSeen = some t → u.lastSeen = some t) (k : Text) :
    ∀ v ∈ p.wrote u k, ∀ t, v.firstSeen = some t → v.lastSeen = some t := by
  intro v hv
  by_cases hk : k = lower u.publicKey
  · rw [hk, wrote_self] at hv
    rcases List.mem_cons.mp hv with rfl | hv
    · exact hu
    · exact h.times _ v hv
  · rw [wrote_of_ne p hk] at hv
    exact h.times k v hv

/-- A write on the row of its key. -/
theorem mem_merged (h : Shown p) {u : ContactUpsert} {c : Contact}
    (hc : (∃ c₀ ∈ p.contacts.rows, c₀.publicKey = lower u.publicKey ∧
      ContactRepository.mergeUpsert u c₀ = c) ∨
        c ∈ p.contacts.rows ∧ c.publicKey ≠ lower u.publicKey) :
    Summarises (p.wrote u c.publicKey) c := by
  rcases hc with ⟨c₀, hc₀, hkey, rfl⟩ | ⟨hc, hkey⟩
  · change Summarises (p.wrote u c₀.publicKey) _
    have hbefore := h.summarises c₀ hc₀
    rw [hkey, wrote_self]
    exact (hkey ▸ hbefore).write u
  · rw [wrote_of_ne p hkey]
    exact h.summarises c hc

theorem upsert (h : Shown p) {u : ContactUpsert}
    (hu : ∀ t, u.firstSeen = some t → u.lastSeen = some t) : Shown (p.upsert u) where
  summarises c hc := by
    change c ∈ (ContactRepository.upsert p.contacts u).rows at hc
    change Summarises (p.wrote u c.publicKey) c
    unfold ContactRepository.upsert at hc
    split at hc
    next => exact h.mem_merged (mem_update (ContactRepository.mergeUpsert u) (fun _ => rfl) hc)
    next habsent =>
      rcases List.mem_append.mp hc with hold | hnew
      · refine h.mem_merged (.inr ⟨hold, fun hkey => habsent ?_⟩)
        exact hkey ▸ List.mem_map_of_mem hold
      · rw [List.mem_singleton.mp hnew, wrote_self, h.unwritten _ habsent]
        exact Summarises.fresh u _
  unwritten k hk := by
    have hno := mt (keys_upsert p.contacts u k).mpr hk
    rw [not_or] at hno
    exact (wrote_of_ne p hno.2).trans (h.unwritten k hno.1)
  times := h.times_wrote hu

theorem touch (h : Shown p) (publicKey : Text) (timestamp : Int) :
    Shown (p.touch publicKey timestamp) := by
  have hkeys := keys_touch p publicKey timestamp
  by_cases hthere : lower publicKey ∈ p.keys
  · have hwrites : (p.touch publicKey timestamp).writes =
        p.wrote { publicKey := publicKey, lastSeen := some timestamp } := if_pos hthere
    refine ⟨fun c hc => ?_, fun k hk => ?_, fun k => ?_⟩
    · rw [hwrites]
      exact h.mem_merged (mem_touch hc)
    · rw [hkeys] at hk
      rw [hwrites]
      have hne : k ≠ lower publicKey := fun heq => hk (heq ▸ hthere)
      exact (wrote_of_ne p (u := { publicKey := publicKey, lastSeen := some timestamp }) hne).trans
        (h.unwritten k hk)
    · rw [hwrites]
      exact h.times_wrote (fun t ht => by cases ht) k
  · have hwrites : (p.touch publicKey timestamp).writes = p.writes := if_neg hthere
    refine ⟨fun c hc => ?_, fun k hk => ?_, fun k => ?_⟩
    · rw [hwrites]
      rcases mem_touch hc with ⟨c₀, hc₀, hkey, -⟩ | ⟨hold, -⟩
      · exact absurd (hkey ▸ List.mem_map_of_mem hc₀) hthere
      · exact h.summarises c hold
    · rw [hwrites]
      exact h.unwritten k (hkeys ▸ hk)
    · rw [hwrites]
      exact h.times k

theorem delete (h : Shown p) (publicKey : Text) : Shown (p.delete publicKey) where
  summarises c hc := by
    obtain ⟨hc, hne⟩ := List.mem_filter.mp hc
    change Summarises (if c.publicKey = lower publicKey then [] else p.writes c.publicKey) c
    rw [if_neg (of_decide_eq_true hne)]
    exact h.summarises c hc
  unwritten k hk := by
    change (if k = lower publicKey then [] else p.writes k) = []
    split
    · rfl
    next hne =>
      refine h.unwritten k fun hmem => hk ?_
      obtain ⟨c, hc, rfl⟩ := List.mem_map.mp hmem
      exact List.mem_map_of_mem (List.mem_filter.mpr ⟨hc, decide_eq_true hne⟩)
  times k := by
    change ∀ u ∈ (if k = lower publicKey then [] else p.writes k), _
    split
    · exact fun u hu => (by cases hu)
    · exact h.times k

/-- The tasks are no part of the rows. -/
theorem goOn (h : Shown p) (task : AdvertTask) (next : Option Stage) :
    Shown (p.goOn task next) := ⟨h.summarises, h.unwritten, h.times⟩

theorem step (h : Shown p) (task : AdvertTask) : Shown (p.step task) := by
  unfold State.step
  cases task.stage with
  | getByKey =>
      simp only
      split
      · exact h.goOn ..
      · exact h.goOn ..
  | getSettings =>
      simp only
      split
      · exact h.goOn ..
      · exact h.goOn ..
  | upsert known type => exact (h.upsert fun _ ht => ht).goOn ..

theorem apply (h : Shown p) (e : Event) : Shown (p.apply r e) := by
  cases e with
  | heard payload timestamp =>
      simp only [State.apply]
      split
      · exact h
      · exact ⟨h.summarises, h.unwritten, h.times⟩
  | step task => exact h.step task
  | delete publicKey => exact h.delete publicKey
  | touch publicKey timestamp => exact h.touch publicKey timestamp
  | block types => exact ⟨h.summarises, h.unwritten, h.times⟩

end Shown

/-! ### The blocked types -/

/-- A task past its checks: its contact was there when it looked and may have been deleted
since, or its type was not blocked. -/
def TaskOk (b : Nat) (p : State) (task : AdvertTask) : Prop :=
  match task.stage with
  | .upsert true _ =>
      lower task.advert.publicKey ∈ p.keys ∨ lower task.advert.publicKey ∈ p.deleted
  | .upsert false type => type ≠ b
  | _ => True

theorem TaskOk.mono {task : AdvertTask} (h : TaskOk b p task)
    (hkeys : ∀ k, k ∈ p.keys ∨ k ∈ p.deleted → k ∈ q.keys ∨ k ∈ q.deleted) : TaskOk b q task := by
  unfold TaskOk at *
  split
  next heq =>
    rw [heq] at h
    exact hkeys _ h
  next heq =>
    rw [heq] at h
    exact h
  next => trivial

structure Guarded (b : Nat) (p : State) : Prop where
  blocked : b ∈ p.discoveryBlockedTypes
  tasks : ∀ task ∈ p.tasks, TaskOk b p task
  created : ∀ k, (k, b) ∈ p.created → k ∈ p.deleted

namespace Guarded

/-- A step that removes no contact without a deletion. -/
theorem of (h : Guarded b p) (hblocked : b ∈ q.discoveryBlockedTypes)
    (hkeys : ∀ k, k ∈ p.keys ∨ k ∈ p.deleted → k ∈ q.keys ∨ k ∈ q.deleted)
    (htasks : ∀ task ∈ q.tasks, task ∈ p.tasks ∨ TaskOk b q task)
    (hcreated : ∀ k, (k, b) ∈ q.created → k ∈ q.deleted) : Guarded b q where
  blocked := hblocked
  tasks task hmem := (htasks task hmem).elim (fun hold => (h.tasks task hold).mono hkeys) id
  created := hcreated

theorem goOn (h : Guarded b p) {task : AdvertTask} {next : Option Stage}
    (hnext : ∀ stage, next = some stage → TaskOk b p ⟨task.advert, stage⟩) :
    Guarded b (p.goOn task next) := by
  refine h.of h.blocked (fun _ hk => hk) (fun other hmem => ?_) h.created
  rcases List.mem_append.mp hmem with hold | hnew
  · exact .inl (List.mem_of_mem_erase hold)
  · cases next with
    | none => cases hnew
    | some stage =>
        have heq : other = ⟨task.advert, stage⟩ := List.mem_singleton.mp hnew
        exact .inr (heq ▸ hnext stage rfl)

theorem upsert (h : Guarded b p) {u : ContactUpsert}
    (hu : lower u.publicKey ∉ p.keys → u.type = b → lower u.publicKey ∈ p.deleted) :
    Guarded b (p.upsert u) := by
  refine h.of h.blocked (fun k hk => hk.imp_left fun hmem => ?_) (fun _ hmem => .inl hmem)
    (fun k hk => ?_)
  · exact (keys_upsert p.contacts u k).mpr (.inl hmem)
  · change (k, b) ∈ (if lower u.publicKey ∈ p.keys then p.created
      else (lower u.publicKey, u.type) :: p.created) at hk
    change k ∈ p.deleted
    split at hk
    · exact h.created k hk
    next habsent =>
      rcases List.mem_cons.mp hk with heq | hold
      · cases heq
        exact hu habsent rfl
      · exact h.created k hold

theorem step (h : Guarded b p) (hb : 0 < b) {task : AdvertTask} (hmem : task ∈ p.tasks) :
    Guarded b (p.step task) := by
  have hok := h.tasks task hmem
  unfold State.step
  cases hstage : task.stage with
  | getByKey =>
      simp only
      split
      · refine h.goOn fun stage heq => ?_
        cases heq
        trivial
      next c hc =>
        refine h.goOn fun stage heq => ?_
        cases heq
        have hkey := ContactRepository.getByKey_publicKey hc
        rw [lower_idem] at hkey
        exact .inl (hkey ▸ List.mem_map_of_mem (List.mem_of_find?_eq_some hc))
  | getSettings =>
      simp only
      split
      · exact h.goOn fun stage heq => (by cases heq)
      next hfree =>
        refine h.goOn fun stage heq => ?_
        cases heq
        intro htype
        exact hfree (htype ▸ ⟨hb, h.blocked⟩)
  | upsert known type =>
      refine Guarded.goOn (h.upsert fun habsent htype => ?_) fun stage heq => (by cases heq)
      change lower (lower task.advert.publicKey) ∉ p.keys at habsent
      change lower (lower task.advert.publicKey) ∈ p.deleted
      rw [lower_idem] at habsent ⊢
      unfold TaskOk at hok
      rw [hstage] at hok
      cases known with
      | true => exact hok.resolve_left habsent
      | false => exact absurd htype hok

theorem delete (h : Guarded b p) (publicKey : Text) : Guarded b (p.delete publicKey) := by
  refine h.of h.blocked (fun k hk => ?_) (fun _ hmem => .inl hmem)
    fun k hk => List.mem_cons_of_mem _ (h.created k hk)
  by_cases heq : k = lower publicKey
  · exact .inr (heq ▸ List.mem_cons_self)
  · refine hk.imp (fun hmem => ?_) (List.mem_cons_of_mem _)
    obtain ⟨c, hc, rfl⟩ := List.mem_map.mp hmem
    exact List.mem_map_of_mem (List.mem_filter.mpr ⟨hc, decide_eq_true heq⟩)

theorem apply (h : Guarded b p) (hb : 0 < b) (e : Event) (hok : p.KeepsBlocked b e) :
    Guarded b (p.apply r e) := by
  cases e with
  | heard payload timestamp =>
      simp only [State.apply]
      split
      · exact h
      · refine h.of h.blocked (fun _ hk => hk) (fun task hmem => ?_) h.created
        rcases List.mem_append.mp hmem with hold | hnew
        · exact .inl hold
        · rw [List.mem_singleton.mp hnew]
          exact .inr trivial
  | step task => exact h.step hb hok.1
  | delete publicKey => exact h.delete publicKey
  | touch publicKey timestamp =>
      have hkeys := keys_touch p publicKey timestamp
      exact h.of h.blocked (fun k hk => hkeys ▸ hk) (fun _ hmem => .inl hmem) h.created
  | block types => exact ⟨hok.2 types rfl, h.tasks, h.created⟩

end Guarded

/-- **A contact shows all that was written of it.** However the processing of adverts, the
deletions and the touches of contacts overlap, the row of a contact has the latest time, the
last name and the last type of all writes since it was made, and the time of the first write,
which is not after the latest. -/
theorem contacts_of_adverts {r : Reader} {p : State} (run : Run r {} p) :
    ∀ c ∈ p.contacts.rows, Summarises (p.writes c.publicKey) c ∧
      ∀ first, c.firstSeen = some first → ∃ last, c.lastSeen = some last ∧ first ≤ last := by
  have h : Shown p := run.invariant (fun _ e _ h => h.apply e)
    ⟨fun _ hc => (by cases hc), fun _ _ => rfl, fun _ _ hu => (by cases hu)⟩
  refine fun c hc => ⟨h.summarises c hc, fun first hfirst => ?_⟩
  rw [(h.summarises c hc).firstSeen] at hfirst
  obtain ⟨u, hu, hfirst⟩ := List.mem_filterMap.mp (List.mem_of_getLast? hfirst)
  have hmem : first ∈ (p.writes c.publicKey).filterMap ContactUpsert.lastSeen :=
    List.mem_filterMap.mpr ⟨u, hu, h.times _ u hu first hfirst⟩
  rw [(h.summarises c hc).lastSeen]
  cases hmax : ((p.writes c.publicKey).filterMap ContactUpsert.lastSeen).max? with
  | none =>
      rw [List.max?_eq_none_iff.mp hmax] at hmem
      cases hmem
  | some last => exact ⟨last, rfl, (List.max?_eq_some_iff.mp hmax).2 first hmem⟩

/-- Every signature is good, and there are no names. -/
def plainReader : Reader := ⟨fun _ => true, fun _ => none⟩

/-- The payload of an advert of a repeater. -/
def repeaterPayload : Bytes := List.replicate 100 0 ++ [2]

/-- The advert of the payload. -/
def repeaterAdvert (timestamp : Int) : Advert :=
  ⟨List.replicate 64 '0', none, 2, timestamp⟩

/-- The next call for the advert of a time. -/
def repeaterStep (timestamp : Int) (stage : Stage) : Event :=
  .step ⟨repeaterAdvert timestamp, stage⟩

/-- Two adverts of one repeater. -/
def heardTwice : State :=
  (({} : State).apply plainReader (.heard repeaterPayload 5)).apply plainReader
    (.heard repeaterPayload 7)

/-- The later advert is written first. -/
def overtaking : State :=
  (((((heardTwice.apply plainReader (repeaterStep 5 .getByKey)).apply plainReader
    (repeaterStep 7 .getByKey)).apply plainReader (repeaterStep 7 .getSettings)).apply plainReader
    (repeaterStep 5 .getSettings)).apply plainReader (repeaterStep 7 (.upsert false 2))).apply
      plainReader (repeaterStep 5 (.upsert false 2))

/-- The time of the later advert stays. -/
theorem contacts_of_adverts_overtaking :
    ∃ c ∈ overtaking.contacts.rows,
      c.firstSeen = some 7 ∧ ∃ last, c.lastSeen = some last ∧ 7 ≤ last := by
  have heard : Machine (State.apply plainReader) State.Allowed {} heardTwice :=
    (Machine.single (Event.heard _ _) trivial).tail (Event.heard _ _) trivial
  have run : Machine (State.apply plainReader) State.Allowed {} overtaking := by
    unfold overtaking
    refine (((((heard.tail (repeaterStep 5 _) ?_).tail (repeaterStep 7 _) ?_).tail
      (repeaterStep 7 _) ?_).tail (repeaterStep 5 _) ?_).tail (repeaterStep 7 _) ?_).tail
        (repeaterStep 5 _) ?_
    all_goals
      change _ ∈ State.tasks _
      decide
  have hrow : ∃ c ∈ overtaking.contacts.rows, c.firstSeen = some 7 := by decide
  obtain ⟨c, hc, hfirst⟩ := hrow
  exact ⟨c, hc, hfirst, (contacts_of_adverts run c hc).2 7 hfirst⟩

/-- **A blocked type makes no contact.** While a type stays blocked, whatever contacts there
are at first and however the processing of adverts overlaps, an advert makes a contact of this
type only if a contact of its key has been deleted. -/
theorem blocked_type_creates_none {r : Reader} {b : Nat} {start : ContactTable}
    {types : List Nat} {p : State} (hb : 0 < b) (hblocked : b ∈ types)
    (run : BlockedRun r b { contacts := start, discoveryBlockedTypes := types } p) :
    ∀ k, (k, b) ∈ p.created → k ∈ p.deleted := by
  have h : Guarded b p := run.invariant (fun _ e hok h => h.apply hb e hok)
    ⟨hblocked, fun _ hmem => (by cases hmem), fun _ hmem => (by cases hmem)⟩
  exact h.created

/-- The contact of the repeater. -/
def knownRepeater : ContactTable where
  rows := [{ publicKey := List.replicate 64 '0', type := 2 }]
  nodup := List.nodup_singleton _

/-- The contact is deleted while an advert of it is processed. -/
def deletedMeanwhile : State :=
  ((((⟨knownRepeater, [2], [], fun _ => [], [], []⟩ : State).apply plainReader
    (.heard repeaterPayload 5)).apply plainReader (repeaterStep 5 .getByKey)).apply plainReader
    (.delete (List.replicate 64 '0'))).apply plainReader (repeaterStep 5 (.upsert true 2))

/-- The advert makes the contact again. -/
theorem blocked_type_creates_none_deleted :
    (List.replicate 64 '0', 2) ∈ deletedMeanwhile.created ∧
      List.replicate 64 '0' ∈ deletedMeanwhile.deleted := by
  have run : Machine (State.apply plainReader) (State.KeepsBlocked 2)
      ⟨knownRepeater, [2], [], fun _ => [], [], []⟩ deletedMeanwhile :=
    (((Machine.single (Event.heard _ _) ⟨trivial, fun _ h => (by cases h)⟩).tail
      (repeaterStep 5 _) ⟨by change _ ∈ State.tasks _; decide, fun _ h => (by cases h)⟩).tail
      (Event.delete _) ⟨trivial, fun _ h => (by cases h)⟩).tail
      (repeaterStep 5 _) ⟨by change _ ∈ State.tasks _; decide, fun _ h => (by cases h)⟩
  have hcreated : (List.replicate 64 '0', 2) ∈ deletedMeanwhile.created := by decide
  exact ⟨hcreated, blocked_type_creates_none (by decide) (by decide) run _ hcreated⟩

end Adverts

end RemoteTerm
