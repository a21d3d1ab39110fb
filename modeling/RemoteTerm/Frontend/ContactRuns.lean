import RemoteTerm.Frontend.ContactList

/-!
# The contact list over whole runs

When every load that replaces the list is current, the list is the server's table
once all events are delivered. A load that reads all its pages from one ordering
of the table as it still is meets the condition.
-/

namespace RemoteTerm

open Library

namespace Frontend

variable {φ : Type}

section Keys

variable {rows : List (ListedContact φ)} {c : ListedContact φ} {key : Text}

theorem findContact_eq_none_iff :
    findContact rows key = none ↔ key ∉ rows.map ListedContact.publicKey := by
  unfold findContact
  rw [List.find?_eq_none, List.mem_map]
  constructor
  · rintro h ⟨c, hc, rfl⟩
    exact h c hc (decide_eq_true rfl)
  · intro h c hc heq
    exact h ⟨c, hc, of_decide_eq_true heq⟩

theorem findContact_eq_some_iff (hnodup : (rows.map ListedContact.publicKey).Nodup) :
    findContact rows key = some c ↔ c ∈ rows ∧ c.publicKey = key := by
  unfold findContact
  constructor
  · intro h
    exact ⟨List.mem_of_find?_eq_some h, by simpa using List.find?_some h⟩
  · rintro ⟨hc, hkey⟩
    cases hfind : rows.find? fun c => decide (c.publicKey = key) with
    | none =>
        exact absurd (decide_eq_true hkey) (List.find?_eq_none.mp hfind c hc)
    | some d =>
        have hd : d.publicKey = key := by simpa using List.find?_some hfind
        rw [List.inj_on_of_nodup_map hnodup (List.mem_of_find?_eq_some hfind) hc
          (hd.trans hkey.symm)]

/-- Lists with distinct keys that have the same contacts are permutations. -/
theorem perm_of_findContact {rows' : List (ListedContact φ)}
    (h : (rows.map ListedContact.publicKey).Nodup) (h' : (rows'.map ListedContact.publicKey).Nodup)
    (hfind : ∀ key, findContact rows key = findContact rows' key) : rows.Perm rows' := by
  refine (List.perm_ext_iff_of_nodup (List.Nodup.of_map _ h) (List.Nodup.of_map _ h')).mpr ?_
  intro c
  have hrows : findContact rows c.publicKey = some c ↔ _ := findContact_eq_some_iff h
  have hrows' : findContact rows' c.publicKey = some c ↔ _ := findContact_eq_some_iff h'
  rw [hfind c.publicKey] at hrows
  constructor
  · intro hc
    exact (hrows'.mp (hrows.mpr ⟨hc, rfl⟩)).1
  · intro hc
    exact (hrows.mp (hrows'.mpr ⟨hc, rfl⟩)).1

/-- The order of the rows does not matter where no key is there twice. -/
theorem findContact_of_perm {rows' : List (ListedContact φ)}
    (hnodup : (rows.map ListedContact.publicKey).Nodup) (hperm : rows.Perm rows') (key : Text) :
    findContact rows key = findContact rows' key := by
  have hnodup' := (hperm.map ListedContact.publicKey).nodup_iff.mp hnodup
  cases hfind : findContact rows' key with
  | none =>
      rw [findContact_eq_none_iff] at hfind ⊢
      exact fun hmem => hfind ((hperm.map _).mem_iff.mp hmem)
  | some c =>
      rw [findContact_eq_some_iff hnodup'] at hfind
      rw [findContact_eq_some_iff hnodup]
      exact ⟨hperm.mem_iff.mpr hfind.1, hfind.2⟩

theorem findContact_append_singleton (rows : List (ListedContact φ)) (c : ListedContact φ)
    (key : Text) :
    findContact (rows ++ [c]) key =
      (findContact rows key).or (if c.publicKey = key then some c else none) := by
  unfold findContact
  rw [List.find?_append]
  congr 1
  by_cases h : c.publicKey = key <;> simp [h]

theorem mem_keys_merge :
    key ∈ (mergeContactIntoList rows c).map ListedContact.publicKey ↔
      key = c.publicKey ∨ key ∈ rows.map ListedContact.publicKey := by
  have hiff := findContact_merge rows c key
  rw [← not_iff_not, ← findContact_eq_none_iff, hiff, not_or, ← findContact_eq_none_iff]
  split
  next hkey => simp [hkey]
  next hkey => simp [hkey]

theorem nodup_merge (h : (rows.map ListedContact.publicKey).Nodup) (c : ListedContact φ) :
    ((mergeContactIntoList rows c).map ListedContact.publicKey).Nodup := by
  induction rows with
  | nil => exact List.nodup_singleton _
  | cons d rows ih =>
      rw [List.map_cons, List.nodup_cons] at h
      rw [mergeContactIntoList]
      split
      next heq =>
        rw [List.map_cons, List.nodup_cons, ← heq]
        exact h
      next hne =>
        rw [List.map_cons, List.nodup_cons, mem_keys_merge, not_or]
        exact ⟨⟨hne, h.1⟩, ih h.2⟩

theorem nodup_without (h : (rows.map ListedContact.publicKey).Nodup) (gone : Text) :
    ((withoutContact rows gone).map ListedContact.publicKey).Nodup :=
  h.sublist (List.filter_sublist.map _)

theorem ContactEvent.nodup_applyTo (e : ContactEvent φ)
    (h : (rows.map ListedContact.publicKey).Nodup) :
    ((e.applyTo rows).map ListedContact.publicKey).Nodup := by
  cases e with
  | contact c => exact nodup_merge h c
  | contactResolved previous c => exact nodup_merge (nodup_without h previous) c
  | contactDeleted gone => exact nodup_without h gone

/-- Rewriting a row keeps the keys. -/
theorem keys_rewrite (rows : List (ListedContact φ)) (c : ListedContact φ) :
    (rows.map fun row => if row.publicKey = c.publicKey then c else row).map
        ListedContact.publicKey = rows.map ListedContact.publicKey := by
  rw [List.map_map]
  refine List.map_congr_left fun row _ => ?_
  rw [Function.comp_apply]
  split
  next heq => exact heq.symm
  next => rfl

theorem findContact_rewrite (hkey : key ≠ c.publicKey) :
    findContact (rows.map fun row => if row.publicKey = c.publicKey then c else row) key =
      findContact rows key := by
  induction rows with
  | nil => rfl
  | cons row rows ih =>
      rw [List.map_cons, findContact_cons, ih, findContact_cons]
      split
      next heq => rw [if_neg hkey.symm, if_neg (heq ▸ hkey.symm)]
      next => rfl

theorem findContact_rewrite_self (h : c.publicKey ∈ rows.map ListedContact.publicKey) :
    findContact (rows.map fun row => if row.publicKey = c.publicKey then c else row) c.publicKey =
      some c := by
  induction rows with
  | nil => cases h
  | cons row rows ih =>
      rw [List.map_cons, findContact_cons]
      split
      next heq => rw [if_pos rfl]
      next hne => exact ih ((List.mem_cons.mp h).resolve_left fun heq => hne heq.symm)

theorem findContact_upsert (rows : List (ListedContact φ)) (c : ListedContact φ) (key : Text) :
    findContact (ContactSync.upsert rows c) key =
      if key = c.publicKey then some c else findContact rows key := by
  unfold ContactSync.upsert
  split
  next hin =>
    split
    next heq =>
      rw [heq]
      exact findContact_rewrite_self hin
    next hne => exact findContact_rewrite hne
  next hout =>
    rw [findContact_append_singleton]
    by_cases hkey : key = c.publicKey
    · rw [if_pos hkey, if_pos hkey.symm, hkey, findContact_eq_none_iff.mpr hout]
      rfl
    · rw [if_neg hkey, if_neg fun h => hkey h.symm, Option.or_none]

theorem nodup_upsert (h : (rows.map ListedContact.publicKey).Nodup) (c : ListedContact φ) :
    ((ContactSync.upsert rows c).map ListedContact.publicKey).Nodup := by
  unfold ContactSync.upsert
  split
  next => rwa [keys_rewrite]
  next hout =>
    rw [List.map_append, List.map_singleton, ← List.concat_eq_append]
    exact h.concat hout

end Keys

section Latest

/-- What the last of the events about a key says of it. -/
def latest : List (ContactEvent φ) → Text → Option (Option (ListedContact φ))
  | [], _ => none
  | e :: rest, key =>
      match latest rest key with
      | some value => some value
      | none => if key ∈ e.keys then some (e.value key) else none

theorem latest_eq_none_iff {events : List (ContactEvent φ)} {key : Text} :
    latest events key = none ↔ ∀ e ∈ events, key ∉ e.keys := by
  induction events with
  | nil => exact iff_of_true rfl fun _ he => absurd he List.not_mem_nil
  | cons e rest ih =>
      rw [latest, List.forall_mem_cons, ← ih]
      cases latest rest key with
      | some value => simp
      | none => by_cases hkey : key ∈ e.keys <;> simp [hkey]

theorem latest_append (events : List (ContactEvent φ)) (e : ContactEvent φ) (key : Text) :
    latest (events ++ [e]) key =
      if key ∈ e.keys then some (e.value key) else latest events key := by
  induction events with
  | nil => rfl
  | cons first rest ih =>
      rw [List.cons_append, latest, ih, latest]
      by_cases hkey : key ∈ e.keys
      · rw [if_pos hkey, if_pos hkey]
      · rw [if_neg hkey, if_neg hkey]

end Latest

namespace ContactSync

variable {s : ContactSync φ}

/-- What holds in every state of a run. -/
structure Synced (s : ContactSync φ) : Prop where
  tableNodup : (s.table.map ListedContact.publicKey).Nodup
  contactsNodup : (s.contacts.map ListedContact.publicKey).Nodup
  announced : ∀ key value, latest s.pending key = some value → findContact s.table key = value
  current : s.loads ≠ [] ∨ s.Current s.contacts

/-- A change of the table that its event describes. -/
theorem Synced.change (h : s.Synced) {table : List (ListedContact φ)} {e : ContactEvent φ}
    (hnodup : (table.map ListedContact.publicKey).Nodup)
    (hfind : ∀ key, findContact table key =
      if key ∈ e.keys then e.value key else findContact s.table key) :
    (s.change table e).Synced := by
  refine ⟨hnodup, h.contactsNodup, fun key value hlatest => ?_,
    h.current.imp_right fun hcurrent => ?_⟩
  · change latest (s.pending ++ [e]) key = some value at hlatest
    rw [latest_append] at hlatest
    refine (hfind key).trans ?_
    split at hlatest
    next hkey =>
      rw [if_pos hkey]
      exact Option.some.inj hlatest
    next hkey =>
      rw [if_neg hkey]
      exact h.announced key value hlatest
  · refine ⟨hcurrent.nodup, fun key huntouched => ?_⟩
    have hkey : key ∉ e.keys := huntouched e (List.mem_append_right _ List.mem_cons_self)
    have hold := hcurrent.find key fun e' he' => huntouched e' (List.mem_append_left _ he')
    exact hold.trans ((hfind key).trans (if_neg hkey)).symm

/-- An event that is delivered. -/
theorem Synced.deliver (h : s.Synced) {e : ContactEvent φ} {rest : List (ContactEvent φ)}
    (hpending : s.pending = e :: rest) :
    ({ s with pending := rest, contacts := e.applyTo s.contacts } : ContactSync φ).Synced := by
  have hannounced := h.announced
  rw [hpending] at hannounced
  refine ⟨h.tableNodup, e.nodup_applyTo h.contactsNodup, fun key value hlatest => ?_,
    h.current.imp_right fun hcurrent => ⟨e.nodup_applyTo h.contactsNodup, fun key huntouched => ?_⟩⟩
  · refine hannounced key value ?_
    rw [latest, hlatest]
  · refine (e.findContact_applyTo s.contacts key).trans ?_
    have hlater : latest rest key = none := latest_eq_none_iff.mpr huntouched
    split
    next hkey =>
      refine (hannounced key (e.value key) ?_).symm
      rw [latest, hlater]
      exact if_pos hkey
    next hkey =>
      refine hcurrent.find key fun e' he' => ?_
      rw [hpending] at he'
      rcases List.mem_cons.mp he' with rfl | he'
      · exact hkey
      · exact huntouched e' he'

/-- The loads change, and the list stays. -/
theorem Synced.setLoads (h : s.Synced) {loads : List (ContactLoad φ)} (hloads : loads ≠ []) :
    ({ s with loads } : ContactSync φ).Synced :=
  ⟨h.tableNodup, h.contactsNodup, h.announced, Or.inl hloads⟩

theorem mem_rows_iff {l : ContactLoad φ} {c : ListedContact φ} :
    c ∈ l.rows ↔ ∃ i < l.requested, ∃ page ∈ l.answers i, c ∈ page := by
  simp only [ContactLoad.rows, List.mem_flatMap, List.mem_range]
  refine exists_congr fun i => and_congr_right fun _ => ?_
  cases l.answers i <;> simp

/-- Current pages make a current list. -/
theorem PagesCurrent.current {l : ContactLoad φ} (h : s.PagesCurrent l)
    (hnodup : (s.table.map ListedContact.publicKey).Nodup) : s.Current l.rows where
  nodup := h.nodup
  find key hkey := by
    cases hfind : findContact s.table key with
    | some c =>
        obtain ⟨hc, rfl⟩ := (findContact_eq_some_iff hnodup).mp hfind
        exact (findContact_eq_some_iff h.nodup).mpr ⟨mem_rows_iff.mpr (h.listed c hc hkey), rfl⟩
    | none =>
        rw [findContact_eq_none_iff] at hfind ⊢
        intro hmem
        obtain ⟨c, hc, rfl⟩ := List.mem_map.mp hmem
        obtain ⟨i, hi, page, hpage, hc⟩ := mem_rows_iff.mp hc
        exact hfind (List.mem_map_of_mem (h.stored i hi page hpage c hc hkey))

/-- Every action keeps the browser in step, when a load that replaces the list is current. -/
theorem Synced.apply (h : s.Synced) (a : ContactAction φ) (hcurrent : s.LoadCurrent a) :
    (s.apply a).Synced := by
  cases a with
  | insert c =>
      rw [ContactSync.apply]
      split
      next => exact h
      next hnew =>
        have hout : c.publicKey ∉ s.table.map ListedContact.publicKey := by
          simpa [has] using hnew
        have hupsert : upsert s.table c = s.table ++ [c] := if_neg hout
        refine h.change (hupsert ▸ nodup_upsert h.tableNodup c) fun key => ?_
        rw [← hupsert, findContact_upsert]
        simp only [ContactEvent.keys, List.mem_singleton, ContactEvent.value]
  | update c =>
      rw [ContactSync.apply]
      split
      next =>
        refine h.change (nodup_upsert h.tableNodup c) fun key => ?_
        rw [findContact_upsert]
        simp only [ContactEvent.keys, List.mem_singleton, ContactEvent.value]
      next => exact h
  | resolve previous c =>
      rw [ContactSync.apply]
      split
      next =>
        refine h.change (nodup_upsert (nodup_without h.tableNodup previous) c) fun key => ?_
        rw [findContact_upsert, findContact_without]
        simp only [ContactEvent.keys, List.mem_cons, List.not_mem_nil, or_false, ContactEvent.value]
        grind
      next => exact h
  | delete gone =>
      rw [ContactSync.apply]
      split
      next =>
        refine h.change (nodup_without h.tableNodup gone) fun key => ?_
        rw [findContact_without]
        simp only [ContactEvent.keys, List.mem_singleton, ContactEvent.value]
      next => exact h
  | deliver =>
      rw [ContactSync.apply]
      split
      next => exact h
      next e rest hpending => exact h.deliver hpending
  | startLoad => exact h.setLoads (by simp)
  | answer load page order =>
      rw [ContactSync.apply]
      split
      next => exact h
      next l hl =>
        split
        next =>
          refine h.setLoads fun hnil => ?_
          rw [List.set_eq_nil_iff] at hnil
          rw [hnil] at hl
          cases hl
        next => exact h
  | proceed load =>
      rw [ContactSync.apply]
      split
      next => exact h
      next l hl =>
        split
        next hanswered =>
          split
          next hend =>
            have hrows := (hcurrent l hl hanswered hend).current h.tableNodup
            exact ⟨h.tableNodup, hrows.nodup, h.announced, Or.inr ⟨hrows.nodup, hrows.find⟩⟩
          next =>
            refine h.setLoads fun hnil => ?_
            rw [List.set_eq_nil_iff] at hnil
            rw [hnil] at hl
            cases hl
        next => exact h

/-- A run under a condition on its actions. -/
abbrev Run (ok : ContactSync φ → ContactAction φ → Prop) : ContactSync φ → ContactSync φ → Prop :=
  Machine ContactSync.apply ok

/-- The browser stays in step in a run whose loads are current when they replace the list. -/
theorem Run.synced {table : List (ListedContact φ)}
    (hnodup : (table.map ListedContact.publicKey).Nodup) {t : ContactSync φ}
    (run : Run (fun s a => s.Served a ∧ s.LoadCurrent a) { table := table } t) : t.Synced := by
  refine run.invariant (fun s a hok h => h.apply a hok.2) ?_
  exact ⟨hnodup, List.nodup_nil, fun _ _ h => (by cases h), Or.inl (List.cons_ne_nil _ _)⟩

/-- A current list is the table when no events are on their way. -/
theorem Current.perm (h : s.Current s.contacts) (hpending : s.pending = [])
    (hnodup : (s.table.map ListedContact.publicKey).Nodup) : s.contacts.Perm s.table := by
  refine perm_of_findContact h.nodup hnodup fun key => h.find key fun e he => ?_
  rw [hpending] at he
  exact absurd he List.not_mem_nil

section Pages

/-- The first pages of an order hold its first rows. -/
theorem flatMap_pages (order : List (ListedContact φ)) (size count : Nat) :
    ((List.range count).flatMap fun i => (order.drop (i * size)).take size) =
      order.take (count * size) := by
  induction count with
  | zero => rw [Nat.zero_mul, List.take_zero, List.range_zero, List.flatMap_nil]
  | succ count ih =>
      rw [List.range_succ, List.flatMap_append, ih, List.flatMap_singleton, Nat.succ_mul,
        List.take_add]

/-- **A load is current** when all its pages are slices of one ordering of the table as it is. -/
theorem pagesCurrent_of_still {l : ContactLoad φ} {order : List (ListedContact φ)}
    (hnodup : (s.table.map ListedContact.publicKey).Nodup) (hperm : order.Perm s.table)
    (hrequested : 0 < l.requested)
    (hpages : ∀ i < l.requested,
      l.answers i = some ((order.drop (i * contactPageSize)).take contactPageSize))
    (hend : l.atEnd = true) : s.PagesCurrent l := by
  have hlast := hpages (l.requested - 1) (by omega)
  have hshort : ((order.drop ((l.requested - 1) * contactPageSize)).take contactPageSize).length <
      contactPageSize := by
    have hlt := of_decide_eq_true hend
    rw [hlast] at hlt
    exact hlt
  have hall : order.length ≤ l.requested * contactPageSize := by
    rw [List.length_take, List.length_drop] at hshort
    have hsplit : l.requested * contactPageSize =
        (l.requested - 1) * contactPageSize + contactPageSize := by
      rw [← Nat.succ_mul, Nat.succ_eq_add_one, Nat.sub_add_cancel hrequested]
    omega
  have hrows : l.rows = order := by
    calc l.rows = (List.range l.requested).flatMap fun i =>
          (order.drop (i * contactPageSize)).take contactPageSize := by
            refine List.flatMap_congr fun i hi => ?_
            rw [hpages i (List.mem_range.mp hi)]
            rfl
      _ = order.take (l.requested * contactPageSize) := flatMap_pages order _ _
      _ = order := List.take_of_length_le hall
  have hkeys : (order.map ListedContact.publicKey).Nodup := (hperm.map _).nodup_iff.mpr hnodup
  refine ⟨by rw [hrows]; exact hkeys, fun i hi page hpage c hc _ => ?_, fun c hc _ => ?_⟩
  · rw [← hperm.mem_iff, ← hrows]
    exact mem_rows_iff.mpr ⟨i, hi, page, hpage, hc⟩
  · rw [← hperm.mem_iff, ← hrows] at hc
    exact mem_rows_iff.mp hc

end Pages

section Broken

/-- All events are delivered. -/
theorem deliver_all (s : ContactSync φ) :
    (fun s => s.apply .deliver)^[s.pending.length] s =
      { s with
        pending := []
        contacts := s.pending.foldl (fun rows e => e.applyTo rows) s.contacts } := by
  obtain ⟨table, pending, loads, contacts⟩ := s
  induction pending generalizing contacts with
  | nil => rfl
  | cons e rest ih => exact ih (e.applyTo contacts)

/-- Events leave the contacts that they are not about. -/
theorem findContact_foldl {events : List (ContactEvent φ)} {key : Text}
    (h : ∀ e ∈ events, key ∉ e.keys) (rows : List (ListedContact φ)) :
    findContact (events.foldl (fun rows e => e.applyTo rows) rows) key = findContact rows key := by
  induction events generalizing rows with
  | nil => rfl
  | cons e rest ih =>
      obtain ⟨he, hrest⟩ := List.forall_mem_cons.mp h
      rw [List.foldl_cons, ih hrest, e.findContact_applyTo, if_neg he]

/-- A load with a wrong contact that no event on its way is about leaves a wrong list. -/
theorem wrong_after_load (hnodup : (s.table.map ListedContact.publicKey).Nodup)
    {l : ContactLoad φ} (hloads : s.loads = [l]) (hanswered : l.answered = true)
    (hend : l.atEnd = true) {key : Text} (huntouched : ∀ e ∈ s.pending, key ∉ e.keys)
    (hwrong : findContact l.rows key ≠ findContact s.table key) :
    let t := (fun s => s.apply .deliver)^[s.pending.length] (s.apply (.proceed 0))
    t.loads = [] ∧ t.pending = [] ∧ ¬ t.contacts.Perm t.table := by
  have hproceed : s.apply (.proceed 0) = { s with contacts := l.rows, loads := [] } := by
    rw [ContactSync.apply, hloads]
    dsimp only [List.getElem?_cons_zero]
    rw [if_pos hanswered, if_pos hend]
    rfl
  dsimp only
  rw [hproceed]
  have hall := deliver_all ({ s with contacts := l.rows, loads := [] } : ContactSync φ)
  dsimp only at hall
  rw [hall]
  refine ⟨rfl, rfl, fun hperm => hwrong ?_⟩
  dsimp only at hperm
  rw [← findContact_foldl huntouched l.rows]
  have hkeys := (hperm.map ListedContact.publicKey).nodup_iff.mpr hnodup
  exact findContact_of_perm hkeys hperm key

end Broken

end ContactSync

/-- **The contact list converges** to the server's table, in every run whose loads are current when
they replace the list. After a load that is wrong about a contact that no event on its way is about,
the list is wrong when all events are delivered. -/
theorem contacts_converge {table : List (ListedContact φ)}
    (hnodup : (table.map ListedContact.publicKey).Nodup) {t : ContactSync φ}
    (run : ContactSync.Run (fun s a => s.Served a ∧ s.LoadCurrent a) { table := table } t) :
    (t.loads = [] → t.pending = [] → t.contacts.Perm t.table) ∧
      ∀ l key, t.loads = [l] → l.answered = true → l.atEnd = true →
        (∀ e ∈ t.pending, key ∉ e.keys) → findContact l.rows key ≠ findContact t.table key →
        let u := (fun s => s.apply .deliver)^[t.pending.length] (t.apply (.proceed 0))
        u.loads = [] ∧ u.pending = [] ∧ ¬ u.contacts.Perm u.table := by
  have hsynced := run.synced hnodup
  refine ⟨fun hloads hpending => ?_, fun l key hloads hanswered hend huntouched hwrong => ?_⟩
  · exact (hsynced.current.resolve_left (not_not.mpr hloads)).perm hpending hsynced.tableNodup
  · exact ContactSync.wrong_after_load hsynced.tableNodup hloads hanswered hend huntouched hwrong

section Runs

/-- Two contacts. -/
def alice : ListedContact Unit := ⟨['a'], none, ()⟩

/-- The second one. -/
def bob : ListedContact Unit := ⟨['b'], none, ()⟩

/-- The server has one contact when the browser starts. -/
def aliceOnly : ContactSync Unit := { table := [alice] }

theorem aliceOnly_served : aliceOnly.Served (.answer 0 0 [alice]) :=
  ⟨List.Perm.refl _, List.pairwise_singleton _ _⟩

/-- The state after the answer to the first load. -/
def aliceAnswered : ContactSync Unit := aliceOnly.apply (.answer 0 0 [alice])

/-- The second contact is added while the answer is on its way. -/
def bobAdded : ContactSync Unit := aliceAnswered.apply (.insert bob)

/-- The load ends before the event is delivered, which adds what the load lacks. -/
theorem contacts_converge_alice :
    ((bobAdded.apply (.proceed 0)).apply .deliver).contacts.Perm [alice, bob] := by
  have hcurrent : bobAdded.LoadCurrent (.proceed 0) := by
    intro l hl _ _
    obtain rfl := Option.some.inj hl
    refine ⟨List.nodup_singleton _, ?_, ?_⟩
    · intro i hi page hpage c hc _
      obtain rfl : i = 0 := Nat.lt_one_iff.mp hi
      obtain rfl := Option.some.inj hpage
      exact List.mem_append_left _ hc
    · intro c hc huntouched
      rcases List.mem_pair.mp hc with rfl | rfl
      · exact ⟨0, Nat.one_pos, [alice], rfl, List.mem_singleton_self _⟩
      · exact absurd (List.mem_singleton_self _)
          (huntouched (.contact bob) (List.mem_singleton_self _))
  have hanswered : ContactSync.Run (fun s a => s.Served a ∧ s.LoadCurrent a) aliceOnly
      aliceAnswered :=
    Machine.tail (Machine.refl aliceOnly) (ContactAction.answer 0 0 [alice])
      ⟨aliceOnly_served, trivial⟩
  have hadded := hanswered.tail (.insert bob) ⟨trivial, trivial⟩
  have hproceeded := hadded.tail (.proceed 0) ⟨trivial, hcurrent⟩
  have hdelivered := hproceeded.tail .deliver ⟨trivial, trivial⟩
  have hdistinct : ([alice].map ListedContact.publicKey).Nodup := List.nodup_singleton _
  exact (contacts_converge hdistinct hdelivered).1 rfl rfl

/-- A contact that is added between the answer to a load and its end is lost. -/
theorem contact_lost_by_load :
    ∃ t, ContactSync.Run ContactSync.Served aliceOnly t ∧ t.loads = [] ∧ t.pending = [] ∧
      ¬ t.contacts.Perm t.table := by
  have hanswered : ContactSync.Run ContactSync.Served aliceOnly aliceAnswered :=
    Machine.tail (Machine.refl aliceOnly) (ContactAction.answer 0 0 [alice]) aliceOnly_served
  have hinserted := hanswered.tail (.insert bob) trivial
  have hdelivered := hinserted.tail .deliver trivial
  have hproceeded := hdelivered.tail (.proceed 0) trivial
  refine ⟨_, hproceeded, rfl, rfl, fun hperm => ?_⟩
  exact absurd hperm.length_eq (by decide)

end Runs

end Frontend

end RemoteTerm
