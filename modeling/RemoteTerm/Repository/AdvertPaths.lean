import RemoteTerm.Frontend.PathFraming
import RemoteTerm.Library.Sightings
import RemoteTerm.Library.Upsert

/-!
# The paths of adverts

`ContactAdvertPathRepository`: the paths that the adverts of a contact came over, cut down
after every advert to the paths that were heard last. What a row says of its last advert is
right over everything that was heard, also for a path that was cut away in between.

## Implementation notes

The rows of a contact are told apart by their unique columns, so that they have no rowid
here. In a run contacts are created and deleted and adverts are recorded. The promotion of a
prefix key is not part of it: adverts have full keys, and no row to move. A limit is a natural
number, while the source takes any integer.
-/

namespace RemoteTerm

open Library

/-- A row of `contact_advert_paths`. -/
structure AdvertPathRow where
  publicKey : Text
  pathHex : Text
  pathLen : Int
  firstSeen : Int
  lastSeen : Int
  heardCount : Nat
  deriving DecidableEq

/-- The arguments of `record_observation` beside its bound. -/
structure AdvertObservation where
  publicKey : Text
  pathHex : Text
  timestamp : Int
  hopCount : Option Int

/-- The row that an observation inserts. -/
def AdvertObservation.row (o : AdvertObservation) : AdvertPathRow where
  publicKey := lower o.publicKey
  pathHex := lower o.pathHex
  pathLen := o.hopCount.getD ((lower o.pathHex).length / 2 : Nat)
  firstSeen := o.timestamp
  lastSeen := o.timestamp
  heardCount := 1

namespace AdvertPathRow

/-- The unique columns beside the key of the contact. -/
def path (r : AdvertPathRow) : Text × Int := (r.pathHex, r.pathLen)

/-- `ORDER BY last_seen DESC, heard_count DESC, path_len ASC, path_hex ASC`. -/
def recency (r : AdvertPathRow) : Intᵒᵈ ×ₗ Natᵒᵈ ×ₗ Int ×ₗ Text :=
  toLex (OrderDual.toDual r.lastSeen, toLex (OrderDual.toDual r.heardCount,
    toLex (r.pathLen, r.pathHex)))

/-- `ON CONFLICT(public_key, path_hex, path_len) DO UPDATE`. -/
def touch (excluded r : AdvertPathRow) : AdvertPathRow :=
  if r.publicKey = excluded.publicKey ∧ r.path = excluded.path then
    { r with
      lastSeen := max r.lastSeen excluded.lastSeen
      heardCount := r.heardCount + 1 }
  else r

@[simp] theorem touch_publicKey (e r : AdvertPathRow) : (touch e r).publicKey = r.publicKey := by
  unfold touch; split <;> rfl

@[simp] theorem touch_path (e r : AdvertPathRow) : (touch e r).path = r.path := by
  unfold touch; split <;> rfl

theorem touch_of_not {e r : AdvertPathRow}
    (h : ¬(r.publicKey = e.publicKey ∧ r.path = e.path)) : touch e r = r := if_neg h

/-- The order goes by the last advert first. -/
theorem lastSeen_le_of_recency_lt {a b : AdvertPathRow} (h : a.recency < b.recency) :
    b.lastSeen ≤ a.lastSeen := by
  rcases Prod.Lex.lt_iff.mp h with hlt | ⟨heq, -⟩
  · exact (OrderDual.toDual_lt_toDual.mp hlt).le
  · exact (OrderDual.toDual_inj.mp heq).ge

theorem path_of_recency {a b : AdvertPathRow} (h : a.recency = b.recency) : a.path = b.path := by
  have hlast := congrArg (fun k => (ofLex (ofLex (ofLex k).2).2)) h
  exact Prod.ext (congrArg Prod.snd hlast) (congrArg Prod.fst hlast)

end AdvertPathRow

/-- The keys of the contacts, and the rows of their paths. -/
structure AdvertPaths where
  contacts : List Text := []
  rows : List AdvertPathRow := []

/-- What changes the table. -/
inductive AdvertPathOp where
  | upsert (publicKey : Text)
  | delete (publicKey : Text)
  | observe (o : AdvertObservation)

namespace AdvertPaths

open AdvertPathRow

/-- The rows of a contact. -/
def ofContact (t : AdvertPaths) (publicKey : Text) : List AdvertPathRow :=
  t.rows.filter fun r => r.publicKey = publicKey

/-- The insert of `record_observation`. A row without a contact is an integrity error. -/
def insertPath (t : AdvertPaths) (excluded : AdvertPathRow) : Option AdvertPaths :=
  if ∃ r ∈ t.rows, r.publicKey = excluded.publicKey ∧ r.path = excluded.path then
    some { t with rows := t.rows.map (touch excluded) }
  else if excluded.publicKey ∈ t.contacts then
    some { t with rows := t.rows ++ [excluded] }
  else none

/-- The deletion of `record_observation`. -/
def prune (t : AdvertPaths) (publicKey : Text) (maxPaths : Nat) : AdvertPaths :=
  { t with
    rows := t.rows.filter fun r => !(r.publicKey = publicKey ∧
      r ∉ (orderBy recency (t.ofContact publicKey)).take maxPaths) }

/-- The bound that `record_observation` uses. -/
def pathLimit (maxPaths : Int) : Nat := (if maxPaths < 1 then 1 else maxPaths).toNat

/-- `record_observation`. -/
def recordObservation (maxPaths : Int) (t : AdvertPaths) (o : AdvertObservation) :
    Option AdvertPaths :=
  (t.insertPath o.row).map fun t => t.prune o.row.publicKey (pathLimit maxPaths)

/-- `ContactRepository.upsert`, as far as the contact's key goes. -/
def upsertContact (t : AdvertPaths) (publicKey : Text) : AdvertPaths :=
  if lower publicKey ∈ t.contacts then t
  else { t with contacts := t.contacts ++ [lower publicKey] }

/-- `ContactRepository.delete`, with the rows that go with the contact. -/
def deleteContact (t : AdvertPaths) (publicKey : Text) : AdvertPaths where
  contacts := t.contacts.filter fun key => key ≠ lower publicKey
  rows := t.rows.filter fun r => r.publicKey ≠ lower publicKey

/-- An integrity error takes its transaction back. -/
def step (maxPaths : Int) (t : AdvertPaths) : AdvertPathOp → AdvertPaths
  | .upsert publicKey => t.upsertContact publicKey
  | .delete publicKey => t.deleteContact publicKey
  | .observe o => (t.recordObservation maxPaths o).getD t

/-- The table after some operations. -/
def run (maxPaths : Int) (ops : List AdvertPathOp) : AdvertPaths :=
  ops.foldl (step maxPaths) {}

end AdvertPaths

/-! ### Everything that was heard -/

/-- The contacts, and every advert of theirs since they were created. -/
structure AdvertLog where
  contacts : List Text := []
  heard : List AdvertPathRow := []

namespace AdvertLog

/-- The times at which a contact was heard over a path. -/
def heardOver (l : AdvertLog) (publicKey : Text) (path : Text × Int) : List Int :=
  (l.heard.filter fun r => r.publicKey = publicKey ∧ r.path = path).map AdvertPathRow.lastSeen

/-- The paths over which a contact was heard. -/
def pathsOf (l : AdvertLog) (publicKey : Text) : List (Text × Int) :=
  (l.heard.filter fun r => r.publicKey = publicKey).map AdvertPathRow.path

/-- The last time at which a contact was heard over a path. -/
def lastHeard (l : AdvertLog) (publicKey : Text) (path : Text × Int) : Option Int :=
  (l.heardOver publicKey path).max?

def step (l : AdvertLog) : AdvertPathOp → AdvertLog
  | .upsert publicKey =>
      if lower publicKey ∈ l.contacts then l
      else { l with contacts := l.contacts ++ [lower publicKey] }
  | .delete publicKey =>
      { contacts := l.contacts.filter fun key => key ≠ lower publicKey
        heard := l.heard.filter fun r => r.publicKey ≠ lower publicKey }
  | .observe o =>
      if o.row.publicKey ∈ l.contacts then { l with heard := l.heard ++ [o.row] } else l

/-- The log of some operations. -/
def run (ops : List AdvertPathOp) : AdvertLog := ops.foldl step {}

theorem max?_snoc (times : List Int) (t : Int) :
    (times ++ [t]).max? = Option.merge max times.max? (some t) := by
  cases times with
  | nil => rfl
  | cons u times =>
      rw [List.cons_append, List.max?_cons', List.foldl_append, List.max?_cons']
      rfl

theorem heardOver_append (l : AdvertLog) (e : AdvertPathRow) (publicKey : Text)
    (path : Text × Int) :
    heardOver { l with heard := l.heard ++ [e] } publicKey path =
      if e.publicKey = publicKey ∧ e.path = path then l.heardOver publicKey path ++ [e.lastSeen]
      else l.heardOver publicKey path := by
  unfold heardOver
  rw [List.filter_append, List.filter_singleton]
  split
  next h => simp [h]
  next h => simp [h]

theorem lastHeard_append_self (l : AdvertLog) (e : AdvertPathRow) :
    lastHeard { l with heard := l.heard ++ [e] } e.publicKey =
      addSight (l.lastHeard e.publicKey) e.path e.lastSeen := by
  funext path
  by_cases hpath : path = e.path
  · subst hpath
    rw [lastHeard, heardOver_append, if_pos ⟨rfl, rfl⟩, addSight, Function.update_self,
      max?_snoc]
    rfl
  · rw [lastHeard, heardOver_append, if_neg fun h => hpath h.2.symm, addSight,
      Function.update_of_ne hpath]
    rfl

theorem lastHeard_append_of_ne (l : AdvertLog) {e : AdvertPathRow} {publicKey : Text}
    (h : e.publicKey ≠ publicKey) :
    lastHeard { l with heard := l.heard ++ [e] } publicKey = l.lastHeard publicKey := by
  funext path
  rw [lastHeard, heardOver_append, if_neg fun he => h he.1]
  rfl

end AdvertLog

/-! ### The table follows the log -/

namespace AdvertPaths

open AdvertPathRow

/-- A row counts some of the last times of its path. -/
def CountsFrom (r : AdvertPathRow) (times : List Int) : Prop :=
  ∃ since, since <:+ times ∧ since.head? = some r.firstSeen ∧ since.length = r.heardCount

structure Follows (maxPaths : Nat) (t : AdvertPaths) (l : AdvertLog) : Prop where
  contacts : t.contacts = l.contacts
  parents : ∀ r ∈ t.rows, r.publicKey ∈ t.contacts
  shows : ∀ publicKey,
    ShowsLast path lastSeen maxPaths (l.lastHeard publicKey) (t.ofContact publicKey)
  counts : ∀ r ∈ t.rows, CountsFrom r (l.heardOver r.publicKey r.path)
  whole : ∀ r ∈ t.rows, (l.pathsOf r.publicKey).dedup.length ≤ maxPaths →
    r.heardCount = (l.heardOver r.publicKey r.path).length

variable {t t' : AdvertPaths} {l : AdvertLog} {e r : AdvertPathRow} {publicKey : Text} {n : Nat}

theorem mem_ofContact : r ∈ t.ofContact publicKey ↔ r ∈ t.rows ∧ r.publicKey = publicKey := by
  simp [ofContact]

theorem insertPath_cases (h : t.insertPath e = some t') :
    ((∃ r ∈ t.rows, r.publicKey = e.publicKey ∧ r.path = e.path) ∧
      t' = { t with rows := t.rows.map (touch e) }) ∨
    ((∀ r ∈ t.rows, ¬(r.publicKey = e.publicKey ∧ r.path = e.path)) ∧
      e.publicKey ∈ t.contacts ∧ t' = { t with rows := t.rows ++ [e] }) := by
  unfold insertPath at h
  split at h
  next hrow => exact .inl ⟨hrow, (Option.some.inj h).symm⟩
  next hno =>
    split at h
    next hcontact =>
      push Not at hno
      exact .inr ⟨fun r hr hsame => hno r hr hsame.1 hsame.2, hcontact, (Option.some.inj h).symm⟩
    next => cases h

theorem ofContact_map_touch (t : AdvertPaths) (e : AdvertPathRow) (publicKey : Text) :
    ofContact { t with rows := t.rows.map (touch e) } publicKey =
      (t.ofContact publicKey).map (touch e) := by
  simp only [ofContact, List.filter_map]
  congr 1
  exact List.filter_congr fun r _ => by simp

theorem map_touch_of_ne (h : e.publicKey ≠ publicKey) :
    (t.ofContact publicKey).map (touch e) = t.ofContact publicKey := by
  have hsame : ∀ r ∈ t.ofContact publicKey, touch e r = id r := fun r hr =>
    touch_of_not fun he => h (he.1.symm.trans (mem_ofContact.mp hr).2)
  rw [List.map_congr_left hsame, List.map_id]

theorem ofContact_append (t : AdvertPaths) (e : AdvertPathRow) (publicKey : Text) :
    ofContact { t with rows := t.rows ++ [e] } publicKey =
      if e.publicKey = publicKey then t.ofContact publicKey ++ [e]
      else t.ofContact publicKey := by
  unfold ofContact
  rw [List.filter_append, List.filter_singleton]
  split
  next h => simp [h]
  next h => simp [h]

theorem ofContact_prune_self (t : AdvertPaths) (publicKey : Text) (n : Nat) :
    (t.prune publicKey n).ofContact publicKey = keepFirst recency n (t.ofContact publicKey) := by
  rw [keepFirst, prune, ofContact, List.filter_comm]
  refine List.filter_congr fun r hr => ?_
  have hkey := (mem_ofContact.mp hr).2
  simp [hkey]

theorem ofContact_prune_of_ne {other : Text} (h : other ≠ publicKey) :
    (t.prune publicKey n).ofContact other = t.ofContact other := by
  rw [prune, ofContact, ofContact, List.filter_filter]
  refine List.filter_congr fun r _ => ?_
  by_cases hr : r.publicKey = other
  · simp [hr, h]
  · simp [hr]

/-- Rows of different paths come at different places. -/
theorem nodup_recency {rows : List AdvertPathRow} (h : (rows.map path).Nodup) :
    (rows.map recency).Nodup :=
  List.pairwise_map.mpr ((List.pairwise_map.mp h).imp fun hne he => hne (path_of_recency he))

namespace Follows

theorem empty (n : Nat) : Follows n {} {} where
  contacts := rfl
  parents := by simp
  shows := fun _ => ShowsLast.nil fun _ => rfl
  counts := by simp
  whole := by simp

theorem upsert (h : Follows n t l) (publicKey : Text) :
    Follows n (t.upsertContact publicKey) (l.step (.upsert publicKey)) := by
  unfold upsertContact AdvertLog.step
  dsimp only
  rw [← h.contacts]
  split
  next => exact h
  next =>
    exact ⟨by simp, fun r hr => List.mem_append_left _ (h.parents r hr), h.shows, h.counts,
      h.whole⟩

theorem delete (h : Follows n t l) (publicKey : Text) :
    Follows n (t.deleteContact publicKey) (l.step (.delete publicKey)) := by
  have hover {key : Text} (hkey : key ≠ lower publicKey) (p : Text × Int) :
      (l.step (.delete publicKey)).heardOver key p = l.heardOver key p := by
    unfold AdvertLog.heardOver AdvertLog.step
    rw [List.filter_filter]
    congr 1
    refine List.filter_congr fun r _ => ?_
    by_cases hr : r.publicKey = key
    · simp [hr, hkey]
    · simp [hr]
  have hpaths {key : Text} (hkey : key ≠ lower publicKey) :
      (l.step (.delete publicKey)).pathsOf key = l.pathsOf key := by
    unfold AdvertLog.pathsOf AdvertLog.step
    rw [List.filter_filter]
    congr 1
    refine List.filter_congr fun r _ => ?_
    by_cases hr : r.publicKey = key
    · simp [hr, hkey]
    · simp [hr]
  refine ⟨?_, fun r hr => ?_, fun key => ?_, fun r hr => ?_, fun r hr hfew => ?_⟩
  · exact congrArg (List.filter _) h.contacts
  · obtain ⟨hrow, hne⟩ := List.mem_filter.mp hr
    exact List.mem_filter.mpr ⟨h.parents r hrow, hne⟩
  · by_cases hkey : key = lower publicKey
    · have hnone : (t.deleteContact publicKey).ofContact key = [] := by
        refine List.filter_eq_nil_iff.mpr fun r hr => ?_
        simpa [hkey] using (List.mem_filter.mp hr).2
      rw [hnone]
      refine ShowsLast.nil fun p => ?_
      have hover' : (l.step (.delete publicKey)).heardOver key p = [] := by
        refine List.map_eq_nil_iff.mpr (List.filter_eq_nil_iff.mpr fun r hr => ?_)
        have hne := (List.mem_filter.mp hr).2
        simp only [ne_eq, decide_not, Bool.not_eq_true', decide_eq_false_iff_not] at hne
        simp [hkey, hne]
      rw [AdvertLog.lastHeard, hover']
      rfl
    · have hsame : (t.deleteContact publicKey).ofContact key = t.ofContact key := by
        unfold ofContact deleteContact
        rw [List.filter_filter]
        refine List.filter_congr fun r _ => ?_
        by_cases hr : r.publicKey = key
        · simp [hr, hkey]
        · simp [hr]
      have hlast : (l.step (.delete publicKey)).lastHeard key = l.lastHeard key :=
        funext fun p => congrArg List.max? (hover hkey p)
      rw [hsame, hlast]
      exact h.shows key
  · obtain ⟨hrow, hne⟩ := List.mem_filter.mp hr
    rw [hover (by simpa using hne)]
    exact h.counts r hrow
  · obtain ⟨hrow, hne⟩ := List.mem_filter.mp hr
    rw [hpaths (by simpa using hne)] at hfew
    rw [hover (by simpa using hne)]
    exact h.whole r hrow hfew

/-- The rows after the insert count the log with the new advert. -/
theorem counts_insert (h : Follows n t l) (hfirst : e.firstSeen = e.lastSeen)
    (hcount : e.heardCount = 1) (ht : t.insertPath e = some t') :
    ∀ r ∈ t'.rows,
      CountsFrom r (AdvertLog.heardOver { l with heard := l.heard ++ [e] } r.publicKey r.path) := by
  intro r' hr'
  rw [AdvertLog.heardOver_append]
  rcases insertPath_cases ht with ⟨-, rfl⟩ | ⟨hno, -, rfl⟩
  · obtain ⟨r, hr, rfl⟩ := List.mem_map.mp hr'
    obtain ⟨since, hsince, hhead, hlength⟩ := h.counts r hr
    rw [touch_publicKey, touch_path]
    by_cases hsame : r.publicKey = e.publicKey ∧ r.path = e.path
    · rw [if_pos ⟨hsame.1.symm, hsame.2.symm⟩, touch, if_pos hsame]
      refine ⟨since ++ [e.lastSeen], ?_, ?_, ?_⟩
      · obtain ⟨pre, hpre⟩ := hsince
        exact ⟨pre, by rw [← List.append_assoc, hpre]⟩
      · rw [List.head?_append, hhead]
        rfl
      · rw [List.length_append, hlength]
        rfl
    · rw [if_neg fun he => hsame ⟨he.1.symm, he.2.symm⟩, touch_of_not hsame]
      exact ⟨since, hsince, hhead, hlength⟩
  · rcases List.mem_append.mp hr' with hr | hr
    · rw [if_neg fun he => hno r' hr ⟨he.1.symm, he.2.symm⟩]
      exact h.counts r' hr
    · obtain rfl := List.mem_singleton.mp hr
      rw [if_pos ⟨rfl, rfl⟩]
      exact ⟨[r'.lastSeen], List.suffix_append _ _, by rw [hfirst]; rfl, hcount.symm⟩

/-- A path that was heard and has no row has been pushed out by `n` other paths. -/
theorem pushed_out (h : Follows n t l) {p : Text × Int}
    (hno : p ∉ (t.ofContact publicKey).map path) (hheard : l.heardOver publicKey p ≠ []) :
    n < (l.pathsOf publicKey).dedup.length := by
  obtain ⟨u, hu⟩ := Option.isSome_iff_exists.mp (List.isSome_max?_of_ne_nil hheard)
  obtain ⟨hfull, -⟩ := (h.shows publicKey).absent p u hu hno
  have hmem {q : Text × Int} {v : Int} (hq : l.lastHeard publicKey q = some v) :
      q ∈ (l.pathsOf publicKey).dedup := by
    have hv := List.mem_map.mp (List.max?_mem hq)
    obtain ⟨r, hr, -⟩ := hv
    obtain ⟨hrow, hsame⟩ := List.mem_filter.mp hr
    rw [decide_eq_true_eq] at hsame
    rw [List.mem_dedup]
    exact List.mem_map.mpr ⟨r, List.mem_filter.mpr ⟨hrow, by simpa using hsame.1⟩, hsame.2⟩
  have hall : p :: (t.ofContact publicKey).map path ⊆ (l.pathsOf publicKey).dedup := by
    refine List.cons_subset.mpr ⟨hmem hu, fun q hq => ?_⟩
    obtain ⟨r, hr, rfl⟩ := List.mem_map.mp hq
    exact hmem ((h.shows publicKey).shown r hr)
  have hcount := (List.subperm_of_subset
    (List.nodup_cons.mpr ⟨hno, (h.shows publicKey).names⟩) hall).length_le
  rw [List.length_cons, List.length_map, hfull] at hcount
  exact hcount

/-- As long as the paths of a contact are few, its rows count everything. -/
theorem whole_insert (h : Follows n t l) (hcount : e.heardCount = 1)
    (ht : t.insertPath e = some t') :
    ∀ r ∈ t'.rows,
      (AdvertLog.pathsOf { l with heard := l.heard ++ [e] } r.publicKey).dedup.length ≤ n →
        r.heardCount =
          (AdvertLog.heardOver { l with heard := l.heard ++ [e] } r.publicKey r.path).length := by
  intro r' hr' hfew
  have hbefore : (l.pathsOf r'.publicKey).dedup.length ≤ n := by
    refine le_trans (List.subperm_of_subset (List.nodup_dedup _) fun p hp => ?_).length_le hfew
    rw [List.mem_dedup] at hp ⊢
    obtain ⟨r, hr, rfl⟩ := List.mem_map.mp hp
    obtain ⟨hrow, hkey⟩ := List.mem_filter.mp hr
    exact List.mem_map_of_mem (List.mem_filter.mpr ⟨List.mem_append_left _ hrow, hkey⟩)
  rw [AdvertLog.heardOver_append]
  rcases insertPath_cases ht with ⟨-, rfl⟩ | ⟨hno, -, rfl⟩
  · obtain ⟨r, hr, rfl⟩ := List.mem_map.mp hr'
    rw [touch_publicKey] at hbefore
    have hold := h.whole r hr hbefore
    rw [touch_publicKey, touch_path]
    by_cases hsame : r.publicKey = e.publicKey ∧ r.path = e.path
    · rw [if_pos ⟨hsame.1.symm, hsame.2.symm⟩, touch, if_pos hsame, List.length_append, ← hold]
      rfl
    · rwa [if_neg fun he => hsame ⟨he.1.symm, he.2.symm⟩, touch_of_not hsame]
  · rcases List.mem_append.mp hr' with hr | hr
    · rw [if_neg fun he => hno r' hr ⟨he.1.symm, he.2.symm⟩]
      exact h.whole r' hr hbefore
    · obtain rfl := List.mem_singleton.mp hr
      have hnew : r'.path ∉ (t.ofContact r'.publicKey).map path := by
        intro hmem
        obtain ⟨q, hq, hqe⟩ := List.mem_map.mp hmem
        exact hno q (mem_ofContact.mp hq).1 ⟨(mem_ofContact.mp hq).2, hqe⟩
      have hnever : l.heardOver r'.publicKey r'.path = [] := by
        by_contra hheard
        exact (h.pushed_out hnew hheard).not_ge hbefore
      rw [if_pos ⟨rfl, rfl⟩, hnever, hcount]
      rfl

/-- The rows of the contact after an advert, and of the others. -/
theorem shows_record (h : Follows n t l) (ht : t.insertPath e = some t') (publicKey : Text) :
    ShowsLast path lastSeen n
      (AdvertLog.lastHeard { l with heard := l.heard ++ [e] } publicKey)
      ((t'.prune e.publicKey n).ofContact publicKey) := by
  by_cases hkey : e.publicKey = publicKey
  · subst hkey
    rw [ofContact_prune_self, AdvertLog.lastHeard_append_self]
    have hshows := h.shows e.publicKey
    rcases insertPath_cases ht with ⟨⟨r, hr, hrkey, hrpath⟩, rfl⟩ | ⟨hno, -, rfl⟩
    · have hrow : e.path ∈ (t.ofContact e.publicKey).map path :=
        List.mem_map.mpr ⟨r, mem_ofContact.mpr ⟨hr, hrkey⟩, hrpath⟩
      have htouched := hshows.touch (t := e.lastSeen) hrow (touch_path e)
        (fun q hq hqe => by rw [touch, if_pos ⟨(mem_ofContact.mp hq).2, hqe⟩])
        (fun q _ hqe => by rw [touch_of_not fun he => hqe he.2])
      rw [ofContact_map_touch, keepFirst_of_length_le htouched.length_le]
      exact htouched
    · have hrow : e.path ∉ (t.ofContact e.publicKey).map path := by
        rintro hmem
        obtain ⟨q, hq, hqe⟩ := List.mem_map.mp hmem
        exact hno q (mem_ofContact.mp hq).1 ⟨(mem_ofContact.mp hq).2, hqe⟩
      have hnames : ((t.ofContact e.publicKey ++ [e]).map path).Nodup := by
        rw [List.map_append, List.map_singleton]
        refine List.nodup_append.mpr ⟨hshows.names, List.nodup_singleton _, ?_⟩
        rintro p hp q hq rfl
        exact hrow (List.mem_singleton.mp hq ▸ hp)
      rw [ofContact_append, if_pos rfl]
      exact hshows.insert_keepFirst hrow (nodup_recency hnames) fun _ _ => lastSeen_le_of_recency_lt
  · rw [ofContact_prune_of_ne (Ne.symm hkey), AdvertLog.lastHeard_append_of_ne l hkey]
    rcases insertPath_cases ht with ⟨-, rfl⟩ | ⟨-, -, rfl⟩
    · rw [ofContact_map_touch, map_touch_of_ne hkey]
      exact h.shows publicKey
    · rw [ofContact_append, if_neg hkey]
      exact h.shows publicKey

theorem observe {maxPaths : Int} (h : Follows (pathLimit maxPaths) t l) (o : AdvertObservation) :
    Follows (pathLimit maxPaths) (t.step maxPaths (.observe o)) (l.step (.observe o)) := by
  unfold step recordObservation AdvertLog.step
  dsimp only
  rw [← h.contacts]
  cases ht : t.insertPath o.row with
  | none =>
      have hno : o.row.publicKey ∉ t.contacts := by
        intro hcontact
        unfold insertPath at ht
        split at ht
        · cases ht
        · cases ht
      rw [if_neg hno]
      exact h
  | some t₁ =>
      have hcontacts : t₁.contacts = t.contacts := by
        rcases insertPath_cases ht with ⟨-, rfl⟩ | ⟨-, -, rfl⟩ <;> rfl
      have hparent : o.row.publicKey ∈ t.contacts := by
        rcases insertPath_cases ht with ⟨⟨r, hr, hrkey, -⟩, -⟩ | ⟨-, hcontact, -⟩
        · exact hrkey ▸ h.parents r hr
        · exact hcontact
      rw [if_pos hparent]
      refine ⟨hcontacts, fun r hr => ?_, h.shows_record ht,
        fun r hr => h.counts_insert rfl rfl ht r (List.mem_of_mem_filter hr),
        fun r hr => h.whole_insert rfl ht r (List.mem_of_mem_filter hr)⟩
      change r.publicKey ∈ t₁.contacts
      rw [hcontacts]
      have hr₁ := List.mem_of_mem_filter hr
      rcases insertPath_cases ht with ⟨-, rfl⟩ | ⟨-, -, rfl⟩
      · obtain ⟨q, hq, rfl⟩ := List.mem_map.mp hr₁
        rw [touch_publicKey]
        exact h.parents q hq
      · rcases List.mem_append.mp hr₁ with hq | hq
        · exact h.parents r hq
        · exact List.mem_singleton.mp hq ▸ hparent

theorem step {maxPaths : Int} (h : Follows (pathLimit maxPaths) t l) (op : AdvertPathOp) :
    Follows (pathLimit maxPaths) (t.step maxPaths op) (l.step op) := by
  cases op with
  | upsert publicKey => exact h.upsert publicKey
  | delete publicKey => exact h.delete publicKey
  | observe o => exact h.observe o

theorem foldl {maxPaths : Int} (h : Follows (pathLimit maxPaths) t l) (ops : List AdvertPathOp) :
    Follows (pathLimit maxPaths) (ops.foldl (AdvertPaths.step maxPaths) t)
      (ops.foldl AdvertLog.step l) := by
  induction ops generalizing t l with
  | nil => exact h
  | cons op ops ih => exact ih (h.step op)

end Follows

/-- **What is shown of the paths is right.** After any operations, the rows of a contact are
the paths heard last, each with the last time it was heard at all. A row counts the adverts
since its path came back, and all of them as long as the paths fit. -/
theorem advertPaths_of_run (maxPaths : Int) (ops : List AdvertPathOp) (publicKey : Text) :
    let rows := (run maxPaths ops).ofContact publicKey
    let log := AdvertLog.run ops
    (rows.map path).Nodup ∧ rows.length ≤ pathLimit maxPaths ∧
      (∀ r ∈ rows, log.lastHeard publicKey r.path = some r.lastSeen ∧
        CountsFrom r (log.heardOver publicKey r.path)) ∧
      (∀ p u, log.lastHeard publicKey p = some u → p ∉ rows.map path →
        rows.length = pathLimit maxPaths ∧ ∀ r ∈ rows, u ≤ r.lastSeen) ∧
      ((log.pathsOf publicKey).dedup.length ≤ pathLimit maxPaths →
        (∀ p, log.heardOver publicKey p ≠ [] → p ∈ rows.map path) ∧
        ∀ r ∈ rows, r.heardCount = (log.heardOver publicKey r.path).length) := by
  intro rows log
  have h : Follows (pathLimit maxPaths) (run maxPaths ops) log := (Follows.empty _).foldl ops
  have hshows := h.shows publicKey
  refine ⟨hshows.names, hshows.length_le, fun r hr => ⟨hshows.shown r hr, ?_⟩, hshows.absent,
    fun hfew => ⟨fun p hp => ?_, fun r hr => ?_⟩⟩
  · obtain ⟨hrow, hkey⟩ := mem_ofContact.mp hr
    exact hkey ▸ h.counts r hrow
  · by_contra hno
    exact (h.pushed_out hno hp).not_ge hfew
  · obtain ⟨hrow, rfl⟩ := mem_ofContact.mp hr
    exact h.whole r hrow hfew

/-! ### Reading the paths -/

end AdvertPaths

/-- `ContactAdvertPath`. -/
structure ContactAdvertPath where
  path : Text
  pathLen : Int
  nextHop : Option Text
  firstSeen : Int
  lastSeen : Int
  heardCount : Nat
  deriving DecidableEq

/-- `first_hop_hex`. -/
def firstHopHex (pathHex : Text) (hopCount : Int) : Option Text :=
  (splitPathHex pathHex hopCount)[0]?

/-- `_row_to_path`. -/
def AdvertPathRow.toPath (r : AdvertPathRow) : ContactAdvertPath where
  path := r.pathHex
  pathLen := r.pathLen
  nextHop := firstHopHex r.pathHex r.pathLen
  firstSeen := r.firstSeen
  lastSeen := r.lastSeen
  heardCount := r.heardCount

/-- `ORDER BY public_key ASC`, and then by recency. -/
def AdvertPathRow.byContact (r : AdvertPathRow) :
    Text ×ₗ Intᵒᵈ ×ₗ Natᵒᵈ ×ₗ Int ×ₗ Text :=
  toLex (r.publicKey, r.recency)

namespace AdvertPaths

open AdvertPathRow

variable {t : AdvertPaths} {publicKey : Text}

/-- `get_recent_for_contact`. -/
def getRecentForContact (t : AdvertPaths) (publicKey : Text) (limit : Nat) :
    List ContactAdvertPath :=
  ((orderBy recency (t.ofContact (lower publicKey))).take limit).map toPath

/-- `ROW_NUMBER() OVER (PARTITION BY public_key ORDER BY ..)`. -/
def rowNumber (t : AdvertPaths) (r : AdvertPathRow) : Nat :=
  (orderBy recency (t.ofContact r.publicKey)).idxOf r + 1

/-- `get_recent_for_all_contacts`. -/
def getRecentForAllContacts (t : AdvertPaths) (limitPerContact : Nat) :
    List (Text × List ContactAdvertPath) :=
  let rows := orderBy byContact (t.rows.filter fun r => t.rowNumber r ≤ limitPerContact)
  (OrderedMap.collect AdvertPathRow.publicKey (fun r paths => paths ++ [r.toPath])
    (fun r => [r.toPath]) OrderedMap.empty rows).entries

/-- What the unique columns promise of the rows. -/
structure Unique (t : AdvertPaths) : Prop where
  paths : ∀ publicKey, ((t.ofContact publicKey).map path).Nodup
  lower : ∀ r ∈ t.rows, lower r.publicKey = r.publicKey

theorem nodup_byContact {rows : List AdvertPathRow}
    (h : ∀ publicKey, ((rows.filter fun r => r.publicKey = publicKey).map path).Nodup) :
    (rows.map byContact).Nodup := by
  induction rows with
  | nil => exact List.nodup_nil
  | cons r rows ih =>
      refine List.nodup_cons.mpr ⟨fun hmem => ?_, ih fun key => ?_⟩
      · obtain ⟨q, hq, hqr⟩ := List.mem_map.mp hmem
        have hkey : q.publicKey = r.publicKey := congrArg (fun k => (ofLex k).1) hqr
        have hpath := path_of_recency (congrArg (fun k => (ofLex k).2) hqr)
        have hnodup := h r.publicKey
        rw [List.filter_cons_of_pos (by simp), List.map_cons, List.nodup_cons] at hnodup
        exact hnodup.1 (hpath ▸ List.mem_map_of_mem
          (List.mem_filter.mpr ⟨hq, by simpa using hkey⟩))
      · exact (h key).sublist (((List.sublist_cons_self r rows).filter _).map path)

/-- Within a contact the two orders agree. -/
theorem orderBy_byContact {rows : List AdvertPathRow} (hpaths : (rows.map path).Nodup)
    (hkey : ∀ r ∈ rows, r.publicKey = publicKey) :
    orderBy byContact rows = orderBy recency rows := by
  refine orderBy_eq_of_perm (orderBy_perm recency rows) ?_
  refine (orderBy_pairwise (nodup_recency hpaths)).imp_of_mem fun {a b} ha hb hlt => ?_
  refine Prod.Lex.lt_iff.mpr (.inr ⟨?_, hlt⟩)
  exact (hkey a (mem_orderBy.mp ha)).trans (hkey b (mem_orderBy.mp hb)).symm

/-- The rows of a contact with a low number are its first rows. -/
theorem filter_rowNumber (limit : Nat) :
    (t.ofContact publicKey).filter (fun r => t.rowNumber r ≤ limit) =
      keepFirst recency limit (t.ofContact publicKey) := by
  refine List.filter_congr fun r hr => ?_
  have hkey := (mem_ofContact.mp hr).2
  rw [decide_eq_decide, rowNumber, hkey]
  exact (List.mem_take_iff_idxOf_lt (mem_orderBy.mpr hr)).symm

/-- The entry that the rows of one contact leave in the dictionary. -/
theorem entryOf_toPath (rows : List AdvertPathRow) (paths : List ContactAdvertPath) :
    OrderedMap.entryOf (fun (r : AdvertPathRow) paths => paths ++ [r.toPath])
      (fun r => [r.toPath]) (some paths) rows = some (paths ++ rows.map toPath) := by
  induction rows generalizing paths with
  | nil => simp [OrderedMap.entryOf]
  | cons r rows ih =>
      have hstep := ih (paths ++ [r.toPath])
      rw [List.append_assoc] at hstep
      exact hstep

theorem mem_getRecentForAllContacts (h : t.Unique) (limit : Nat) (paths : List ContactAdvertPath) :
    (publicKey, paths) ∈ t.getRecentForAllContacts limit ↔
      paths = ((orderBy recency (t.ofContact publicKey)).take limit).map toPath ∧
        paths ≠ [] := by
  have hnodup : (((t.rows.filter fun r => t.rowNumber r ≤ limit)).map byContact).Nodup :=
    (nodup_byContact h.paths).sublist (List.filter_sublist.map _)
  have hrows : (orderBy byContact (t.rows.filter fun r => t.rowNumber r ≤ limit)).filter
      (fun r => r.publicKey = publicKey) =
      (orderBy recency (t.ofContact publicKey)).take limit := by
    rw [← orderBy_filter hnodup, List.filter_comm]
    change orderBy byContact ((t.ofContact publicKey).filter fun r => t.rowNumber r ≤ limit) = _
    rw [filter_rowNumber]
    have hsub := keepFirst_sublist recency limit (t.ofContact publicKey)
    rw [orderBy_byContact ((h.paths publicKey).sublist (hsub.map path)) fun r hr =>
      (mem_ofContact.mp (hsub.subset hr)).2, orderBy_keepFirst (nodup_recency (h.paths publicKey))]
  unfold getRecentForAllContacts
  rw [← OrderedMap.get?_eq_some_iff, OrderedMap.get?_collect, OrderedMap.get?_empty, hrows]
  cases (orderBy recency (t.ofContact publicKey)).take limit with
  | nil => simp +contextual [OrderedMap.entryOf]
  | cons r rows =>
      have hentry := entryOf_toPath rows [r.toPath]
      have hnext : OrderedMap.entryOf (fun (r : AdvertPathRow) paths => paths ++ [r.toPath])
          (fun r => [r.toPath]) none (r :: rows) = some (List.map toPath (r :: rows)) := hentry
      rw [hnext, Option.some_inj]
      exact ⟨fun he => ⟨he.symm, he ▸ by simp⟩, fun he => he.1.symm⟩

/-- The contacts come in the order of their keys. -/
theorem pairwise_getRecentForAllContacts (h : t.Unique) (limit : Nat) :
    ((t.getRecentForAllContacts limit).map Prod.fst).Pairwise (· < ·) := by
  have hnodup : (((t.rows.filter fun r => t.rowNumber r ≤ limit)).map byContact).Nodup :=
    (nodup_byContact h.paths).sublist (List.filter_sublist.map _)
  refine OrderedMap.pairwise_collect _ _ _ _ _ List.Pairwise.nil (by simp [OrderedMap.empty]) ?_
  refine List.pairwise_map.mpr ((orderBy_pairwise hnodup).imp fun {a b} hlt => ?_)
  rcases Prod.Lex.lt_iff.mp hlt with hlt | ⟨heq, -⟩
  · exact hlt.le
  · exact heq.le

theorem lower_of_mem_contacts (ops : List AdvertPathOp) :
    ∀ key ∈ (AdvertLog.run ops).contacts, lower key = key := by
  have hstep {l : AdvertLog} (h : ∀ key ∈ l.contacts, lower key = key)
      (op : AdvertPathOp) : ∀ key ∈ (l.step op).contacts, lower key = key := by
    intro key hkey
    unfold AdvertLog.step at hkey
    split at hkey
    · split at hkey
      · exact h key hkey
      · rcases List.mem_append.mp hkey with hkey | hkey
        · exact h key hkey
        · rw [List.mem_singleton.mp hkey, lower_idem]
    · exact h key (List.mem_of_mem_filter hkey)
    · split at hkey
      · exact h key hkey
      · exact h key hkey
  exact List.foldlRecOn (motive := fun l : AdvertLog => ∀ key ∈ l.contacts, lower key = key) ops
    AdvertLog.step (List.forall_mem_nil _) fun l hl op _ => hstep hl op

theorem unique_run (maxPaths : Int) (ops : List AdvertPathOp) : (run maxPaths ops).Unique := by
  have h := (Follows.empty (pathLimit maxPaths)).foldl ops
  refine ⟨fun key => (h.shows key).names, fun r hr => ?_⟩
  exact lower_of_mem_contacts ops _ (h.contacts ▸ h.parents r hr)

/-- **The summary of all contacts agrees with each contact.** After any operations, the
summary has the keys of the contacts with paths in ascending order, and with each key what the
query for this contact returns. -/
theorem getRecentForAllContacts_of_run (maxPaths : Int) (ops : List AdvertPathOp) (limit : Nat) :
    let t := run maxPaths ops
    ((t.getRecentForAllContacts limit).map Prod.fst).Pairwise (· < ·) ∧
      ∀ publicKey paths, (publicKey, paths) ∈ t.getRecentForAllContacts limit ↔
        lower publicKey = publicKey ∧ paths = t.getRecentForContact publicKey limit ∧
          paths ≠ [] := by
  intro t
  have h : t.Unique := unique_run maxPaths ops
  refine ⟨pairwise_getRecentForAllContacts h limit, fun publicKey paths => ?_⟩
  rw [mem_getRecentForAllContacts h, getRecentForContact]
  constructor
  · rintro ⟨rfl, hne⟩
    obtain ⟨p, hp⟩ := List.exists_mem_of_ne_nil _ hne
    obtain ⟨r, hr, -⟩ := List.mem_map.mp hp
    obtain ⟨hrow, rfl⟩ := mem_ofContact.mp (mem_orderBy.mp (List.mem_of_mem_take hr))
    have hlower := h.lower r hrow
    exact ⟨hlower, by rw [hlower], hne⟩
  · rintro ⟨hlower, hpaths, hne⟩
    rw [hlower] at hpaths
    exact ⟨hpaths, hne⟩

end AdvertPaths

end RemoteTerm
