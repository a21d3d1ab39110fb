import Mathlib
import RemoteTerm.Library.Text

/-!
# The contacts that are loaded onto the radio

Favorites come first, then the contacts with the latest direct messages, then
those with the latest adverts, up to the refill target. Each tier is read with a
limit before contacts of unknown type and contacts that are selected already are
skipped, so the selection can stop short of the target.

## Implementation notes

What a query returns is any permutation of the selected rows that its `ORDER BY`
allows; rows with equal times may come in any order. The refill ratio is 80 per
cent: half a contact above it is never a whole number, so rounding a double and
rounding the fraction agree. Keys are stored in lower case.
-/

namespace RemoteTerm

open Library

/-- The columns of a contact that the selection reads. -/
structure SyncContact where
  publicKey : Text
  type : Nat
  favorite : Bool := false
  lastAdvert : Option Int := none
  deriving DecidableEq

namespace SyncContact

/-- `contact.public_key.lower()`. -/
def key (c : SyncContact) : Text := lower c.publicKey

end SyncContact

/-- A `contacts` table, and the conversation keys and times of the direct messages. -/
structure SyncTables where
  contacts : List SyncContact
  directMessages : List (Text × Int)
  nodup : (contacts.map SyncContact.key).Nodup

/-- `_effective_radio_capacity`. -/
def effectiveRadioCapacity (configured : Int) (hwLimit : Option Int) : Nat :=
  let capacity := max 1 configured
  let capacity := match hwLimit with
    | none => capacity
    | some hwLimit => min capacity hwLimit
  (max 1 capacity).toNat

/-- The refill target of `_compute_radio_contact_limits`. -/
def refillTarget (maxContacts : Nat) : Nat :=
  let capacity := max 1 maxContacts
  max 1 (min capacity ((8 * capacity + 5) / 10))

namespace SyncTables

variable (db : SyncTables)

/-- `MAX(received_at)` of the direct messages of a contact. -/
def lastDm (c : SyncContact) : Option Int :=
  ((db.directMessages.filter fun m => m.1 = c.publicKey).map Prod.snd).max?

/-- The `WHERE` clause of `get_favorites`. -/
def isFavorite (c : SyncContact) : Bool := c.favorite && decide (c.publicKey.length = 64)

/-- The join and the `WHERE` clause of `get_recently_dm_active_non_repeaters`. -/
def isDmActive (c : SyncContact) : Bool :=
  (db.lastDm c).isSome && decide (c.type ≠ 2 ∧ c.publicKey.length = 64)

/-- The `WHERE` clause of `get_recently_advertised_non_repeaters`. -/
def isAdvertised (c : SyncContact) : Bool :=
  c.lastAdvert.isSome && decide (c.type ≠ 2 ∧ c.publicKey.length = 64)

/-- The rows of the three queries without their limits. -/
structure Tiers where
  favorites : List SyncContact
  dmActive : List SyncContact
  advertised : List SyncContact
  favorites_perm : favorites.Perm (db.contacts.filter isFavorite)
  dmActive_perm : dmActive.Perm (db.contacts.filter db.isDmActive)
  dmActive_sorted : dmActive.Pairwise fun a b => (db.lastDm a).getD 0 ≥ (db.lastDm b).getD 0
  advertised_perm : advertised.Perm (db.contacts.filter isAdvertised)
  advertised_sorted : advertised.Pairwise fun a b => a.lastAdvert.getD 0 ≥ b.lastAdvert.getD 0

end SyncTables

/-- The loop over the rows of a tier: contacts that are selected already or of unknown type are
skipped, and the loop ends when enough are selected. -/
def fillFrom (enough : Nat) : List SyncContact → List SyncContact → List SyncContact
  | [], selected => selected
  | c :: rows, selected =>
      if c.key ∈ selected.map SyncContact.key ∨ c.type = 0 then fillFrom enough rows selected
      else if (selected ++ [c]).length ≥ enough then selected ++ [c]
      else fillFrom enough rows (selected ++ [c])

/-- The three loops, for a capacity. -/
def selectTiers {db : SyncTables} (tiers : db.Tiers) (maxContacts : Nat) : List SyncContact :=
  let target := refillTarget maxContacts
  let selected := fillFrom maxContacts tiers.favorites []
  let selected :=
    if selected.length < target then fillFrom target (tiers.dmActive.take maxContacts) selected
    else selected
  if selected.length < target then fillFrom target (tiers.advertised.take maxContacts) selected
  else selected

/-- `get_contacts_selected_for_radio_sync`. -/
def getContactsSelectedForRadioSync {db : SyncTables} (tiers : db.Tiers) (configured : Int)
    (hwLimit : Option Int) : List SyncContact :=
  selectTiers tiers (effectiveRadioCapacity configured hwLimit)

/-- The rows that are not skipped. -/
def newRows (rows selected : List SyncContact) : List SyncContact :=
  rows.filter fun c => decide (c.key ∉ selected.map SyncContact.key ∧ c.type ≠ 0)

section Fill

variable {rows selected : List SyncContact} {enough : Nat}

theorem mem_newRows {c : SyncContact} :
    c ∈ newRows rows selected ↔
      c ∈ rows ∧ c.key ∉ selected.map SyncContact.key ∧ c.type ≠ 0 := by
  rw [newRows, List.mem_filter, decide_eq_true_eq]

/-- A selected contact does not hide rows with other keys. -/
theorem newRows_append {c : SyncContact} (hc : c.key ∉ rows.map SyncContact.key) :
    newRows rows (selected ++ [c]) = newRows rows selected := by
  refine List.filter_congr fun d hd => ?_
  have hne : d.key ≠ c.key := fun heq => hc (heq ▸ List.mem_map_of_mem hd)
  simp [hne]

/-- **The loop over a tier** selects the first rows that are not skipped. -/
theorem fillFrom_eq (hnodup : (rows.map SyncContact.key).Nodup) (hlt : selected.length < enough) :
    fillFrom enough rows selected =
      selected ++ (newRows rows selected).take (enough - selected.length) := by
  induction rows generalizing selected with
  | nil => rw [fillFrom, newRows, List.filter_nil, List.take_nil, List.append_nil]
  | cons c rows ih =>
      rw [List.map_cons, List.nodup_cons] at hnodup
      rw [fillFrom]
      split
      next hskip =>
        have hfiltered : newRows (c :: rows) selected = newRows rows selected := by
          rw [newRows, List.filter_cons_of_neg, newRows]
          rw [decide_eq_true_eq]
          rintro ⟨hnew, htype⟩
          exact hskip.elim hnew htype
        rw [ih hnodup.2 hlt, hfiltered]
      next hkeep =>
        have hfiltered : newRows (c :: rows) selected = c :: newRows rows selected := by
          rw [newRows, List.filter_cons_of_pos, newRows]
          rw [decide_eq_true_eq]
          exact not_or.mp hkeep
        obtain ⟨room, hroom⟩ := Nat.exists_eq_succ_of_ne_zero (Nat.sub_pos_of_lt hlt).ne'
        have hlength : (selected ++ [c]).length = selected.length + 1 := by
          rw [List.length_append, List.length_singleton]
        rw [hfiltered, hroom, List.take_succ_cons, hlength]
        split
        next henough =>
          rw [show room = 0 by omega, List.take_zero]
        next hmore =>
          rw [ih hnodup.2 (by omega), newRows_append hnodup.1, hlength, List.append_assoc,
            List.singleton_append, show enough - (selected.length + 1) = room by omega]

/-- The selected keys stay distinct. -/
theorem nodup_append_newRows (hnodup : (rows.map SyncContact.key).Nodup)
    (hselected : (selected.map SyncContact.key).Nodup) (n : Nat) :
    ((selected ++ (newRows rows selected).take n).map SyncContact.key).Nodup := by
  rw [List.map_append, List.nodup_append]
  refine ⟨hselected, ?_, ?_⟩
  · exact hnodup.sublist (((List.take_sublist _ _).trans List.filter_sublist).map _)
  · intro k hk k' hk' heq
    obtain ⟨c, hc, rfl⟩ := List.mem_map.mp hk'
    exact (mem_newRows.mp (List.mem_of_mem_take hc)).2.1 (heq ▸ hk)

end Fill

section Stage

variable {db : SyncTables} {rows selected : List SyncContact} {enough : Nat}

theorem SyncTables.eq_of_key_eq {a b : SyncContact} (ha : a ∈ db.contacts) (hb : b ∈ db.contacts)
    (hkey : a.key = b.key) : a = b :=
  List.inj_on_of_nodup_map db.nodup ha hb hkey

/-- Nothing else is selected. -/
theorem mem_fillFrom (hnodup : (rows.map SyncContact.key).Nodup) (hlt : selected.length < enough)
    {c : SyncContact} (hc : c ∈ fillFrom enough rows selected) :
    c ∈ selected ∨ c ∈ rows ∧ c.type ≠ 0 := by
  rw [fillFrom_eq hnodup hlt, List.mem_append] at hc
  refine hc.imp_right fun hc => ?_
  obtain ⟨hrow, -, htype⟩ := mem_newRows.mp (List.mem_of_mem_take hc)
  exact ⟨hrow, htype⟩

theorem length_fillFrom_le (hnodup : (rows.map SyncContact.key).Nodup)
    (hlt : selected.length < enough) : (fillFrom enough rows selected).length ≤ enough := by
  rw [fillFrom_eq hnodup hlt, List.length_append, List.length_take]
  omega

/-- A loop that selects too few selects every row of a known type. -/
theorem mem_fillFrom_of_short (hrows : ∀ c ∈ rows, c ∈ db.contacts)
    (hselected : ∀ c ∈ selected, c ∈ db.contacts) (hnodup : (rows.map SyncContact.key).Nodup)
    (hlt : selected.length < enough) (hshort : (fillFrom enough rows selected).length < enough)
    {c : SyncContact} (hc : c ∈ rows) (htype : c.type ≠ 0) : c ∈ fillFrom enough rows selected := by
  rw [fillFrom_eq hnodup hlt] at hshort ⊢
  rw [List.length_append, List.length_take] at hshort
  rw [List.take_of_length_le (by omega), List.mem_append]
  by_cases hkey : c.key ∈ selected.map SyncContact.key
  · obtain ⟨d, hd, hdc⟩ := List.mem_map.mp hkey
    exact Or.inl (db.eq_of_key_eq (hselected d hd) (hrows c hc) hdc ▸ hd)
  · exact Or.inr (mem_newRows.mpr ⟨hc, hkey, htype⟩)

end Stage

namespace SyncTables

/-- A contact that the radio can hold: its key is whole, and its type is known; repeaters are
loaded only as favorites. -/
def Eligible (c : SyncContact) : Prop :=
  c.publicKey.length = 64 ∧ c.type ≠ 0 ∧ (c.favorite = true ∨ c.type ≠ 2)

instance (c : SyncContact) : Decidable (Eligible c) := by
  unfold Eligible
  infer_instance

/-- The contact is a favorite or among the first rows of a tier. -/
def Tiers.Within {db : SyncTables} (tiers : db.Tiers) (limit : Nat) (c : SyncContact) : Prop :=
  c ∈ tiers.favorites ∨ c ∈ tiers.dmActive.take limit ∨ c ∈ tiers.advertised.take limit

instance {db : SyncTables} (tiers : db.Tiers) (limit : Nat) (c : SyncContact) :
    Decidable (tiers.Within limit c) := by
  unfold Tiers.Within
  infer_instance

/-- The contacts of known type that the queries return. -/
def Tiers.candidates {db : SyncTables} (tiers : db.Tiers) (limit : Nat) : List SyncContact :=
  db.contacts.filter fun c => decide (tiers.Within limit c ∧ c.type ≠ 0)

/-- The favorites of known type, up to the capacity. -/
def Tiers.firstFavorites {db : SyncTables} (tiers : db.Tiers) (maxContacts : Nat) :
    List SyncContact :=
  (tiers.favorites.filter fun c => decide (c.type ≠ 0)).take maxContacts

/-- The selection is greedy and maximal: favorites first, then the next contacts of each tier in
its order, and it is short of the target only when no eligible contact is left. -/
structure Greedy {db : SyncTables} (tiers : db.Tiers) (maxContacts : Nat)
    (selected : List SyncContact) : Prop where
  nodup : (selected.map SyncContact.key).Nodup
  bounded : selected.length ≤ maxContacts
  ordered : ∃ dms adverts,
    selected = tiers.firstFavorites maxContacts ++ dms ++ adverts ∧
    dms <+: newRows tiers.dmActive (tiers.firstFavorites maxContacts) ∧
    adverts <+: newRows tiers.advertised (tiers.firstFavorites maxContacts ++ dms)
  maximal : selected.length < refillTarget maxContacts →
    ∀ c ∈ db.contacts, Eligible c → c ∈ selected

end SyncTables

section Selection

variable {db : SyncTables} {tiers : db.Tiers} {maxContacts : Nat}

theorem keys_nodup_of_perm {rows : List SyncContact} {p : SyncContact → Bool}
    (hperm : rows.Perm (db.contacts.filter p)) (n : Nat) :
    ((rows.take n).map SyncContact.key).Nodup := by
  have hrows : (rows.map SyncContact.key).Nodup :=
    (hperm.map _).nodup_iff.mpr (db.nodup.sublist (List.filter_sublist.map _))
  exact hrows.sublist ((List.take_sublist _ _).map _)

theorem mem_contacts_of_perm {rows : List SyncContact} {p : SyncContact → Bool}
    (hperm : rows.Perm (db.contacts.filter p)) {c : SyncContact} (hc : c ∈ rows) :
    c ∈ db.contacts :=
  List.mem_of_mem_filter (hperm.mem_iff.mp hc)

theorem refillTarget_le (h : 1 ≤ maxContacts) : refillTarget maxContacts ≤ maxContacts := by
  unfold refillTarget
  dsimp only
  omega

/-- The favorites are the first part of every selection. -/
theorem fillFrom_favorites (tiers : db.Tiers) (h : 1 ≤ maxContacts) :
    fillFrom maxContacts tiers.favorites [] = tiers.firstFavorites maxContacts := by
  have hnodup := keys_nodup_of_perm tiers.favorites_perm tiers.favorites.length
  rw [List.take_length] at hnodup
  have hall : newRows tiers.favorites [] =
      tiers.favorites.filter fun c => decide (c.type ≠ 0) := by
    refine List.filter_congr fun c _ => ?_
    simp
  rw [fillFrom_eq hnodup h, List.nil_append, List.length_nil, Nat.sub_zero, hall,
    SyncTables.Tiers.firstFavorites]

/-- A tier that is read, with its limit. -/
def fillTier (target : Nat) (rows selected : List SyncContact) : List SyncContact :=
  if selected.length < target then fillFrom target rows selected else selected

theorem selectTiers_eq (tiers : db.Tiers) (h : 1 ≤ maxContacts) :
    selectTiers tiers maxContacts =
      fillTier (refillTarget maxContacts) (tiers.advertised.take maxContacts)
        (fillTier (refillTarget maxContacts) (tiers.dmActive.take maxContacts)
          (tiers.firstFavorites maxContacts)) := by
  unfold selectTiers fillTier
  dsimp only
  rw [fillFrom_favorites tiers h]

/-- What a tier adds: the next of its rows in their order. -/
theorem fillTier_spec (target : Nat) (selected : List SyncContact) {rows : List SyncContact}
    (hnodup : ((rows.take maxContacts).map SyncContact.key).Nodup) :
    ∃ next, fillTier target (rows.take maxContacts) selected = selected ++ next ∧
      next <+: newRows rows selected ∧
      ((selected.map SyncContact.key).Nodup → ((selected ++ next).map SyncContact.key).Nodup) ∧
      (selected ++ next).length ≤ max selected.length target := by
  unfold fillTier
  split
  next hlt =>
    refine ⟨(newRows (rows.take maxContacts) selected).take (target - selected.length),
      fillFrom_eq hnodup hlt, ?_, fun hs => nodup_append_newRows hnodup hs _, ?_⟩
    · exact (List.take_prefix _ _).trans ((List.take_prefix maxContacts rows).filter _)
    · rw [List.length_append, List.length_take]
      omega
  next hge =>
    refine ⟨[], (List.append_nil _).symm, List.nil_prefix, fun hs => ?_, ?_⟩
    · rw [List.append_nil]
      exact hs
    · rw [List.append_nil]
      exact Nat.le_max_left _ _

/-- A tier adds no other contacts, and all it can when the target is not reached. -/
theorem mem_fillTier (target : Nat) {rows selected : List SyncContact}
    (hrows : ∀ c ∈ rows, c ∈ db.contacts) (hselected : ∀ c ∈ selected, c ∈ db.contacts)
    (hnodup : (rows.map SyncContact.key).Nodup) (c : SyncContact) :
    (c ∈ fillTier target rows selected → c ∈ selected ∨ c ∈ rows ∧ c.type ≠ 0) ∧
      ((fillTier target rows selected).length < target →
        c ∈ selected ∨ c ∈ rows ∧ c.type ≠ 0 → c ∈ fillTier target rows selected) := by
  unfold fillTier
  split
  next hlt =>
    refine ⟨mem_fillFrom hnodup hlt, fun hshort hc => ?_⟩
    rcases hc with hc | ⟨hc, htype⟩
    · rw [fillFrom_eq hnodup hlt]
      exact List.mem_append_left _ hc
    · exact mem_fillFrom_of_short hrows hselected hnodup hlt hshort hc htype
  next hge => exact ⟨Or.inl, fun hshort => absurd hshort hge⟩

theorem length_le_fillTier (target : Nat) {rows selected : List SyncContact}
    (hnodup : (rows.map SyncContact.key).Nodup) :
    selected.length ≤ (fillTier target rows selected).length := by
  unfold fillTier
  split
  next hlt =>
    rw [fillFrom_eq hnodup hlt, List.length_append]
    exact Nat.le_add_right _ _
  next => exact le_rfl

/-- The selected contacts are candidates, and all candidates are selected when the target is not
reached. -/
theorem mem_selectTiers (tiers : db.Tiers) (h : 1 ≤ maxContacts) (c : SyncContact) :
    (c ∈ selectTiers tiers maxContacts → c ∈ tiers.candidates maxContacts) ∧
      ((selectTiers tiers maxContacts).length < refillTarget maxContacts →
        c ∈ tiers.candidates maxContacts → c ∈ selectTiers tiers maxContacts) := by
  have hdm := keys_nodup_of_perm tiers.dmActive_perm maxContacts
  have hadv := keys_nodup_of_perm tiers.advertised_perm maxContacts
  have hfavIn : ∀ c ∈ tiers.firstFavorites maxContacts, c ∈ tiers.favorites ∧ c.type ≠ 0 := by
    intro c hc
    have hmem := List.mem_filter.mp (List.mem_of_mem_take hc)
    exact ⟨hmem.1, of_decide_eq_true hmem.2⟩
  have hfav : ∀ c ∈ tiers.firstFavorites maxContacts, c ∈ db.contacts := fun c hc =>
    mem_contacts_of_perm tiers.favorites_perm (hfavIn c hc).1
  have hdmIn : ∀ c ∈ tiers.dmActive.take maxContacts, c ∈ db.contacts := fun c hc =>
    mem_contacts_of_perm tiers.dmActive_perm (List.mem_of_mem_take hc)
  have hadvIn : ∀ c ∈ tiers.advertised.take maxContacts, c ∈ db.contacts := fun c hc =>
    mem_contacts_of_perm tiers.advertised_perm (List.mem_of_mem_take hc)
  have hdmTier := mem_fillTier (refillTarget maxContacts) hdmIn hfav hdm
  have hsecond : ∀ c ∈ fillTier (refillTarget maxContacts) (tiers.dmActive.take maxContacts)
      (tiers.firstFavorites maxContacts), c ∈ db.contacts := fun c hc =>
    ((hdmTier c).1 hc).elim (hfav c) fun hrow => hdmIn c hrow.1
  obtain ⟨hout, hin⟩ := mem_fillTier (refillTarget maxContacts) hadvIn hsecond hadv c
  rw [selectTiers_eq tiers h]
  unfold SyncTables.Tiers.candidates
  rw [List.mem_filter, decide_eq_true_eq]
  constructor
  · intro hc
    rcases hout hc with hc | ⟨hc, htype⟩
    · rcases (hdmTier c).1 hc with hc | ⟨hc, htype⟩
      · exact ⟨hfav c hc, Or.inl (hfavIn c hc).1, (hfavIn c hc).2⟩
      · exact ⟨hdmIn c hc, Or.inr (Or.inl hc), htype⟩
    · exact ⟨hadvIn c hc, Or.inr (Or.inr hc), htype⟩
  · rintro hshort ⟨hcontact, hwithin, htype⟩
    have hshort' := (length_le_fillTier (refillTarget maxContacts) hadv).trans_lt hshort
    have hfew := (length_le_fillTier (refillTarget maxContacts) hdm).trans_lt hshort'
    apply hin hshort
    rcases hwithin with hc | hc | hc
    · refine Or.inl ((hdmTier c).2 hshort' (Or.inl ?_))
      have hle := refillTarget_le h
      unfold SyncTables.Tiers.firstFavorites at hfew ⊢
      rw [List.length_take] at hfew
      rw [List.take_of_length_le (by omega)]
      exact List.mem_filter.mpr ⟨hc, decide_eq_true htype⟩
    · exact Or.inl ((hdmTier c).2 hshort' (Or.inr ⟨hc, htype⟩))
    · exact Or.inr ⟨hc, htype⟩

/-- Every selection is a greedy one but for its size. -/
theorem selectTiers_ordered (tiers : db.Tiers) (h : 1 ≤ maxContacts) :
    ((selectTiers tiers maxContacts).map SyncContact.key).Nodup ∧
      (selectTiers tiers maxContacts).length ≤ maxContacts ∧
      ∃ dms adverts,
        selectTiers tiers maxContacts = tiers.firstFavorites maxContacts ++ dms ++ adverts ∧
        dms <+: newRows tiers.dmActive (tiers.firstFavorites maxContacts) ∧
        adverts <+: newRows tiers.advertised (tiers.firstFavorites maxContacts ++ dms) := by
  have hfavorites : ((tiers.firstFavorites maxContacts).map SyncContact.key).Nodup := by
    have hnodup := keys_nodup_of_perm tiers.favorites_perm tiers.favorites.length
    rw [List.take_length] at hnodup
    exact hnodup.sublist (((List.take_sublist _ _).trans List.filter_sublist).map _)
  have hfew : (tiers.firstFavorites maxContacts).length ≤ maxContacts := List.length_take_le _ _
  have hle := refillTarget_le h
  obtain ⟨dms, hdms, hdmsPrefix, hdmsNodup, hdmsLength⟩ :=
    fillTier_spec (refillTarget maxContacts) (tiers.firstFavorites maxContacts)
      (keys_nodup_of_perm tiers.dmActive_perm maxContacts)
  obtain ⟨adverts, hadverts, hadvertsPrefix, hadvertsNodup, hadvertsLength⟩ :=
    fillTier_spec (refillTarget maxContacts) (tiers.firstFavorites maxContacts ++ dms)
      (keys_nodup_of_perm tiers.advertised_perm maxContacts)
  rw [selectTiers_eq tiers h, hdms, hadverts]
  refine ⟨hadvertsNodup (hdmsNodup hfavorites), by omega, dms, adverts, rfl, hdmsPrefix,
    hadvertsPrefix⟩

end Selection

theorem one_le_effectiveRadioCapacity (configured : Int) (hwLimit : Option Int) :
    1 ≤ effectiveRadioCapacity configured hwLimit := by
  unfold effectiveRadioCapacity
  cases hwLimit <;> dsimp only <;> omega

/-- **The selection is greedy and maximal** exactly when the favorites and the first rows of the
tiers hold enough contacts of known type for the refill target, or all eligible contacts. -/
theorem selection_greedy_iff {db : SyncTables} (tiers : db.Tiers) (configured : Int)
    (hwLimit : Option Int) :
    SyncTables.Greedy tiers (effectiveRadioCapacity configured hwLimit)
        (getContactsSelectedForRadioSync tiers configured hwLimit) ↔
      refillTarget (effectiveRadioCapacity configured hwLimit) ≤
          (tiers.candidates (effectiveRadioCapacity configured hwLimit)).length ∨
        ∀ c ∈ db.contacts, SyncTables.Eligible c →
          tiers.Within (effectiveRadioCapacity configured hwLimit) c := by
  have h := one_le_effectiveRadioCapacity configured hwLimit
  unfold getContactsSelectedForRadioSync
  generalize effectiveRadioCapacity configured hwLimit = maxContacts at h ⊢
  obtain ⟨hnodup, hbounded, hordered⟩ := selectTiers_ordered tiers h
  have hmem := mem_selectTiers tiers h
  have hcandidates : (tiers.candidates maxContacts).Nodup :=
    (List.Nodup.of_map _ db.nodup).filter _
  have hle : (selectTiers tiers maxContacts).length ≤ (tiers.candidates maxContacts).length :=
    ((List.Nodup.of_map _ hnodup).subperm fun c hc => (hmem c).1 hc).length_le
  constructor
  · intro hgreedy
    by_cases henough : refillTarget maxContacts ≤ (tiers.candidates maxContacts).length
    · exact Or.inl henough
    · refine Or.inr fun c hc heligible => ?_
      have hselected := hgreedy.maximal (by omega) c hc heligible
      exact (of_decide_eq_true (List.mem_filter.mp ((hmem c).1 hselected)).2).1
  · intro hcondition
    refine ⟨hnodup, hbounded, hordered, fun hshort c hc heligible => ?_⟩
    rcases hcondition with henough | hwithin
    · have hge : (tiers.candidates maxContacts).length ≤ (selectTiers tiers maxContacts).length :=
        (hcandidates.subperm fun c hc => (hmem c).2 hshort hc).length_le
      omega
    · refine (hmem c).2 hshort (List.mem_filter.mpr ⟨hc, decide_eq_true ⟨?_, heligible.2.1⟩⟩)
      exact hwithin c hc heligible

section Starved

/-- A contact of unknown type that wrote last. -/
def unknownContact : SyncContact where
  publicKey := List.replicate 64 'a'
  type := 0

/-- A chat contact that wrote before. -/
def chatContact : SyncContact where
  publicKey := List.replicate 64 'b'
  type := 1

/-- Both have written. -/
def starvedTables : SyncTables where
  contacts := [unknownContact, chatContact]
  directMessages := [(unknownContact.publicKey, 2), (chatContact.publicKey, 1)]
  nodup := by decide

/-- The rows of the queries. -/
def starvedTiers : starvedTables.Tiers where
  favorites := []
  dmActive := [unknownContact, chatContact]
  advertised := []
  favorites_perm := by decide
  dmActive_perm := by decide
  dmActive_sorted := by decide
  advertised_perm := by decide
  advertised_sorted := by decide

/-- With a capacity of one the limit leaves only the row of unknown type, and nothing is
selected. -/
theorem selection_starved :
    getContactsSelectedForRadioSync starvedTiers 1 none = [] ∧
      ¬ SyncTables.Greedy starvedTiers (effectiveRadioCapacity 1 none)
        (getContactsSelectedForRadioSync starvedTiers 1 none) := by
  have hnone : getContactsSelectedForRadioSync starvedTiers 1 none = [] := by decide
  refine ⟨hnone, fun hgreedy => ?_⟩
  have hselected := hgreedy.maximal (by decide) chatContact (by decide) (by decide)
  rw [hnone] at hselected
  exact absurd hselected List.not_mem_nil

end Starved

end RemoteTerm
