import Mathlib
import RemoteTerm.Library.Machine
import RemoteTerm.Library.Text

/-!
# The contact list of the browser

The browser keeps the list of contacts by the events that follow each change of
the server's table, and by loads that read the table page by page and replace
the list. A load that read a page before a change can replace the list after the
event of the change; then the change is lost.

## Implementation notes

An event carries all fields of its contact, so merging it into the list replaces
the old fields. A page is a slice of any ordering of the table by name; rows with
equal names may come in any order.
-/

namespace RemoteTerm

open Library

namespace Frontend

/-- A contact: its key, its name and its other fields, which `φ` stands for. -/
structure ListedContact (φ : Type) where
  publicKey : Text
  name : Option Text := none
  fields : φ

variable {φ : Type}

/-- An event about contacts. -/
inductive ContactEvent (φ : Type) where
  | contact (c : ListedContact φ)
  | contactResolved (previousPublicKey : Text) (c : ListedContact φ)
  | contactDeleted (publicKey : Text)

/-- The contact with a key. -/
def findContact (rows : List (ListedContact φ)) (key : Text) : Option (ListedContact φ) :=
  rows.find? fun c => c.publicKey = key

/-- `mergeContactIntoList`. -/
def mergeContactIntoList : List (ListedContact φ) → ListedContact φ → List (ListedContact φ)
  | [], incoming => [incoming]
  | c :: rest, incoming =>
      if c.publicKey = incoming.publicKey then incoming :: rest
      else c :: mergeContactIntoList rest incoming

/-- The list without a key. -/
def withoutContact (rows : List (ListedContact φ)) (key : Text) : List (ListedContact φ) :=
  rows.filter fun c => decide (c.publicKey ≠ key)

namespace ContactEvent

/-- `onContact`, `onContactResolved` and `onContactDeleted`. -/
def applyTo (rows : List (ListedContact φ)) : ContactEvent φ → List (ListedContact φ)
  | .contact c => mergeContactIntoList rows c
  | .contactResolved previousPublicKey c =>
      mergeContactIntoList (withoutContact rows previousPublicKey) c
  | .contactDeleted publicKey => withoutContact rows publicKey

/-- The keys that an event is about. -/
def keys : ContactEvent φ → List Text
  | .contact c => [c.publicKey]
  | .contactResolved previousPublicKey c => [previousPublicKey, c.publicKey]
  | .contactDeleted publicKey => [publicKey]

/-- What the event says of a key that it is about. -/
def value (key : Text) : ContactEvent φ → Option (ListedContact φ)
  | .contact c => some c
  | .contactResolved _ c => if key = c.publicKey then some c else none
  | .contactDeleted _ => none

end ContactEvent

/-- The number of contacts on a page. -/
def contactPageSize : Nat := 1000

/-- The number of pages that are requested at once. -/
def contactWave : Nat := 4

/-- A run of `fetchAllContacts`: the number of pages that were requested, and the answers. -/
structure ContactLoad (φ : Type) where
  requested : Nat := 1
  answers : Nat → Option (List (ListedContact φ)) := fun _ => none

namespace ContactLoad

variable (load : ContactLoad φ)

/-- Every page that was requested is there. -/
def answered : Bool := (List.range load.requested).all fun i => (load.answers i).isSome

/-- The last page is short, so no page follows it. -/
def atEnd : Bool :=
  decide (((load.answers (load.requested - 1)).getD []).length < contactPageSize)

/-- The pages one after the other. -/
def rows : List (ListedContact φ) :=
  (List.range load.requested).flatMap fun i => (load.answers i).getD []

end ContactLoad

/-- The server's table, the events on their way, the loads and the list of the browser. -/
structure ContactSync (φ : Type) where
  table : List (ListedContact φ)
  pending : List (ContactEvent φ) := []
  loads : List (ContactLoad φ) := [{}]
  contacts : List (ListedContact φ) := []

/-- What happens on the server and in the browser. -/
inductive ContactAction (φ : Type) where
  | insert (c : ListedContact φ)
  | update (c : ListedContact φ)
  | resolve (previousPublicKey : Text) (c : ListedContact φ)
  | delete (publicKey : Text)
  | deliver
  | startLoad
  | answer (load page : Nat) (order : List (ListedContact φ))
  | proceed (load : Nat)

namespace ContactSync

variable (s : ContactSync φ)

/-- The table has the key. -/
def has (key : Text) : Bool := decide (key ∈ s.table.map ListedContact.publicKey)

/-- A row is written: its key is there already, or the row is new. -/
def upsert (rows : List (ListedContact φ)) (c : ListedContact φ) : List (ListedContact φ) :=
  if c.publicKey ∈ rows.map ListedContact.publicKey then
    rows.map fun row => if row.publicKey = c.publicKey then c else row
  else rows ++ [c]

/-- A change of the table, and its event. -/
def change (table : List (ListedContact φ)) (e : ContactEvent φ) : ContactSync φ :=
  { s with table, pending := s.pending ++ [e] }

/-- The state after an action; an action that cannot happen changes nothing. -/
def apply : ContactAction φ → ContactSync φ
  | .insert c => if s.has c.publicKey then s else s.change (s.table ++ [c]) (.contact c)
  | .update c => if s.has c.publicKey then s.change (upsert s.table c) (.contact c) else s
  | .resolve previousPublicKey c =>
      if s.has previousPublicKey then
        s.change (upsert (withoutContact s.table previousPublicKey) c)
          (.contactResolved previousPublicKey c)
      else s
  | .delete publicKey =>
      if s.has publicKey then
        s.change (withoutContact s.table publicKey) (.contactDeleted publicKey)
      else s
  | .deliver =>
      match s.pending with
      | [] => s
      | e :: rest => { s with pending := rest, contacts := e.applyTo s.contacts }
  | .startLoad => { s with loads := s.loads ++ [{}] }
  | .answer load page order =>
      match s.loads[load]? with
      | none => s
      | some l =>
          if page < l.requested ∧ l.answers page = none then
            { s with
              loads := s.loads.set load
                { l with
                  answers := Function.update l.answers page
                    (some ((order.drop (page * contactPageSize)).take contactPageSize)) } }
          else s
  | .proceed load =>
      match s.loads[load]? with
      | none => s
      | some l =>
          if l.answered then
            if l.atEnd then { s with contacts := l.rows, loads := s.loads.eraseIdx load }
            else
              { s with
                loads := s.loads.set load { l with requested := l.requested + contactWave } }
          else s

/-- `ORDER BY COALESCE(name, public_key)`. -/
def OrderedByName (order : List (ListedContact φ)) : Prop :=
  order.Pairwise fun a b => a.name.getD a.publicKey ≤ b.name.getD b.publicKey

/-- The server answers with a page of its table. -/
def Served : ContactAction φ → Prop
  | .answer _ _ order => order.Perm s.table ∧ OrderedByName order
  | _ => True

/-- A list is right but for the events on their way: no contact is in it twice, and each contact
that no such event is about is as the table has it. -/
structure Current (rows : List (ListedContact φ)) : Prop where
  nodup : (rows.map ListedContact.publicKey).Nodup
  find : ∀ key, (∀ e ∈ s.pending, key ∉ e.keys) → findContact rows key = findContact s.table key

/-- The pages of a load are right but for the events on their way: no contact is on them twice, and
those that no such event is about are the contacts of the table. -/
structure PagesCurrent (l : ContactLoad φ) : Prop where
  nodup : (l.rows.map ListedContact.publicKey).Nodup
  stored : ∀ i < l.requested, ∀ page ∈ l.answers i, ∀ c ∈ page,
    (∀ e ∈ s.pending, c.publicKey ∉ e.keys) → c ∈ s.table
  listed : ∀ c ∈ s.table, (∀ e ∈ s.pending, c.publicKey ∉ e.keys) →
    ∃ i < l.requested, ∃ page ∈ l.answers i, c ∈ page

/-- A load that replaces the list has current pages. -/
def LoadCurrent : ContactAction φ → Prop
  | .proceed load => ∀ l, s.loads[load]? = some l → l.answered = true → l.atEnd = true →
      s.PagesCurrent l
  | _ => True

end ContactSync

section Lists

variable {rows : List (ListedContact φ)} {c : ListedContact φ} {key : Text}

theorem findContact_cons (c : ListedContact φ) (rows : List (ListedContact φ)) (key : Text) :
    findContact (c :: rows) key = if c.publicKey = key then some c else findContact rows key := by
  unfold findContact
  rw [List.find?_cons]
  by_cases h : c.publicKey = key <;> simp [h]

theorem findContact_merge (rows : List (ListedContact φ)) (c : ListedContact φ) (key : Text) :
    findContact (mergeContactIntoList rows c) key =
      if key = c.publicKey then some c else findContact rows key := by
  induction rows with
  | nil =>
      rw [mergeContactIntoList, findContact_cons]
      simp only [eq_comm]
  | cons d rows ih =>
      rw [mergeContactIntoList]
      split
      next heq =>
        rw [findContact_cons, findContact_cons, heq]
        by_cases hkey : c.publicKey = key
        · rw [if_pos hkey, if_pos hkey.symm]
        · rw [if_neg hkey, if_neg hkey, if_neg fun h => hkey h.symm]
      next hne =>
        rw [findContact_cons, ih, findContact_cons]
        by_cases hkey : d.publicKey = key
        · rw [if_pos hkey, if_pos hkey, if_neg fun h => hne (hkey.trans h)]
        · rw [if_neg hkey, if_neg hkey]

theorem findContact_without (rows : List (ListedContact φ)) (gone key : Text) :
    findContact (withoutContact rows gone) key =
      if key = gone then none else findContact rows key := by
  induction rows with
  | nil =>
      rw [withoutContact, List.filter_nil]
      split <;> rfl
  | cons c rows ih =>
      rw [withoutContact] at ih ⊢
      by_cases hgone : c.publicKey = gone
      · rw [List.filter_cons_of_neg (by simpa using hgone), ih, findContact_cons, hgone]
        by_cases hkey : key = gone
        · rw [if_pos hkey, if_pos hkey]
        · rw [if_neg hkey, if_neg hkey, if_neg fun h => hkey h.symm]
      · rw [List.filter_cons_of_pos (by simpa using hgone), findContact_cons, ih, findContact_cons]
        by_cases hkey : key = gone
        · rw [if_pos hkey, if_pos hkey, if_neg fun h => hgone (h.trans hkey)]
        · rw [if_neg hkey, if_neg hkey]

/-- **An event** changes the contacts that it is about, and no others. -/
theorem ContactEvent.findContact_applyTo (e : ContactEvent φ) (rows : List (ListedContact φ))
    (key : Text) :
    findContact (e.applyTo rows) key =
      if key ∈ e.keys then e.value key else findContact rows key := by
  cases e with
  | contact c =>
      simp only [applyTo, findContact_merge, keys, List.mem_singleton, value]
  | contactResolved previous c =>
      rw [applyTo, findContact_merge, findContact_without, keys, value]
      by_cases hkey : key = c.publicKey
      · rw [if_pos hkey, if_pos (by simp [hkey]), if_pos hkey]
      · rw [if_neg hkey]
        by_cases hprevious : key = previous
        · rw [if_pos hprevious, if_pos (by simp [hprevious]), if_neg hkey]
        · rw [if_neg hprevious, if_neg (by simp [hkey, hprevious])]
  | contactDeleted gone =>
      simp only [applyTo, findContact_without, keys, List.mem_singleton, value]

end Lists

end Frontend

end RemoteTerm
