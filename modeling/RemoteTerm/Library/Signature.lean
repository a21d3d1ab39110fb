import Mathlib.Data.List.Nodup
import RemoteTerm.Library.Text

/-!
# Function signatures and calls

The parameters of a Python function and what a call gives them: positional
arguments fill the positional parameters in their order, keyword arguments those
of their name, and what is left goes to the `*args` and `**kwargs` of the
signature or makes the call fail.

## Implementation notes

Whether a call binds depends on the number of positional arguments and on the
keywords only, so `Accepts` is about these.
-/

namespace Library

/-- The kinds of parameters. -/
inductive ParameterKind where
  | positionalOnly
  | positionalOrKeyword
  | varPositional
  | keywordOnly
  | varKeyword
  deriving DecidableEq

/-- A parameter. -/
structure Parameter where
  name : Text
  kind : ParameterKind
  hasDefault : Bool := false
  deriving DecidableEq

namespace Parameter

variable (p : Parameter)

/-- A positional argument may fill the parameter. -/
def ByPosition : Prop := p.kind = .positionalOnly ∨ p.kind = .positionalOrKeyword

/-- A keyword argument may fill the parameter. -/
def ByKeyword : Prop := p.kind = .positionalOrKeyword ∨ p.kind = .keywordOnly

/-- The parameter takes the arguments that are left. -/
def TakesRest : Prop := p.kind = .varPositional ∨ p.kind = .varKeyword

instance : DecidablePred ByPosition := fun _ => inferInstanceAs (Decidable (_ ∨ _))

instance : DecidablePred ByKeyword := fun _ => inferInstanceAs (Decidable (_ ∨ _))

instance : DecidablePred TakesRest := fun _ => inferInstanceAs (Decidable (_ ∨ _))

end Parameter

/-- Parameters, one of each name. -/
structure Signature where
  parameters : List Parameter
  nodup : (parameters.map Parameter.name).Nodup

/-- What a parameter has after a call. -/
inductive Bound (α : Type) where
  | value (a : α)
  | many (args : List α)
  | dict (kwargs : List (Text × α))
  | default

namespace Signature

variable {α : Type} (sig : Signature)

/-- The names of the parameters. -/
def names : List Text := sig.parameters.map Parameter.name

/-- The parameters that positional arguments fill. -/
def positional : List Parameter := sig.parameters.filter fun p => decide p.ByPosition

/-- There is a parameter of a kind. -/
def HasKind (kind : ParameterKind) : Prop := ∃ p ∈ sig.parameters, p.kind = kind

instance (kind : ParameterKind) : Decidable (sig.HasKind kind) :=
  inferInstanceAs (Decidable (∃ p ∈ sig.parameters, _))

/-- A keyword argument of this name fills a parameter. -/
def Names (keyword : Text) : Prop := ∃ p ∈ sig.parameters, p.ByKeyword ∧ p.name = keyword

instance (keyword : Text) : Decidable (sig.Names keyword) :=
  inferInstanceAs (Decidable (∃ p ∈ sig.parameters, _))

/-- A call with a number of positional arguments and with keywords binds: not too many positional
arguments, no parameter given twice, no unexpected keyword and no parameter missing. -/
structure Accepts (count : Nat) (keywords : List Text) : Prop where
  fits : count ≤ sig.positional.length ∨ sig.HasKind .varPositional
  once : ∀ p ∈ sig.positional.take count, p.ByKeyword → p.name ∉ keywords
  expected : ∀ keyword ∈ keywords, sig.Names keyword ∨ sig.HasKind .varKeyword
  given : ∀ p ∈ sig.parameters, p ∉ sig.positional.take count →
    p.TakesRest ∨ p.hasDefault ∨ p.ByKeyword ∧ p.name ∈ keywords

instance (count : Nat) (keywords : List Text) : Decidable (sig.Accepts count keywords) :=
  decidable_of_iff
    ((count ≤ sig.positional.length ∨ sig.HasKind .varPositional) ∧
      (∀ p ∈ sig.positional.take count, p.ByKeyword → p.name ∉ keywords) ∧
      (∀ keyword ∈ keywords, sig.Names keyword ∨ sig.HasKind .varKeyword) ∧
      ∀ p ∈ sig.parameters, p ∉ sig.positional.take count →
        p.TakesRest ∨ p.hasDefault ∨ p.ByKeyword ∧ p.name ∈ keywords)
    ⟨fun ⟨h1, h2, h3, h4⟩ => ⟨h1, h2, h3, h4⟩, fun h => ⟨h.1, h.2, h.3, h.4⟩⟩

/-- The argument that fills a parameter. -/
def argument (args : List α) (kwargs : List (Text × α)) (p : Parameter) : Option α :=
  (if p ∈ sig.positional then args[sig.positional.idxOf p]? else none) <|>
    if p.ByKeyword then kwargs.lookup p.name else none

/-- What a parameter has after a call that binds. -/
def receives (args : List α) (kwargs : List (Text × α)) (p : Parameter) : Bound α :=
  match p.kind with
  | .varPositional => .many (args.drop sig.positional.length)
  | .varKeyword => .dict (kwargs.filter fun k => decide (¬ sig.Names k.1))
  | _ => (sig.argument args kwargs p).elim .default .value

/-- A call, with `none` for a `TypeError`. -/
def bind (args : List α) (kwargs : List (Text × α)) : Option (Parameter → Bound α) :=
  if sig.Accepts args.length (kwargs.map Prod.fst) then some (sig.receives args kwargs) else none

variable {sig} {p q : Parameter} {args : List α} {kwargs : List (Text × α)} {count more : Nat}
  {keywords : List Text} {a : α}

theorem mem_positional : p ∈ sig.positional ↔ p ∈ sig.parameters ∧ p.ByPosition := by
  simp [positional]

/-- A parameter is known by its name. -/
theorem eq_of_name_eq (hp : p ∈ sig.parameters) (hq : q ∈ sig.parameters) (h : p.name = q.name) :
    p = q :=
  List.inj_on_of_nodup_map sig.nodup hp hq h

theorem nodup_positional : sig.positional.Nodup :=
  (List.Nodup.of_map _ sig.nodup).filter _

/-- Only an argument fills a parameter. -/
theorem receives_eq_value_iff :
    sig.receives args kwargs p = .value a ↔ ¬ p.TakesRest ∧ sig.argument args kwargs p = some a := by
  unfold receives Parameter.TakesRest
  cases hkind : p.kind <;> cases sig.argument args kwargs p <;> simp

/-- A keyword argument fills the parameter of its name. -/
theorem argument_keyword :
    sig.argument [] kwargs p = if p.ByKeyword then kwargs.lookup p.name else none := by
  simp [argument]

/-- A positional argument fills the parameter at its place. -/
theorem argument_positional :
    sig.argument args [] p = some a ↔ ∃ i : Nat, sig.positional[i]? = some p ∧ args[i]? = some a := by
  have hnone : (if p.ByKeyword then ([] : List (Text × α)).lookup p.name else none) = none := by
    split_ifs <;> rfl
  rw [argument, hnone]
  by_cases hmem : p ∈ sig.positional
  · have hleft : ∀ o : Option α, (o <|> none) = o := fun o => by cases o <;> rfl
    rw [if_pos hmem, hleft]
    refine ⟨fun h => ⟨sig.positional.idxOf p, List.getElem?_idxOf hmem, h⟩, ?_⟩
    rintro ⟨i, hi, ha⟩
    obtain ⟨hlt, rfl⟩ := List.getElem?_eq_some_iff.mp hi
    rwa [nodup_positional.idxOf_getElem]
  · rw [if_neg hmem]
    refine ⟨fun h => (by cases h), ?_⟩
    rintro ⟨i, hi, -⟩
    exact absurd (List.mem_of_getElem? hi) hmem

/-- More positional arguments that fit are accepted as well. -/
theorem Accepts.mono (h : sig.Accepts count []) (hle : count ≤ more)
    (hfits : more ≤ sig.positional.length ∨ sig.HasKind .varPositional) : sig.Accepts more [] where
  fits := hfits
  once _ _ _ := List.not_mem_nil
  expected _ hk := absurd hk List.not_mem_nil
  given p hp hnot := h.given p hp fun hmem => hnot (List.take_subset_take_left _ hle hmem)

end Signature

end Library
