import Mathlib.Logic.Relation
import Mathlib.Data.List.Basic

/-!
# Programs that suspend at named calls

A cooperative task is a tree: it returns, or it names one call and continues
with the answer. Everything between two calls runs without interruption, so a
pool of such trees interleaves exactly at the calls. The semantics of the calls
is a relation on a shared state, fixed separately from the programs.

## Implementation notes

The trees are inductive, so a program makes finitely many calls on every path.
A loop without a bound is unrolled a given number of times; a statement about
every finite run quantifies over that number.
-/

namespace Library

/-- A task: it returns a value, or suspends at a call and continues with the answer. -/
inductive Program (Op : Type) (Ans : Op → Type) (α : Type) : Type where
  | pure (a : α) : Program Op Ans α
  | call (op : Op) (next : Ans op → Program Op Ans α) : Program Op Ans α

namespace Program

variable {Op : Type} {Ans : Op → Type} {α β σ ε : Type}

/-- Run one program, then the program chosen by its value. -/
def bind : Program Op Ans α → (α → Program Op Ans β) → Program Op Ans β
  | .pure a, f => f a
  | .call op next, f => .call op fun x => (next x).bind f

instance : Monad (Program Op Ans) where
  pure := Program.pure
  bind := Program.bind

/-- The program that makes one call and returns its answer. -/
def await (op : Op) : Program Op Ans (Ans op) := .call op .pure

/-- The call that a program is suspended at. -/
def nextCall : Program Op Ans α → Option Op
  | .pure _ => none
  | .call op _ => some op

/-- The value of a program that has returned. -/
def returned : Program Op Ans α → Option α
  | .pure a => some a
  | .call _ _ => none

theorem returned_eq_some_iff {p : Program Op Ans α} {a : α} :
    p.returned = some a ↔ p = .pure a := by
  cases p with
  | pure b => simp [returned]
  | call op next => simp [returned]

@[simp] theorem nextCall_pure (a : α) : (Program.pure a : Program Op Ans α).nextCall = none := rfl

@[simp] theorem nextCall_call (op : Op) (next : Ans op → Program Op Ans α) :
    (Program.call op next).nextCall = some op := rfl

@[simp] theorem pure_eq (a : α) : (Pure.pure a : Program Op Ans α) = .pure a := rfl

@[simp] theorem pure_bind (a : α) (f : α → Program Op Ans β) :
    (Program.pure a >>= f) = f a := rfl

@[simp] theorem call_bind (op : Op) (next : Ans op → Program Op Ans α)
    (f : α → Program Op Ans β) :
    (Program.call op next >>= f) = .call op fun x => next x >>= f := rfl

@[simp] theorem await_bind (op : Op) (f : Ans op → Program Op Ans β) :
    (await op >>= f) = .call op f := rfl

/-- What a call may answer in a state, and the state it leaves. -/
abbrev Semantics (Op : Type) (Ans : Op → Type) (σ : Type) : Type :=
  (op : Op) → σ → Ans op → σ → Prop

/-- The calls of `sem` whose operation and state satisfy a condition. -/
def Semantics.when (sem : Semantics Op Ans σ) (ok : Op → σ → Prop) : Semantics Op Ans σ :=
  fun op s x s' => ok op s ∧ sem op s x s'

/-- The semantics of a transition function that reads the environment's choice. -/
def Semantics.ofFunction (act : ε → (op : Op) → σ → Option (Ans op × σ)) :
    Semantics Op Ans σ :=
  fun op s x s' => ∃ e, act e op s = some (x, s')

section Sequential

variable (sem : Semantics Op Ans σ)

/-- A program runs alone from a state to its value and a final state. -/
inductive Eval : Program Op Ans α → σ → α → σ → Prop
  | pure (a : α) (s : σ) : Eval (.pure a) s a s
  | call {op : Op} {next : Ans op → Program Op Ans α} {s s' s'' : σ} {x : Ans op} {a : α}
      (h : sem op s x s') (tail : Eval (next x) s' a s'') : Eval (.call op next) s a s''

variable {sem}

@[simp] theorem eval_pure_iff {a b : α} {s s' : σ} :
    Eval sem (.pure a) s b s' ↔ b = a ∧ s' = s := by
  constructor
  · intro h
    cases h
    exact ⟨rfl, rfl⟩
  · rintro ⟨rfl, rfl⟩
    exact .pure _ _

@[simp] theorem eval_call_iff {op : Op} {next : Ans op → Program Op Ans α} {s s'' : σ} {a : α} :
    Eval sem (.call op next) s a s'' ↔
      ∃ x s', sem op s x s' ∧ Eval sem (next x) s' a s'' := by
  constructor
  · intro h
    cases h with
    | call h tail => exact ⟨_, _, h, tail⟩
  · rintro ⟨x, s', h, tail⟩
    exact .call h tail

/-- A sequence of two programs runs through an intermediate value and state. -/
theorem eval_bind_iff {p : Program Op Ans α} {f : α → Program Op Ans β} {s s'' : σ} {b : β} :
    Eval sem (p >>= f) s b s'' ↔ ∃ a s', Eval sem p s a s' ∧ Eval sem (f a) s' b s'' := by
  induction p generalizing s with
  | pure a => simp
  | call op next ih =>
      simp only [call_bind, eval_call_iff, ih]
      constructor
      · rintro ⟨x, s', h, a, t, hp, hf⟩
        exact ⟨a, t, ⟨x, s', h, hp⟩, hf⟩
      · rintro ⟨a, t, ⟨x, s', h, hp⟩, hf⟩
        exact ⟨x, s', h, a, t, hp, hf⟩

/-- Every call that a program can make satisfies a condition. -/
def Calls (ok : Op → Prop) : Program Op Ans α → Prop
  | .pure _ => True
  | .call op next => ok op ∧ ∀ x, (next x).Calls ok

@[simp] theorem calls_pure {ok : Op → Prop} (a : α) :
    (Program.pure a : Program Op Ans α).Calls ok := trivial

@[simp] theorem calls_call {ok : Op → Prop} {op : Op} {next : Ans op → Program Op Ans α} :
    (Program.call op next).Calls ok ↔ ok op ∧ ∀ x, (next x).Calls ok := Iff.rfl

@[simp] theorem calls_await {ok : Op → Prop} {op : Op} :
    (await op : Program Op Ans (Ans op)).Calls ok ↔ ok op := by
  simp [await]

theorem Calls.bind {ok : Op → Prop} {p : Program Op Ans α} {f : α → Program Op Ans β}
    (hp : p.Calls ok) (hf : ∀ a, (f a).Calls ok) : (p >>= f).Calls ok := by
  induction p with
  | pure a => exact hf a
  | call op next ih => exact ⟨hp.1, fun x => ih x (hp.2 x)⟩

theorem Calls.mono {ok ok' : Op → Prop} (h : ∀ op, ok op → ok' op) {p : Program Op Ans α}
    (hp : p.Calls ok) : p.Calls ok' := by
  induction p with
  | pure a => trivial
  | call op next ih => exact ⟨h op hp.1, fun x => ih x (hp.2 x)⟩

theorem calls_true (p : Program Op Ans α) : p.Calls fun _ => True := by
  induction p with
  | pure a => trivial
  | call op next ih => exact ⟨trivial, ih⟩

/-- Whatever it is answered, the program makes a call that satisfies a condition. -/
def Must (ok : Op → Prop) : Program Op Ans α → Prop
  | .pure _ => False
  | .call op next => ok op ∨ ∀ x, (next x).Must ok

/-- A program none of whose calls can block runs to its end. -/
theorem Calls.eval {ok : Op → Prop} (hsem : ∀ op, ok op → ∀ s, ∃ x s', sem op s x s')
    {p : Program Op Ans α} (hp : p.Calls ok) (s : σ) : ∃ a s', Eval sem p s a s' := by
  induction p generalizing s with
  | pure a => exact ⟨a, s, .pure a s⟩
  | call op next ih =>
      obtain ⟨x, t, hx⟩ := hsem op hp.1 s
      obtain ⟨a, s', ha⟩ := ih x (hp.2 x) t
      exact ⟨a, s', .call hx ha⟩

/-- What every permitted call keeps, the whole program keeps. -/
theorem Eval.keeps {ok : Op → Prop} {K : σ → σ → Prop} (hrefl : ∀ s, K s s)
    (htrans : ∀ {a b c}, K a b → K b c → K a c)
    (hsem : ∀ {op s x s'}, ok op → sem op s x s' → K s s')
    {p : Program Op Ans α} {s s' : σ} {a : α} (h : Eval sem p s a s') (hp : p.Calls ok) :
    K s s' := by
  induction h with
  | pure => exact hrefl _
  | call hx _ ih => exact htrans (hsem hp.1 hx) (ih (hp.2 _))

/-- A program whose calls have one answer each has one run from each state. -/
theorem Eval.unique {ok : Op → Prop}
    (hdet : ∀ {op s x s' y s''}, ok op → sem op s x s' → sem op s y s'' → x = y ∧ s' = s'')
    {p : Program Op Ans α} {s s' s'' : σ} {a b : α} (h : Eval sem p s a s')
    (h' : Eval sem p s b s'') (hp : p.Calls ok) : a = b ∧ s' = s'' := by
  induction h with
  | pure a s =>
      obtain ⟨rfl, rfl⟩ := eval_pure_iff.mp h'
      exact ⟨rfl, rfl⟩
  | call hx _ ih =>
      obtain ⟨y, t, hy, htail⟩ := eval_call_iff.mp h'
      obtain ⟨rfl, rfl⟩ := hdet hp.1 hx hy
      exact ih htail (hp.2 _)

/-- Run a program alone with a deterministic transition function. -/
def run (act : (op : Op) → σ → Option (Ans op × σ)) : Program Op Ans α → σ → Option (α × σ)
  | .pure a, s => some (a, s)
  | .call op next, s =>
      match act op s with
      | none => none
      | some (x, s') => run act (next x) s'

/-- A computed run is a run of the semantics that contains the function. -/
theorem run_eval {act : (op : Op) → σ → Option (Ans op × σ)}
    (hact : ∀ op s x s', act op s = some (x, s') → sem op s x s')
    {p : Program Op Ans α} {s s' : σ} {a : α} (h : p.run act s = some (a, s')) :
    Eval sem p s a s' := by
  induction p generalizing s with
  | pure b =>
      simp only [run, Option.some.injEq, Prod.mk.injEq] at h
      obtain ⟨rfl, rfl⟩ := h
      exact .pure _ _
  | call op next ih =>
      simp only [run] at h
      cases hc : act op s with
      | none => simp [hc] at h
      | some r =>
          obtain ⟨x, t⟩ := r
          simp only [hc] at h
          exact .call (hact _ _ _ _ hc) (ih x h)

theorem run_bind {act : (op : Op) → σ → Option (Ans op × σ)} {p : Program Op Ans α}
    {f : α → Program Op Ans β} {s : σ} :
    (p >>= f).run act s = (p.run act s).bind fun r => (f r.1).run act r.2 := by
  induction p generalizing s with
  | pure a => rfl
  | call op next ih =>
      simp only [call_bind, run]
      cases act op s with
      | none => rfl
      | some r => exact ih r.1

/-- A program whose calls are all answered where they leave the state alone ends in it. -/
theorem Calls.run_stays {act : (op : Op) → σ → Option (Ans op × σ)} {ok : Op → Prop}
    (hact : ∀ op, ok op → ∀ s, ∃ x, act op s = some (x, s)) {p : Program Op Ans α}
    (hp : p.Calls ok) (s : σ) : ∃ a, p.run act s = some (a, s) := by
  induction p with
  | pure a => exact ⟨a, rfl⟩
  | call op next ih =>
      obtain ⟨x, hx⟩ := hact op hp.1 s
      obtain ⟨a, ha⟩ := ih x (hp.2 x)
      refine ⟨a, ?_⟩
      simp only [run, hx]
      exact ha

end Sequential

section Retry

/-- How one attempt ends: it is done, it failed, or the loop around it is left. -/
inductive Attempt where
  | done
  | failed
  | aborted
  deriving DecidableEq, Repr

/-- Repeat an attempt while it fails, a bounded number of times. -/
def retry (attempt : Program Op Ans Attempt) : Nat → Program Op Ans Attempt
  | 0 => Program.pure .failed
  | attempts + 1 => do
      let ended ← attempt
      match ended with
      | .failed => retry attempt attempts
      | ended => Program.pure ended

theorem Calls.retry {ok : Op → Prop} {attempt : Program Op Ans Attempt} (h : attempt.Calls ok)
    (attempts : Nat) : (retry attempt attempts).Calls ok := by
  induction attempts with
  | zero => exact trivial
  | succ attempts ih =>
      refine Calls.bind h fun ended => ?_
      cases ended with
      | failed => exact ih
      | done => exact trivial
      | aborted => exact trivial

end Retry

section Hoist

variable {Op' : Type} {Ans' : Op' → Type}

/-- Run a program over other calls: each call is replaced by a program that answers it. -/
def hoist (emb : (op : Op) → Program Op' Ans' (Ans op)) : Program Op Ans α → Program Op' Ans' α
  | .pure a => .pure a
  | .call op next => emb op >>= fun x => (next x).hoist emb

theorem Calls.hoist {emb : (op : Op) → Program Op' Ans' (Ans op)} {ok : Op → Prop}
    {ok' : Op' → Prop} (hemb : ∀ op, ok op → (emb op).Calls ok') {p : Program Op Ans α}
    (hp : p.Calls ok) : (p.hoist emb).Calls ok' := by
  induction p with
  | pure a => exact trivial
  | call op next ih => exact Calls.bind (hemb op hp.1) fun x => ih x (hp.2 x)

end Hoist

section RelyGuarantee

variable (sem : Semantics Op Ans σ) (R G : σ → σ → Prop)

/-- Whatever moves `R` others make before each call, every call of the program
makes a move of `G`, and a value is only returned in a state satisfying `Q`. -/
def Safe (Q : α → σ → Prop) : Program Op Ans α → σ → Prop
  | .pure a, s => ∀ s', R s s' → Q a s'
  | .call op next, s => ∀ s', R s s' → ∀ x s'', sem op s' x s'' →
      G s' s'' ∧ Safe Q (next x) s''

variable {sem R G} {Q : α → σ → Prop}

/-- Moves of the others keep a program safe. -/
theorem Safe.rely (htrans : ∀ {a b c}, R a b → R b c → R a c) {p : Program Op Ans α}
    {s s' : σ} (h : Safe sem R G Q p s) (hr : R s s') : Safe sem R G Q p s' := by
  cases p with
  | pure a => exact fun t ht => h t (htrans hr ht)
  | call op next => exact fun t ht => h t (htrans hr ht)

/-- A safe program may be followed by a program that is safe in every state its
value can be returned in. -/
theorem Safe.bind {p : Program Op Ans α} {f : α → Program Op Ans β} {Q' : β → σ → Prop}
    (hrefl : ∀ s, R s s) {s : σ}
    (h : Safe sem R G (fun a t => Safe sem R G Q' (f a) t) p s) :
    Safe sem R G Q' (p >>= f) s := by
  induction p generalizing s with
  | pure a => exact h s (hrefl s)
  | call op next ih =>
      intro s' hr x s'' hx
      obtain ⟨hg, ht⟩ := h s' hr x s'' hx
      exact ⟨hg, ih x ht⟩

/-- A weaker postcondition is also safe. -/
theorem Safe.mono {Q' : α → σ → Prop} (hQ : ∀ a s, Q a s → Q' a s) {p : Program Op Ans α}
    {s : σ} (h : Safe sem R G Q p s) : Safe sem R G Q' p s := by
  induction p generalizing s with
  | pure a => exact fun s' hr => hQ a s' (h s' hr)
  | call op next ih =>
      intro s' hr x s'' hx
      obtain ⟨hg, ht⟩ := h s' hr x s'' hx
      exact ⟨hg, ih x ht⟩

end RelyGuarantee

section Respects

variable {sem : Semantics Op Ans σ} {I : σ → Prop} {R G : σ → σ → Prop} {Q : α → σ → Prop}

/-- A move that keeps an invariant and, from states where it holds, only moves along `M`. -/
def Respects (I : σ → Prop) (M : σ → σ → Prop) (s s' : σ) : Prop := I s → I s' ∧ M s s'

theorem Respects.refl {M : σ → σ → Prop} (hrefl : ∀ s, M s s) (s : σ) : Respects I M s s :=
  fun h => ⟨h, hrefl s⟩

theorem Respects.trans {M : σ → σ → Prop} (htrans : ∀ {a b c}, M a b → M b c → M a c)
    {a b c : σ} (hab : Respects I M a b) (hbc : Respects I M b c) : Respects I M a c := by
  intro ha
  obtain ⟨hb, mab⟩ := hab ha
  obtain ⟨hc, mbc⟩ := hbc hb
  exact ⟨hc, htrans mab mbc⟩

/-- The program keeps `I` and moves along `G`; it relies on the others to keep `I` and
to move along `R`. -/
abbrev Guarded (sem : Semantics Op Ans σ) (I : σ → Prop) (R G : σ → σ → Prop)
    (Q : α → σ → Prop) : Program Op Ans α → σ → Prop :=
  Safe sem (Respects I R) (Respects I G) Q

/-- A guarded value: the postcondition holds whatever the others do. -/
theorem Guarded.pure {a : α} {s : σ} (hI : I s) (h : ∀ s', I s' → R s s' → Q a s') :
    Guarded sem I R G Q (.pure a) s :=
  fun s' hs' => h s' (hs' hI).1 (hs' hI).2

/-- A finished guarded program has its postcondition. -/
theorem Guarded.finished {a : α} {s : σ} (hrefl : ∀ s, R s s)
    (h : Guarded sem I R G Q (.pure a) s) : Q a s :=
  h s (Respects.refl hrefl s)

/-- A guarded call: it may be made in any state the others lead to. -/
theorem Guarded.call {op : Op} {next : Ans op → Program Op Ans α} {s : σ} (hI : I s)
    (h : ∀ s' x s'', I s' → R s s' → sem op s' x s'' →
      (I s'' ∧ G s' s'') ∧ Guarded sem I R G Q (next x) s'') :
    Guarded sem I R G Q (.call op next) s := by
  intro s' hs' x s'' hx
  obtain ⟨hI', hR⟩ := hs' hI
  obtain ⟨hkeep, hnext⟩ := h s' x s'' hI' hR hx
  exact ⟨fun _ => hkeep, hnext⟩

/-- A sequence is guarded when its second part is, wherever the first may end. -/
theorem Guarded.bind {p : Program Op Ans α} {f : α → Program Op Ans β} {Q' : β → σ → Prop}
    {s : σ} (hrefl : ∀ s, R s s)
    (h : Guarded sem I R G (fun a t => Guarded sem I R G Q' (f a) t) p s) :
    Guarded sem I R G Q' (p >>= f) s :=
  Safe.bind (Respects.refl hrefl) h

/-- A program whose calls all keep the invariant and a property that the others keep as
well is guarded and ends with that property. -/
theorem Calls.guarded {ok : Op → Prop} {K : σ → Prop} (hR : ∀ {s s'}, R s s' → K s → K s')
    (hsem : ∀ {op s x s'}, ok op → I s → K s → sem op s x s' → (I s' ∧ G s s') ∧ K s')
    {p : Program Op Ans α} (hp : p.Calls ok) {s : σ} (hI : I s) (h : K s) :
    Guarded sem I R G (fun _ t => I t ∧ K t) p s := by
  induction p generalizing s with
  | pure a => exact Guarded.pure hI fun s' hI' hs' => ⟨hI', hR hs' h⟩
  | call op next ih =>
      apply Guarded.call hI
      intro s' x s'' hI' hs' hx
      obtain ⟨hkeep, hK⟩ := hsem hp.1 hI' (hR hs' h) hx
      exact ⟨hkeep, ih x (hp.2 x) hkeep.1 hK⟩

end Respects

end Program

/-- Tasks over one shared state, scheduled one call at a time. -/
structure Pool (Op : Type) (Ans : Op → Type) (α σ : Type) where
  shared : σ
  threads : List (Program Op Ans α)

namespace Pool

open Program

variable {Op : Type} {Ans : Op → Type} {α σ ε : Type}

/-- Thread `i` makes its next call and stops before the one after it. -/
inductive Step (sem : Semantics Op Ans σ) : Pool Op Ans α σ → Nat → Pool Op Ans α σ → Prop
  | call {p : Pool Op Ans α σ} {i : Nat} {op : Op} {next : Ans op → Program Op Ans α}
      {x : Ans op} {s' : σ} (hi : p.threads[i]? = some (.call op next))
      (h : sem op p.shared x s') : Step sem p i ⟨s', p.threads.set i (next x)⟩

/-- Every thread has returned. -/
def Finished (p : Pool Op Ans α σ) : Prop :=
  ∀ (i : Nat) (t : Program Op Ans α), p.threads[i]? = some t → ∃ a, t = .pure a

theorem finished_iff {p : Pool Op Ans α σ} :
    p.Finished ↔ (p.threads.all fun t => t.nextCall.isNone) = true := by
  simp only [Finished, List.all_eq_true, List.mem_iff_getElem?]
  constructor
  · rintro h t ⟨i, hi⟩
    obtain ⟨a, rfl⟩ := h i t hi
    rfl
  · intro h i t hi
    have hnone := h t ⟨i, hi⟩
    cases t with
    | pure a => exact ⟨a, rfl⟩
    | call op next => simp at hnone

instance (p : Pool Op Ans α σ) : Decidable p.Finished := decidable_of_iff _ finished_iff.symm

/-- A run all of whose steps are taken in states satisfying a condition on the
thread that moves. -/
inductive Run (sem : Semantics Op Ans σ) (C : Pool Op Ans α σ → Nat → Prop) :
    Pool Op Ans α σ → Pool Op Ans α σ → Prop
  | refl (p : Pool Op Ans α σ) : Run sem C p p
  | tail {p q r : Pool Op Ans α σ} {i : Nat} (run : Run sem C p q) (hc : C q i)
      (step : Step sem q i r) : Run sem C p r

/-- A condition on the thread that moves: its number, its call and the shared state. -/
def onCall (ok : Nat → Op → σ → Prop) (p : Pool Op Ans α σ) (i : Nat) : Prop :=
  ∀ op ∈ p.threads[i]?.bind nextCall, ok i op p.shared

/-- The condition that every step meets. -/
def always : Pool Op Ans α σ → Nat → Prop := fun _ _ => True

variable {sem : Semantics Op Ans σ} {C : Pool Op Ans α σ → Nat → Prop}
  {ok : Nat → Op → σ → Prop}

theorem onCall_call {p : Pool Op Ans α σ} {i : Nat} {op : Op} {next : Ans op → Program Op Ans α}
    (hi : p.threads[i]? = some (.call op next)) : onCall ok p i ↔ ok i op p.shared := by
  simp [onCall, hi]

/-- A property that every step keeps holds at the end of every run. -/
theorem Run.invariant {I : Pool Op Ans α σ → Prop} {p q : Pool Op Ans α σ}
    (run : Run sem C p q)
    (hstep : ∀ {a b i}, I a → C a i → Step sem a i b → I b) (h : I p) : I q := by
  induction run with
  | refl => exact h
  | tail _ hc step ih => exact hstep ih hc step

/-- A run under a condition is a run under every weaker one. -/
theorem Run.mono {C' : Pool Op Ans α σ → Nat → Prop} {p q : Pool Op Ans α σ}
    (run : Run sem C p q) (h : ∀ a i, C a i → C' a i) : Run sem C' p q := by
  induction run with
  | refl => exact .refl _
  | tail _ hc step ih => exact ih.tail (h _ _ hc) step

/-- A run of calls is a run of every semantics that contains them. -/
theorem Run.ofSemantics {sem' : Semantics Op Ans σ} {p q : Pool Op Ans α σ} (run : Run sem C p q)
    (h : ∀ op s x s', sem op s x s' → sem' op s x s') : Run sem' C p q := by
  induction run with
  | refl => exact .refl _
  | tail _ hc step ih =>
      cases step with
      | call hi hx => exact ih.tail hc (.call hi (h _ _ _ _ hx))

/-- A run from `p` to `q` in which thread `i` makes a call whose answer satisfies `ok`. -/
def Answered (sem : Semantics Op Ans σ) (C : Pool Op Ans α σ → Nat → Prop)
    (ok : (op : Op) → Ans op → Prop) (i : Nat) (p q : Pool Op Ans α σ) : Prop :=
  ∃ (a : Pool Op Ans α σ) (op : Op) (next : Ans op → Program Op Ans α) (x : Ans op) (s' : σ),
    Run sem C p a ∧ C a i ∧ a.threads[i]? = some (.call op next) ∧ sem op a.shared x s' ∧
      ok op x ∧ Run sem C ⟨s', a.threads.set i (next x)⟩ q

theorem Answered.run {ok : (op : Op) → Ans op → Prop} {i : Nat} {p q : Pool Op Ans α σ}
    (h : Answered sem C ok i p q) : Run sem C p q := by
  obtain ⟨a, op, next, x, s', hbefore, hc, hi, hx, -, hafter⟩ := h
  have hstep := hbefore.tail hc (.call hi hx)
  clear hbefore
  induction hafter with
  | refl => exact hstep
  | tail _ hc step ih => exact ih.tail hc step

/-- The parallel rule: threads that each guarantee what the others rely on stay guarded in
every run from a state of the invariant, and every step moves along `A`. -/
theorem Run.guarded {I : σ → Prop} {A : σ → σ → Prop} {R G : Nat → σ → σ → Prop}
    {Q : Nat → α → σ → Prop} {p q : Pool Op Ans α σ} (hrefl : ∀ s, A s s)
    (htrans : ∀ {a b c}, A a b → A b c → A a c) (hA : ∀ {i s s'}, G i s s' → A s s')
    (hR : ∀ i s, R i s s) (hRtrans : ∀ i {a b c}, R i a b → R i b c → R i a c)
    (hG : ∀ {i j s s'}, i ≠ j → G i s s' → R j s s') (run : Run sem (onCall ok) p q)
    (hI : I p.shared)
    (h : ∀ i t, p.threads[i]? = some t →
      Guarded (sem.when (ok i)) I (R i) (G i) (Q i) t p.shared) :
    I q.shared ∧ A p.shared q.shared ∧ ∀ i t, q.threads[i]? = some t →
      Guarded (sem.when (ok i)) I (R i) (G i) (Q i) t q.shared := by
  refine run.invariant (I := fun a => I a.shared ∧ A p.shared a.shared ∧
    ∀ i t, a.threads[i]? = some t → Guarded (sem.when (ok i)) I (R i) (G i) (Q i) t a.shared) ?_
    ⟨hI, hrefl _, h⟩
  rintro a b i ⟨hIa, hAa, ha⟩ hc ⟨hi, hx⟩
  obtain ⟨hg, hnext⟩ := ha i _ hi _ (Respects.refl (hR i) _) _ _ ⟨(onCall_call hi).mp hc, hx⟩
  obtain ⟨hIb, hmove⟩ := hg hIa
  refine ⟨hIb, htrans hAa (hA hmove), fun j t ht => ?_⟩
  by_cases hij : i = j
  · subst hij
    have hlt : i < a.threads.length := (List.getElem?_eq_some_iff.mp hi).1
    simp only [List.getElem?_set_self hlt, Option.some.injEq] at ht
    exact ht ▸ hnext
  · simp only [List.getElem?_set_ne hij] at ht
    exact Safe.rely (R := Respects I (R j)) (s := a.shared)
      (fun h₁ h₂ => Respects.trans (I := I) (M := R j) (fun h₁ h₂ => hRtrans j h₁ h₂) h₁ h₂)
      (ha j t ht) fun _ => ⟨hIb, hG hij hmove⟩

/-- Run a schedule: each entry names the thread that moves and the environment's choice.
A step that does not meet the condition stops it. -/
def execIf (act : ε → (op : Op) → σ → Option (Ans op × σ)) (cond : Pool Op Ans α σ → Nat → Bool) :
    List (Nat × ε) → Pool Op Ans α σ → Option (Pool Op Ans α σ)
  | [], p => some p
  | (i, e) :: rest, p =>
      match p.threads[i]? with
      | some (.call op next) =>
          if cond p i then
            match act e op p.shared with
            | none => none
            | some (x, s') => execIf act cond rest ⟨s', p.threads.set i (next x)⟩
          else none
      | _ => none

/-- Run a schedule under a condition on the calls. -/
def exec (act : ε → (op : Op) → σ → Option (Ans op × σ)) (ok : Nat → Op → σ → Bool) :
    List (Nat × ε) → Pool Op Ans α σ → Option (Pool Op Ans α σ) :=
  execIf act fun p i => (p.threads[i]?.bind nextCall).all fun op => ok i op p.shared

/-- A computed schedule is a run of the semantics of its transition function. -/
theorem execIf_run {act : ε → (op : Op) → σ → Option (Ans op × σ)}
    {cond : Pool Op Ans α σ → Nat → Bool} {sched : List (Nat × ε)} {p q : Pool Op Ans α σ}
    (h : execIf act cond sched p = some q) :
    Run (Semantics.ofFunction act) (fun a i => cond a i = true) p q := by
  suffices hs : ∀ {o : Pool Op Ans α σ},
      Run (Semantics.ofFunction act) (fun a i => cond a i = true) o p →
      Run (Semantics.ofFunction act) (fun a i => cond a i = true) o q from hs (.refl p)
  intro o ho
  induction sched generalizing p with
  | nil =>
      simp only [execIf, Option.some.injEq] at h
      exact h ▸ ho
  | cons entry rest ih =>
      obtain ⟨i, e⟩ := entry
      simp only [execIf] at h
      cases hi : p.threads[i]? with
      | none => simp [hi] at h
      | some t =>
          cases t with
          | pure a => simp [hi] at h
          | call op next =>
              simp only [hi] at h
              split at h
              next hc =>
                cases hx : act e op p.shared with
                | none => simp [hx] at h
                | some r =>
                    obtain ⟨x, s'⟩ := r
                    simp only [hx] at h
                    exact ih h (ho.tail hc (.call hi ⟨e, hx⟩))
              next => simp at h

theorem exec_run {act : ε → (op : Op) → σ → Option (Ans op × σ)} {cond : Nat → Op → σ → Bool}
    {sched : List (Nat × ε)} {p q : Pool Op Ans α σ} (h : exec act cond sched p = some q) :
    Run (Semantics.ofFunction act) (onCall fun i op s => cond i op s) p q :=
  (execIf_run h).mono fun a i hc op hop => by
    rw [Option.mem_def] at hop
    simpa [hop] using hc

/-- A property of the pool that a computed schedule ends in. -/
theorem exec_reaches {act : ε → (op : Op) → σ → Option (Ans op × σ)} {cond : Nat → Op → σ → Bool}
    {sched : List (Nat × ε)} {p : Pool Op Ans α σ} {P : Pool Op Ans α σ → Prop} [DecidablePred P]
    (h : (exec act cond sched p).any (fun q => decide (P q)) = true) :
    ∃ q, Run (Semantics.ofFunction act) (onCall fun i op s => cond i op s) p q ∧ P q := by
  obtain ⟨q, hq, hP⟩ := (Option.any_eq_true _ _).mp h
  exact ⟨q, exec_run hq, of_decide_eq_true hP⟩

theorem execIf_reaches {act : ε → (op : Op) → σ → Option (Ans op × σ)}
    {cond : Pool Op Ans α σ → Nat → Bool} {sched : List (Nat × ε)} {p : Pool Op Ans α σ}
    {P : Pool Op Ans α σ → Prop} [DecidablePred P]
    (h : (execIf act cond sched p).any (fun q => decide (P q)) = true) :
    ∃ q, Run (Semantics.ofFunction act) (fun a i => cond a i = true) p q ∧ P q := by
  obtain ⟨q, hq, hP⟩ := (Option.any_eq_true _ _).mp h
  exact ⟨q, execIf_run hq, of_decide_eq_true hP⟩

/-- Run a schedule, one call of thread `i` whose answer satisfies `ok`, and another schedule. -/
def execThrough (act : ε → (op : Op) → σ → Option (Ans op × σ)) (ok : (op : Op) → Ans op → Prop)
    [∀ op x, Decidable (ok op x)] (before : List (Nat × ε)) (i : Nat) (e : ε)
    (rest : List (Nat × ε)) (p : Pool Op Ans α σ) : Option (Pool Op Ans α σ) := do
  let a ← execIf act (fun _ _ => true) before p
  match a.threads[i]? with
  | some (.call op next) =>
      match act e op a.shared with
      | some (x, s') =>
          if ok op x then execIf act (fun _ _ => true) rest ⟨s', a.threads.set i (next x)⟩ else none
      | none => none
  | _ => none

/-- A property of the pool that a schedule through an answer ends in. -/
theorem execThrough_reaches {act : ε → (op : Op) → σ → Option (Ans op × σ)}
    {ok : (op : Op) → Ans op → Prop} [∀ op x, Decidable (ok op x)] {before rest : List (Nat × ε)}
    {i : Nat} {e : ε} {p : Pool Op Ans α σ} {P : Pool Op Ans α σ → Prop} [DecidablePred P]
    (h : (execThrough act ok before i e rest p).any (fun q => decide (P q)) = true) :
    ∃ q, Answered (Semantics.ofFunction act) always ok i p q ∧ P q := by
  obtain ⟨q, hq, hP⟩ := (Option.any_eq_true _ _).mp h
  refine ⟨q, ?_, of_decide_eq_true hP⟩
  obtain ⟨a, ha, hq⟩ := Option.bind_eq_some_iff.mp hq
  split at hq
  next op next hi =>
    split at hq
    next x s' hx =>
      split at hq
      next hok =>
        exact ⟨a, op, next, x, s', (execIf_run ha).mono fun _ _ _ => trivial, trivial, hi, ⟨e, hx⟩,
          hok, (execIf_run hq).mono fun _ _ _ => trivial⟩
      next => cases hq
    next => cases hq
  next => cases hq

end Pool

end Library
