import TermRewriting.Matching
import TermRewriting.Rule
import TermRewriting.Substitution

/-!
# Rewriting a term once

A pass goes through a term from the top. A node that matches the head of the rule is replaced by the
body with the bindings plugged in; neither the replacement nor anything below the node is looked at
again. A node that does not match keeps its name, and its arguments are visited from the left. The
first error ends the pass.

A pass also says what it did: one event for every node it tried, and one for every node it is about
to replace.

Results:
* `Rule.applyAll_of_match`, `Rule.applyAll_symbol`, `Rule.applyAll_functor`: what a pass makes of a
  node that matches, of a symbol that does not, and of a functor that does not.
* `Rule.events_of_match`, `Rule.events_symbol`, `Rule.events_functor`: what it says about them.
* `Rule.pass_induction`: what has to be shown for a statement about every pass.
* `Rule.applyAll_functor_eq_ok`, `Rule.applyEach_cons_eq_ok` and their twins for errors: what a result,
  and what an error, of a pass comes from.
* `Rule.applyEach_length`: a pass keeps the number of arguments.
-/
namespace TermRewriting

inductive Event where
  /-- A term was tried against a pattern. -/
  | tried (pattern term : Term) (matched : Bool)
  /-- A node is about to be replaced. -/
  | rewriting (node : Term) (rule : Rule) (bindings : Bindings)
  deriving DecidableEq, Repr

/-- A result together with the events that led to it, in order. -/
structure Traced (α : Type) where
  events : List Event
  outcome : Except SubstitutionError α
  deriving Repr

namespace Traced

/-- A result that took no events. -/
def pure {α : Type} (a : α) : Traced α := ⟨[], .ok a⟩

/-- The same with one more event at the start. -/
def after {α : Type} (e : Event) (x : Traced α) : Traced α := ⟨e :: x.events, x.outcome⟩

/-- The same with the result changed, if there is one. -/
def map {α β : Type} (f : α → β) (x : Traced α) : Traced β := ⟨x.events, x.outcome.map f⟩

/-- Goes on with the result, if there is one; the events of both parts count. -/
def andThen {α β : Type} (x : Traced α) (f : α → Traced β) : Traced β :=
  match x.outcome with
  | .error e => ⟨x.events, .error e⟩
  | .ok a =>
    let y := f a
    ⟨x.events ++ y.events, y.outcome⟩

theorem outcome_andThen {α β : Type} (x : Traced α) (f : α → Traced β) :
    (x.andThen f).outcome = x.outcome.bind fun a => (f a).outcome := by
  unfold andThen
  split <;> rename_i h <;> rw [h] <;> rfl

theorem events_andThen_of_ok {α β : Type} {x : Traced α} {a : α} (h : x.outcome = .ok a)
    (f : α → Traced β) : (x.andThen f).events = x.events ++ (f a).events := by
  rw [andThen, h]

theorem events_andThen_of_error {α β : Type} {x : Traced α} {e : SubstitutionError}
    (h : x.outcome = .error e) (f : α → Traced β) : (x.andThen f).events = x.events := by
  rw [andThen, h]

end Traced

/-- What the pattern finds in the term, and the event of having tried. -/
def Term.tryMatch (pattern term : Term) : Event × Option Bindings :=
  let found := pattern.match? term
  (.tried pattern term found.isSome, found)

namespace Rule

/-- Replaces a node that matches, and goes on with `otherwise` at a node that does not. -/
def visit (r : Rule) (node : Term) (otherwise : Unit → Traced Term) : Traced Term :=
  match r.head.tryMatch node with
  | (tried, some b) => ⟨[tried, .rewriting node r b], r.body.substitute b⟩
  | (tried, none) => (otherwise ()).after tried

mutual

def pass (r : Rule) : Term → Traced Term
  | .symbol x => r.visit (.symbol x) fun _ => .pure (.symbol x)
  | .functor f args => r.visit (.functor f args) fun _ => (passEach r args).map (.functor f)

/-- A pass over every term of a list, from the left. -/
def passEach (r : Rule) : List Term → Traced (List Term)
  | [] => .pure []
  | t :: ts => (pass r t).andThen fun u => (passEach r ts).map (u :: ·)

end

/-- The term after one pass, or the first error. -/
def applyAll (r : Rule) (t : Term) : Except SubstitutionError Term := (r.pass t).outcome

/-- The terms of a list after one pass over each, or the first error. -/
def applyEach (r : Rule) (ts : List Term) : Except SubstitutionError (List Term) :=
  (r.passEach ts).outcome

/-! ## What a pass makes of a node -/

theorem visit_of_match {r : Rule} {t : Term} {b : Bindings} {k : Unit → Traced Term}
    (h : r.head.match? t = some b) : r.visit t k =
      ⟨[.tried r.head t true, .rewriting t r b], r.body.substitute b⟩ := by
  simp [visit, Term.tryMatch, h]

theorem visit_of_not_match {r : Rule} {t : Term} {k : Unit → Traced Term}
    (h : r.head.match? t = none) : r.visit t k = (k ()).after (.tried r.head t false) := by
  simp [visit, Term.tryMatch, h]

theorem applyAll_of_match {r : Rule} {t : Term} {b : Bindings} (h : r.head.match? t = some b) :
    r.applyAll t = r.body.substitute b := by
  cases t <;> simp [applyAll, pass, visit_of_match h]

theorem applyAll_symbol {r : Rule} {x : String} (h : r.head.match? (.symbol x) = none) :
    r.applyAll (.symbol x) = .ok (.symbol x) := by
  simp [applyAll, pass, visit_of_not_match h, Traced.after, Traced.pure]

theorem applyAll_functor {r : Rule} {f : String} {args : List Term}
    (h : r.head.match? (.functor f args) = none) :
    r.applyAll (.functor f args) = (r.applyEach args).map (.functor f) := by
  simp [applyAll, applyEach, pass, visit_of_not_match h, Traced.after, Traced.map]

@[simp] theorem applyEach_nil (r : Rule) : r.applyEach [] = .ok [] := by
  simp [applyEach, passEach, Traced.pure]

theorem applyEach_cons (r : Rule) (t : Term) (ts : List Term) :
    r.applyEach (t :: ts) =
      (r.applyAll t).bind fun u => (r.applyEach ts).map (u :: ·) := by
  simp only [applyAll, applyEach, passEach, Traced.outcome_andThen, Traced.map]

/-! ## What a pass says about a node -/

theorem events_of_match {r : Rule} {t : Term} {b : Bindings} (h : r.head.match? t = some b) :
    (r.pass t).events = [.tried r.head t true, .rewriting t r b] := by
  cases t <;> simp [pass, visit_of_match h]

theorem events_symbol {r : Rule} {x : String} (h : r.head.match? (.symbol x) = none) :
    (r.pass (.symbol x)).events = [.tried r.head (.symbol x) false] := by
  simp [pass, visit_of_not_match h, Traced.after, Traced.pure]

theorem events_functor {r : Rule} {f : String} {args : List Term}
    (h : r.head.match? (.functor f args) = none) :
    (r.pass (.functor f args)).events =
      .tried r.head (.functor f args) false :: (r.passEach args).events := by
  simp [pass, visit_of_not_match h, Traced.after, Traced.map]

@[simp] theorem events_passEach_nil (r : Rule) : (r.passEach []).events = [] := by
  simp [passEach, Traced.pure]

theorem events_passEach_of_ok {r : Rule} {t u : Term} (h : r.applyAll t = .ok u)
    (ts : List Term) :
    (r.passEach (t :: ts)).events = (r.pass t).events ++ (r.passEach ts).events := by
  rw [passEach, Traced.events_andThen_of_ok h]
  rfl

theorem events_passEach_of_error {r : Rule} {t : Term} {e : SubstitutionError}
    (h : r.applyAll t = .error e) (ts : List Term) :
    (r.passEach (t :: ts)).events = (r.pass t).events := by
  rw [passEach, Traced.events_andThen_of_error h]

/-! ## Induction along a pass -/

/-- Induction along a pass: at a node that matches the pass ends, at another it goes on to the
arguments. -/
theorem pass_induction (r : Rule) {motive : Term → Prop}
    (matched : ∀ t b, r.head.match? t = some b → motive t)
    (symbol : ∀ x, r.head.match? (.symbol x) = none → motive (.symbol x))
    (functor : ∀ f args, r.head.match? (.functor f args) = none → (∀ a ∈ args, motive a) →
      motive (.functor f args)) (t : Term) : motive t := by
  induction t with
  | symbol x =>
    cases h : r.head.match? (.symbol x) with
    | some b => exact matched _ b h
    | none => exact symbol x h
  | functor f args ih =>
    cases h : r.head.match? (.functor f args) with
    | some b => exact matched _ b h
    | none => exact functor f args h ih

/-! ## Where a result or an error of a pass comes from -/

theorem applyAll_functor_eq_ok {r : Rule} {f : String} {args : List Term} {w : Term}
    (h : r.head.match? (.functor f args) = none) :
    r.applyAll (.functor f args) = .ok w ↔
      ∃ us, r.applyEach args = .ok us ∧ w = .functor f us := by
  rw [applyAll_functor h]
  cases r.applyEach args with
  | error e => simp [Except.map]
  | ok us => simp [Except.map, eq_comm]

theorem applyAll_functor_eq_error {r : Rule} {f : String} {args : List Term}
    {e : SubstitutionError} (h : r.head.match? (.functor f args) = none) :
    r.applyAll (.functor f args) = .error e ↔ r.applyEach args = .error e := by
  rw [applyAll_functor h]
  cases r.applyEach args <;> simp [Except.map]

theorem applyEach_cons_eq_ok {r : Rule} {t : Term} {ts us : List Term} :
    r.applyEach (t :: ts) = .ok us ↔
      ∃ v vs, r.applyAll t = .ok v ∧ r.applyEach ts = .ok vs ∧ us = v :: vs := by
  rw [applyEach_cons]
  cases r.applyAll t with
  | error e => simp [Except.bind]
  | ok v =>
    cases r.applyEach ts with
    | error e => simp [Except.bind, Except.map]
    | ok vs => simp [Except.bind, Except.map, eq_comm]

theorem applyEach_cons_eq_error {r : Rule} {t : Term} {ts : List Term} {e : SubstitutionError} :
    r.applyEach (t :: ts) = .error e ↔
      r.applyAll t = .error e ∨ ∃ v, r.applyAll t = .ok v ∧ r.applyEach ts = .error e := by
  rw [applyEach_cons]
  cases r.applyAll t with
  | error e => simp [Except.bind]
  | ok v => cases r.applyEach ts <;> simp [Except.bind, Except.map]

theorem applyEach_length {r : Rule} : ∀ {ts us : List Term},
    r.applyEach ts = .ok us → us.length = ts.length
  | [], _, h => by
    rw [applyEach_nil] at h
    cases h
    rfl
  | t :: ts, us, h => by
    obtain ⟨v, vs, -, hvs, rfl⟩ := applyEach_cons_eq_ok.mp h
    simpa using applyEach_length hvs

end Rule

end TermRewriting
