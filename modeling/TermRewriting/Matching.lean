import TermRewriting.Bindings

/-!
# Matching a term against a pattern

In a pattern every symbol is a variable. A variable takes the subterm found in its place, and a
variable that occurs again has to find the same term again. A functor of the pattern stands only for
a functor of the same name with as many arguments.

Results:
* `Term.matchFrom_symbol_of_free`, `Term.matchFrom_symbol_of_bound`: a variable takes what it finds,
  or compares it with what it took before.
* `Term.matchAllFrom_length`: lists of different lengths do not match.
-/
namespace TermRewriting.Term

mutual

/-- Extends `b` by what the pattern's variables find in the term; `none` if the two do not match. -/
def matchFrom : (pattern term : Term) → (b : Bindings) → Option Bindings
  | .symbol x, t, b =>
    match b.get? x with
    | none => some (b.bind x t)
    | some found => if found = t then some b else none
  | .functor f ps, .functor g ts, b => if f = g then matchAllFrom ps ts b else none
  | .functor _ _, .symbol _, _ => none

/-- Matches two lists position by position, from the left, each position with the bindings of those
before it. -/
def matchAllFrom : (patterns terms : List Term) → (b : Bindings) → Option Bindings
  | [], [], b => some b
  | p :: ps, t :: ts, b =>
    match matchFrom p t b with
    | none => none
    | some c => matchAllFrom ps ts c
  | [], _ :: _, _ => none
  | _ :: _, [], _ => none

end

/-- What the pattern's variables find in the term; `none` if the two do not match. A match without
variables gives the empty set. -/
def match? (pattern term : Term) : Option Bindings := matchFrom pattern term .empty

theorem matchFrom_symbol_of_free {x : String} {t : Term} {b : Bindings} (h : b.get? x = none) :
    matchFrom (.symbol x) t b = some (b.bind x t) := by
  simp [matchFrom, h]

theorem matchFrom_symbol_of_bound {x : String} {t u : Term} {b : Bindings}
    (h : b.get? x = some u) : matchFrom (.symbol x) t b = if u = t then some b else none := by
  simp [matchFrom, h]

theorem matchAllFrom_length : ∀ {ps ts : List Term} {b c : Bindings},
    matchAllFrom ps ts b = some c → ps.length = ts.length
  | [], [], _, _, _ => rfl
  | [], _ :: _, _, _, h => by simp [matchAllFrom] at h
  | _ :: _, [], _, _, h => by simp [matchAllFrom] at h
  | p :: ps, t :: ts, b, c, h => by
    unfold matchAllFrom at h
    split at h
    · cases h
    · simpa using matchAllFrom_length h

end TermRewriting.Term
