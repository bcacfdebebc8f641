import TermRewriting.Bindings

/-!
# Plugging bindings into a template

A bound symbol of the template gives way to its term, which is not looked at again. A functor whose
name is bound is renamed, and only a symbol can give the new name: a functor in its place is an
error. What is not bound stays as it is.

Results:
* `Term.substituteAll_length`: plugging in keeps the number of arguments.
* `Term.substitute_empty`: without bindings nothing changes.
-/
namespace TermRewriting

/-- A functor's name is bound to a functor. -/
structure SubstitutionError where
  /-- The functor's name in the template. -/
  name : String
  /-- The term it is bound to. -/
  value : Term
  deriving DecidableEq, Inhabited, Repr

def SubstitutionError.message (e : SubstitutionError) : String :=
  "expected a symbol in place of functor `" ++ e.name ++ "`, but it is bound to " ++
    e.value.description ++ " `" ++ e.value.text ++ "`"

/-- The name that a functor called `name` gets. -/
def Bindings.rename (b : Bindings) (name : String) : Except SubstitutionError String :=
  match b.get? name with
  | none => .ok name
  | some (.symbol new) => .ok new
  | some (.functor f args) => .error ⟨name, .functor f args⟩

namespace Term

mutual

/-- The template with the bindings plugged in. A functor's own name is looked up before its
arguments. -/
def substitute (b : Bindings) : (template : Term) → Except SubstitutionError Term
  | .symbol x => .ok ((b.get? x).getD (.symbol x))
  | .functor f args =>
    match b.rename f with
    | .error e => .error e
    | .ok name =>
      match substituteAll b args with
      | .error e => .error e
      | .ok us => .ok (.functor name us)

/-- Plugs the bindings into every template of a list, from the left; the first error wins. -/
def substituteAll (b : Bindings) : (templates : List Term) → Except SubstitutionError (List Term)
  | [] => .ok []
  | t :: ts =>
    match substitute b t with
    | .error e => .error e
    | .ok u =>
      match substituteAll b ts with
      | .error e => .error e
      | .ok us => .ok (u :: us)

end

theorem substituteAll_length {b : Bindings} : ∀ {ts us : List Term},
    substituteAll b ts = .ok us → us.length = ts.length
  | [], _, h => by cases h; rfl
  | t :: ts, us, h => by
    unfold substituteAll at h
    split at h
    · cases h
    · split at h
      · cases h
      · rename_i h'
        cases h
        simpa using substituteAll_length h'

theorem substituteAll_eq_of_forall {b : Bindings} : ∀ {ts : List Term},
    (∀ t ∈ ts, substitute b t = .ok t) → substituteAll b ts = .ok ts
  | [], _ => rfl
  | t :: ts, h => by
    rw [substituteAll, h t List.mem_cons_self,
      substituteAll_eq_of_forall fun u hu => h u (List.mem_cons_of_mem _ hu)]

theorem substitute_empty (t : Term) : substitute .empty t = .ok t := by
  induction t with
  | symbol x => rfl
  | functor f args ih => simp [substitute, Bindings.rename, substituteAll_eq_of_forall ih]

end Term

end TermRewriting
