/-!
# First-order terms

A term is a bare symbol or a functor with an ordered list of arguments. Arity is not declared: `f`,
`f()` and `f(a)` are three different terms. Names are arbitrary strings; only the lexer restricts
the names that can be written down.

Results:
* `Term.induction`: to prove something of every term, prove it of symbols, and of a functor when it
  holds of the arguments.
* `Term.texts_eq`: the printed forms of a list are those of its terms in order.
* `Term.nodesList_eq`: the nodes of a list are those of its terms in order.
-/
namespace TermRewriting

inductive Term where
  /-- A bare name, such as `a`. -/
  | symbol (name : String)
  /-- A name with arguments, such as `f(a, b)` or `f()`. -/
  | functor (name : String) (args : List Term)
  deriving Inhabited, Repr

namespace Term

/-! ## Induction and equality -/

/-- Structural induction on terms: in the case of a functor every argument may be assumed. -/
@[elab_as_elim, induction_eliminator]
theorem induction {motive : Term → Prop}
    (symbol : ∀ name, motive (.symbol name))
    (functor : ∀ name args, (∀ a ∈ args, motive a) → motive (.functor name args)) (t : Term) :
    motive t :=
  Term.rec symbol functor (fun _ h => nomatch h)
    (fun _ _ ht hts a h => (List.mem_cons.mp h).elim (fun e => e ▸ ht) (hts a)) t

mutual

/-- Equality of terms is decided by walking both in step. -/
def decEq : (s t : Term) → Decidable (s = t)
  | .symbol m, .symbol n =>
    if h : m = n then isTrue (by rw [h]) else isFalse (by simpa using h)
  | .symbol _, .functor _ _ => isFalse (by simp)
  | .functor _ _, .symbol _ => isFalse (by simp)
  | .functor f ss, .functor g ts =>
    if h : f = g then
      match decEqList ss ts with
      | isTrue h' => isTrue (by rw [h, h'])
      | isFalse h' => isFalse (by simp [h'])
    else isFalse (by simp [h])

/-- Equality of argument lists is decided position by position. -/
def decEqList : (ss ts : List Term) → Decidable (ss = ts)
  | [], [] => isTrue rfl
  | [], _ :: _ => isFalse (by simp)
  | _ :: _, [] => isFalse (by simp)
  | s :: ss, t :: ts =>
    match decEq s t with
    | isTrue h =>
      match decEqList ss ts with
      | isTrue h' => isTrue (by rw [h, h'])
      | isFalse h' => isFalse (by simp [h'])
    | isFalse h => isFalse (by simp [h])

end

instance : DecidableEq Term := decEq

/-! ## Printed form -/

mutual

/-- The printed form: `name`, or `name(arg, arg)`. Nothing is quoted. -/
def text : Term → String
  | .symbol name => name
  | .functor name args => name ++ "(" ++ ", ".intercalate (texts args) ++ ")"

def texts : List Term → List String
  | [] => []
  | t :: ts => t.text :: texts ts

end

instance : ToString Term := ⟨text⟩

theorem texts_eq (ts : List Term) : texts ts = ts.map text := by
  induction ts with
  | nil => rfl
  | cons t ts ih => rw [texts, ih, List.map_cons]

/-- What a reader would call the term in a sentence. -/
def description : Term → String
  | .symbol _ => "a symbol"
  | .functor _ _ => "a functor"

/-! ## Nodes in pre-order -/

/-- One node of a term: its name, and the number of its arguments if it is a functor. -/
structure Node where
  name : String
  arity : Option Nat
  deriving DecidableEq, Repr

mutual

/-- The nodes of a term, each before the nodes of its arguments, the arguments left to right. -/
def nodes : Term → List Node
  | .symbol name => [⟨name, none⟩]
  | .functor name args => ⟨name, some args.length⟩ :: nodesList args

def nodesList : List Term → List Node
  | [] => []
  | t :: ts => t.nodes ++ nodesList ts

end

theorem nodesList_eq (ts : List Term) : nodesList ts = ts.flatMap nodes := by
  induction ts with
  | nil => rfl
  | cons t ts ih => rw [nodesList, ih, List.flatMap_cons]

end Term

end TermRewriting
