import TermRewriting.Term
import TermRewriting.Text.Quoted
import TermRewriting.Token

/-!
# The structure of tokens and terms

The console can show a value by its constructors, with names in quotes and lists in brackets:
`Functor("f", [Symbol("a"), Functor("g", [])])`. Unlike the printed form this tells a symbol `f(a)`
from a functor.

Results:
* `Term.structureTexts_eq`: the terms of a list are shown one by one, in order.
-/
namespace TermRewriting

open Text

/-- A constructor with a name as its argument. -/
def namedStructure (constructor name : String) : String := constructor ++ "(" ++ quoted name ++ ")"

def Token.structureText : Token → String
  | symbol name => namedStructure "Symbol" name
  | leftParen => "LParen"
  | rightParen => "RParen"
  | comma => "Comma"
  | equals => "Equals"
  | endMarker => "Sentinel"

/-- Tokens by their constructors, in brackets. -/
def Token.structureList (ts : List Token) : String :=
  "[" ++ ", ".intercalate (ts.map structureText) ++ "]"

namespace Term

mutual

def structureText : Term → String
  | .symbol name => namedStructure "Symbol" name
  | .functor name args =>
    "Functor(" ++ quoted name ++ ", [" ++ ", ".intercalate (structureTexts args) ++ "])"

def structureTexts : List Term → List String
  | [] => []
  | t :: ts => t.structureText :: structureTexts ts

end

theorem structureTexts_eq (ts : List Term) : structureTexts ts = ts.map structureText := by
  induction ts with
  | nil => rfl
  | cons t ts ih => rw [structureTexts, ih, List.map_cons]

end Term

end TermRewriting
