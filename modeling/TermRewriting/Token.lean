/-!
# Tokens

The words that terms and rules are written with, the kinds they fall into, and the stretch of text
that each one covers.

Results:
* `TokenKind.mem_all`: the table of kinds is complete.
* `TokenKind.all_ascending`: the table is in the order of the kinds.
* `TokenKind.kind_token`: every kind has a token.
-/
namespace TermRewriting

/-- A stretch of text, counted in characters: from `start` up to, but not including, `stop`. -/
structure Span where
  start : Nat
  stop : Nat
  deriving DecidableEq, Inhabited, Repr

/-- The kinds of tokens, in their order. -/
inductive TokenKind where
  | symbol
  | leftParen
  | rightParen
  | comma
  | equals
  /-- The end of the input. -/
  | endMarker
  deriving DecidableEq, Inhabited, Repr

namespace TokenKind

/-- The place of a kind in the order. -/
def rank : TokenKind → Nat
  | symbol => 0
  | leftParen => 1
  | rightParen => 2
  | comma => 3
  | equals => 4
  | endMarker => 5

instance : LT TokenKind := ⟨fun a b => a.rank < b.rank⟩

instance (a b : TokenKind) : Decidable (a < b) := inferInstanceAs (Decidable (a.rank < b.rank))

def all : List TokenKind := [symbol, leftParen, rightParen, comma, equals, endMarker]

theorem mem_all (k : TokenKind) : k ∈ all := by
  cases k <;> decide

theorem all_ascending : all.Pairwise (· < ·) := by
  decide

/-- The kinds of a list in their order, each once. -/
def arranged (ks : List TokenKind) : List TokenKind :=
  (ks.mergeSort fun a b => a.rank ≤ b.rank).eraseReps

/-- The kind as messages write it. -/
def text : TokenKind → String
  | symbol => "symbol"
  | leftParen => "`(`"
  | rightParen => "`)`"
  | comma => "`,`"
  | equals => "`=`"
  | endMarker => "end of input"

instance : ToString TokenKind := ⟨text⟩

end TokenKind

inductive Token where
  | symbol (name : String)
  | leftParen
  | rightParen
  | comma
  | equals
  /-- The end of the input, which takes up no text. -/
  | endMarker
  deriving DecidableEq, Inhabited, Repr

namespace Token

def kind : Token → TokenKind
  | symbol _ => .symbol
  | leftParen => .leftParen
  | rightParen => .rightParen
  | comma => .comma
  | equals => .equals
  | endMarker => .endMarker

/-- The token as it is written; the end of the input is described. -/
def text : Token → String
  | symbol name => name
  | leftParen => "("
  | rightParen => ")"
  | comma => ","
  | equals => "="
  | endMarker => "end of input"

instance : ToString Token := ⟨text⟩

end Token

/-- A token of the kind; a symbol has no name then. -/
def TokenKind.token : TokenKind → Token
  | symbol => .symbol ""
  | leftParen => .leftParen
  | rightParen => .rightParen
  | comma => .comma
  | equals => .equals
  | endMarker => .endMarker

@[simp] theorem TokenKind.kind_token (k : TokenKind) : k.token.kind = k := by
  cases k <;> rfl

/-- A token and the text it covers. -/
structure Lexeme where
  token : Token
  span : Span
  deriving DecidableEq, Inhabited, Repr

end TermRewriting
