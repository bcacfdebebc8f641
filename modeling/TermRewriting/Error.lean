import TermRewriting.Substitution
import TermRewriting.Token

/-!
# Errors

The three causes for which a text cannot be read or a term not be rewritten, and the words in which
each is told.
-/
namespace TermRewriting

/-! ## A character that begins no token -/

/-- The text cannot be cut into tokens. -/
structure LexError where
  /-- The character that begins no token; `none` at the end of the text. -/
  found : Option Char
  /-- How many characters come before it. -/
  position : Nat
  deriving DecidableEq, Inhabited, Repr

namespace LexError

def foundText (e : LexError) : String :=
  match e.found with
  | some c => "`" ++ c.toString ++ "`"
  | none => "end of the input"

def message (e : LexError) : String :=
  "cannot tokenize " ++ e.foundText ++ " at position " ++ toString e.position

/-- The one place that the error is about. -/
def span (e : LexError) : Span := ⟨e.position, e.position + 1⟩

end LexError

/-! ## A token out of place -/

/-- A token stands where the grammar has none of its kind. -/
structure ParseError where
  /-- The text of the token. -/
  span : Span
  /-- The kinds that the grammar has there. -/
  expected : List TokenKind
  /-- The kind of the token. -/
  found : TokenKind
  deriving DecidableEq, Inhabited, Repr

/-- What a reader of tokens could not go on with: it met `found`, or the end of its tokens, where it
could have used one of the tokens `expected`, or the end. -/
structure Mismatch where
  span : Span
  expected : List (Option Token)
  found : Option Token
  deriving DecidableEq, Repr

/-- The kind of a token that may be missing; nothing counts as the end of the input. -/
def Token.kindOrEnd : Option Token → TokenKind
  | some t => t.kind
  | none => .endMarker

namespace ParseError

/-- A mismatch told by kinds. -/
def ofMismatch (m : Mismatch) : ParseError where
  span := m.span
  expected := TokenKind.arranged (m.expected.map Token.kindOrEnd)
  found := Token.kindOrEnd m.found

def expectedText (e : ParseError) : String :=
  if e.expected.isEmpty then "something else" else ", ".intercalate (e.expected.map TokenKind.text)

def message (e : ParseError) : String :=
  "unexpected " ++ e.found.text ++ ", expected " ++ e.expectedText

end ParseError

/-! ## Any of the three -/

inductive Error where
  | lex (e : LexError)
  | parse (e : ParseError)
  | substitution (e : SubstitutionError)
  deriving DecidableEq, Repr

def Error.message : Error → String
  | lex e => e.message
  | parse e => e.message
  | substitution e => e.message

end TermRewriting
