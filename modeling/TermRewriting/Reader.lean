import TermRewriting.Rule
import TermRewriting.Token.Lexer

/-!
# From tokens to terms and rules

A term is a symbol, or a symbol followed by a parenthesised list of terms with single commas between
them. The reader goes through the tokens once, from the left, and keeps the argument lists that are
still open. At every place the grammar has a fixed set of kinds; the first token of another kind is
a mismatch with tokens of these kinds.

The text of a term ends with the end marker, the head of a rule with an equals sign. What comes
after the marker is not looked at. If the tokens run out before it, the error is at the last token,
and a missing symbol is not mentioned.

Results:
* `Reader.step_stuck_iff`: the reader stops exactly at the kinds that are not expected.
-/
namespace TermRewriting

namespace Reader

/-- An argument list that is still open: the name in front of it, and the arguments read so far, the
latest first. -/
structure Frame where
  name : String
  args : List Term
  deriving Repr

inductive Place where
  /-- A term has to begin. -/
  | start
  /-- An argument list was opened after the name. -/
  | opened (name : String)
  /-- A name was read; an argument list may follow. -/
  | named (name : String)
  /-- A term was read, and an argument list cannot follow. -/
  | closed (term : Term)
  deriving Repr

/-- A place and the argument lists around it, the innermost first. -/
structure State where
  place : Place
  outer : List Frame
  deriving Repr

inductive Step where
  /-- The text goes on. -/
  | next (s : State)
  /-- The text of the term is complete. -/
  | finished (term : Term)
  /-- The grammar has no such token here. -/
  | stuck
  deriving Repr

/-- Reads a token behind a complete term. Outside of all argument lists the term ends with `stop`. -/
def follow (stop : TokenKind) (term : Term) : (outer : List Frame) → Token → Step
  | [], t => if t.kind = stop then .finished term else .stuck
  | f :: outer, .comma => .next ⟨.start, ⟨f.name, term :: f.args⟩ :: outer⟩
  | f :: outer, .rightParen => .next ⟨.closed (.functor f.name (term :: f.args).reverse), outer⟩
  | _ :: _, _ => .stuck

def step (stop : TokenKind) : State → Token → Step
  | ⟨.start, outer⟩, .symbol n => .next ⟨.named n, outer⟩
  | ⟨.start, _⟩, _ => .stuck
  | ⟨.opened f, outer⟩, .symbol n => .next ⟨.named n, ⟨f, []⟩ :: outer⟩
  | ⟨.opened f, outer⟩, .rightParen => .next ⟨.closed (.functor f []), outer⟩
  | ⟨.opened _, _⟩, _ => .stuck
  | ⟨.named n, outer⟩, .leftParen => .next ⟨.opened n, outer⟩
  | ⟨.named n, outer⟩, t => follow stop (.symbol n) outer t
  | ⟨.closed term, outer⟩, t => follow stop term outer t

/-- The kinds that may stand behind a complete term. -/
def followKinds (stop : TokenKind) : (outer : List Frame) → List TokenKind
  | [] => [stop]
  | _ :: _ => [.rightParen, .comma]

/-- The kinds that the grammar has at a place. -/
def State.expected (stop : TokenKind) : State → List TokenKind
  | ⟨.start, _⟩ => [.symbol]
  | ⟨.opened _, _⟩ => [.symbol, .rightParen]
  | ⟨.named _, outer⟩ => .leftParen :: followKinds stop outer
  | ⟨.closed _, outer⟩ => followKinds stop outer

/-- Tokens of some kinds, as a mismatch lists them. -/
def tokensOf (ks : List TokenKind) : List (Option Token) := ks.map fun k => some k.token

/-- The error of meeting a token that the grammar does not have at a place. -/
def State.errorAt (stop : TokenKind) (s : State) (l : Lexeme) : ParseError :=
  .ofMismatch ⟨l.span, tokensOf (s.expected stop), some l.token⟩

/-- The error of meeting the end of the tokens, put at `last`. It names a token only where the
reader waits for that very token, so not where it waits for any symbol. -/
def State.errorAtEnd (stop : TokenKind) (s : State) (last : Span) : ParseError :=
  .ofMismatch ⟨last, tokensOf ((s.expected stop).filter (· ≠ .symbol)), none⟩

/-- Reads a term up to its `stop`, and gives it with the tokens behind the stop. An error at the end
of the tokens is put at `last`. -/
def run (stop : TokenKind) (last : Span) :
    State → List Lexeme → Except ParseError (Term × List Lexeme)
  | s, [] => .error (s.errorAtEnd stop last)
  | s, l :: rest =>
    match step stop s l.token with
    | .next s' => run stop last s' rest
    | .finished term => .ok (term, rest)
    | .stuck => .error (s.errorAt stop l)

def State.initial : State := ⟨.start, []⟩

/-- The span of the last token; the start of the text if there is none. -/
def lastSpan (lexemes : List Lexeme) : Span :=
  match lexemes.getLast? with
  | some l => l.span
  | none => ⟨0, 0⟩

theorem follow_stuck_iff {stop : TokenKind} {term : Term} {outer : List Frame} {t : Token} :
    follow stop term outer t = .stuck ↔ t.kind ∉ followKinds stop outer := by
  cases outer with
  | nil =>
    simp only [follow, followKinds, List.mem_singleton]
    split <;> simp_all
  | cons f outer => cases t <;> simp [follow, followKinds, Token.kind]

theorem step_stuck_iff {stop : TokenKind} {s : State} {t : Token} :
    step stop s t = .stuck ↔ t.kind ∉ s.expected stop := by
  obtain ⟨place, outer⟩ := s
  cases place with
  | start => cases t <;> simp [step, State.expected, Token.kind]
  | opened f => cases t <;> simp [step, State.expected, Token.kind]
  | named n => cases t <;> simp [step, State.expected, Token.kind, follow_stuck_iff]
  | closed term => simp [step, State.expected, follow_stuck_iff]

end Reader

def Term.ofLexemes (lexemes : List Lexeme) : Except ParseError Term :=
  match Reader.run .endMarker (Reader.lastSpan lexemes) .initial lexemes with
  | .error e => .error e
  | .ok (term, _) => .ok term

def Rule.ofLexemes (lexemes : List Lexeme) : Except ParseError Rule :=
  match Reader.run .equals (Reader.lastSpan lexemes) .initial lexemes with
  | .error e => .error e
  | .ok (head, rest) =>
    match Reader.run .endMarker (Reader.lastSpan lexemes) .initial rest with
    | .error e => .error e
    | .ok (body, _) => .ok ⟨head, body⟩

def Term.parse (text : String) : Except Error Term :=
  match Lexeme.ofText text with
  | .error e => .error (.lex e)
  | .ok lexemes => (Term.ofLexemes lexemes).mapError .parse

def Rule.parse (text : String) : Except Error Rule :=
  match Lexeme.ofText text with
  | .error e => .error (.lex e)
  | .ok lexemes => (Rule.ofLexemes lexemes).mapError .parse

end TermRewriting
