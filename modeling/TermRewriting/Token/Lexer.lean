import TermRewriting.Error
import TermRewriting.Text.Alphanumeric
import TermRewriting.Text.Blank

/-!
# From text to tokens

Blanks separate tokens and are skipped. A parenthesis, a comma or an equals sign is a token by
itself, and a symbol is a run of letters and numbers that is as long as possible. The first
character that is none of these is an error.

Results:
* `scan_blank`, `scan_punctuation`, `scan_word`, `scan_stray`: what the lexer makes of the next
  character, by its class.
-/
namespace TermRewriting

/-- The token that a character is by itself. -/
def Token.ofPunctuation? : Char → Option Token
  | '(' => some .leftParen
  | ')' => some .rightParen
  | ',' => some .comma
  | '=' => some .equals
  | _ => none

namespace Lexeme

open Text

/-- Puts a token in front of the tokens of the rest, if the rest has tokens. -/
def andThen (l : Lexeme) (rest : Except LexError (List Lexeme)) : Except LexError (List Lexeme) :=
  rest.map (l :: ·)

theorem length_dropWhile_le (p : Char → Bool) (cs : List Char) :
    (cs.dropWhile p).length ≤ cs.length :=
  (List.dropWhile_sublist p).length_le

/-- The tokens of a text whose first character is at `position`, without the end marker. -/
def scan (position : Nat) : List Char → Except LexError (List Lexeme)
  | [] => .ok []
  | c :: cs =>
    if isBlank c then scan (position + 1) cs
    else
      match Token.ofPunctuation? c with
      | some t => andThen ⟨t, position, position + 1⟩ (scan (position + 1) cs)
      | none =>
        if isAlphanumeric c then
          let name := c :: cs.takeWhile isAlphanumeric
          let next := position + name.length
          andThen ⟨.symbol (String.ofList name), position, next⟩
            (scan next (cs.dropWhile isAlphanumeric))
        else .error ⟨some c, position⟩
termination_by cs => cs.length
decreasing_by
  · simp
  · simp
  · exact Nat.lt_succ_of_le (length_dropWhile_le isAlphanumeric cs)

/-- The tokens of a text, with the end marker behind the last one. A text that is not empty has to
hold a token. -/
def ofText (text : String) : Except LexError (List Lexeme) :=
  match scan 0 text.toList with
  | .error e => .error e
  | .ok lexemes =>
    if lexemes.isEmpty && !text.isEmpty then .error ⟨none, text.length⟩
    else .ok (lexemes ++ [⟨.endMarker, text.length, text.length⟩])

/-! ## The lexer by the class of the next character -/

theorem scan_nil (n : Nat) : scan n [] = .ok [] := by
  rw [scan]

theorem scan_blank {c : Char} (h : isBlank c = true) (n : Nat) (cs : List Char) :
    scan n (c :: cs) = scan (n + 1) cs := by
  rw [scan, if_pos h]

theorem scan_punctuation {c : Char} {t : Token} (hb : isBlank c = false)
    (h : Token.ofPunctuation? c = some t) (n : Nat) (cs : List Char) :
    scan n (c :: cs) = andThen ⟨t, n, n + 1⟩ (scan (n + 1) cs) := by
  rw [scan, if_neg (by simp [hb]), h]

theorem scan_word {c : Char} (hb : isBlank c = false) (hp : Token.ofPunctuation? c = none)
    (h : isAlphanumeric c = true) (n : Nat) (cs : List Char) :
    scan n (c :: cs) =
      andThen ⟨.symbol (String.ofList (c :: cs.takeWhile isAlphanumeric)), n,
          n + (c :: cs.takeWhile isAlphanumeric).length⟩
        (scan (n + (c :: cs.takeWhile isAlphanumeric).length) (cs.dropWhile isAlphanumeric)) := by
  rw [scan, if_neg (by simp [hb]), hp]
  simp only [h, if_true]

theorem scan_stray {c : Char} (hb : isBlank c = false) (hp : Token.ofPunctuation? c = none)
    (h : isAlphanumeric c = false) (n : Nat) (cs : List Char) :
    scan n (c :: cs) = .error ⟨some c, n⟩ := by
  rw [scan, if_neg (by simp [hb]), hp]
  simp [h]

end Lexeme

end TermRewriting
