import TermRewriting.Console.Command
import TermRewriting.Console.Display
import TermRewriting.Console.Report
import TermRewriting.Reader
import TermRewriting.Rewriting

/-!
# The console

The console keeps one rule and answers one line at a time. A line is a command with the text that it
works on, and a line without a command is a term to rewrite. Only a rule that could be read changes
the console; every other line leaves it as it was.

Results:
* `Console.perform_console_of_ne`, `Console.perform_console`: what a command leaves is the console, or
  the console with a new rule.
* `Console.evaluate_of_allBlank`: a line of blanks has no effect and no answer.
* `Console.evaluate_of_not_allBlank`: any other line is a command with its text.
-/
namespace TermRewriting

open Text

/-- What the console remembers from line to line. -/
structure Console where
  rule : Option Rule
  deriving DecidableEq, Repr

/-- What the console has to say to a line. -/
inductive Reply where
  /-- Nothing; the line was blank. -/
  | silence
  | tokens (tokens : List Token)
  | term (term : Term)
  /-- The rule that is set from now on. -/
  | rule (rule : Rule)
  /-- What a pattern found, if it matched. -/
  | found (bindings : Option Bindings)
  | rewritten (term : Term)
  | help
  /-- There is no such command. -/
  | unknownCommand (word : String)
  /-- A term cannot be rewritten before a rule is set. -/
  | noRule
  | failed (error : Error)
  deriving DecidableEq, Repr

namespace Reply

def stdout : Reply → String
  | silence => ""
  | tokens ts => Token.structureList ts ++ "\n"
  | term t => t.text ++ "\n" ++ t.structureText ++ "\n"
  | rule r => r.text ++ "\n"
  | found (some b) => b.text ++ "\n"
  | found none => "no match\n"
  | rewritten t => t.text ++ "\n"
  | help => helpText ++ "\n"
  | unknownCommand _ => helpText ++ "\n"
  | noRule => ""
  | failed _ => ""

/-- How an error is shown. A report is drawn over the line that was typed. -/
def errorText (line : String) (e : Error) : String :=
  match Report.ofError? e with
  | some r => r.draw line
  | none => "Error: " ++ e.message ++ "\n"

/-- The part of a reply to `line` that goes to standard error. -/
def stderr (line : String) : Reply → String
  | unknownCommand word => "Unknown command " ++ word ++ "\n"
  | noRule => "No rule yet, set one with :rule head = body\n"
  | failed e => errorText line e
  | _ => ""

end Reply

/-- What comes of a line: the console from then on, the reply, and the events before it. -/
structure Outcome where
  console : Console
  reply : Reply
  events : List Event
  deriving Repr

namespace Console

def initial : Console := ⟨none⟩

/-- The console stays as it is. -/
def keep (c : Console) (reply : Reply) : Outcome := ⟨c, reply, []⟩

def tokenize (text : String) : Reply :=
  match Lexeme.ofText text with
  | .error e => .failed (.lex e)
  | .ok lexemes => .tokens (lexemes.map Lexeme.token)

def parse (text : String) : Reply :=
  match Term.parse text with
  | .error e => .failed e
  | .ok t => .term t

def setRule (c : Console) (text : String) : Outcome :=
  match Rule.parse text with
  | .error e => c.keep (.failed e)
  | .ok r => ⟨⟨some r⟩, .rule r, []⟩

/-- Matches the right side of `pattern = term` against the left one. -/
def matchTerms (c : Console) (text : String) : Outcome :=
  match Rule.parse text with
  | .error e => c.keep (.failed e)
  | .ok r =>
    let (tried, found) := r.head.tryMatch r.body
    ⟨c, .found found, [tried]⟩

def passReply (p : Traced Term) : Reply :=
  match p.outcome with
  | .error e => .failed (.substitution e)
  | .ok t => .rewritten t

/-- Rewrites a term by the rule. Without a rule the text is not looked at. -/
def apply (c : Console) (text : String) : Outcome :=
  match c.rule with
  | none => c.keep .noRule
  | some r =>
    match Term.parse text with
    | .error e => c.keep (.failed e)
    | .ok t =>
      let pass := r.pass t
      ⟨c, passReply pass, pass.events⟩

def perform (c : Console) : Command → (text : String) → Outcome
  | .tokenize, text => c.keep (tokenize text)
  | .parse, text => c.keep (parse text)
  | .rule, text => c.setRule text
  | .matchTerms, text => c.matchTerms text
  | .apply, text => c.apply text
  | .help, _ => c.keep .help
  | .unknown word, _ => c.keep (.unknownCommand word)

def evaluate (c : Console) (line : String) : Outcome :=
  if allBlank line then c.keep .silence
  else
    let (word, text) := splitCommand line
    c.perform (.ofWord word) text

theorem evaluate_of_allBlank {c : Console} {line : String} (h : allBlank line = true) :
    c.evaluate line = ⟨c, .silence, []⟩ := by
  simp [evaluate, h, keep]

theorem evaluate_of_not_allBlank {c : Console} {line : String} (h : allBlank line = false) :
    c.evaluate line = c.perform (.ofWord (splitCommand line).1) (splitCommand line).2 := by
  simp [evaluate, h]

theorem matchTerms_console (c : Console) (text : String) : (c.matchTerms text).console = c := by
  unfold matchTerms
  split <;> rfl

theorem apply_console (c : Console) (text : String) : (c.apply text).console = c := by
  unfold apply
  split
  · rfl
  · split <;> rfl

/-- Only the command that sets a rule can change the console. -/
theorem perform_console_of_ne {command : Command} (h : command ≠ .rule) (c : Console)
    (text : String) : (c.perform command text).console = c := by
  cases command with
  | rule => exact absurd rfl h
  | matchTerms => exact matchTerms_console c text
  | apply => exact apply_console c text
  | _ => rfl

theorem perform_console (c : Console) (command : Command) (text : String) :
    (c.perform command text).console = c ∨
      ∃ r, Rule.parse text = .ok r ∧ (c.perform command text).console = ⟨some r⟩ := by
  by_cases hrule : command = .rule
  · subst hrule
    cases h : Rule.parse text with
    | error e => exact Or.inl (by simp [perform, setRule, h, keep])
    | ok r => exact Or.inr ⟨r, rfl, by simp [perform, setRule, h]⟩
  · exact Or.inl (perform_console_of_ne hrule c text)

end Console

end TermRewriting
