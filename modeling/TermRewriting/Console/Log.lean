import TermRewriting.Rewriting
import TermRewriting.Text.Quoted

/-!
# Log lines

What the program logs about its own work: a level, the part of the program that speaks, and a
message. Which of the lines are written is up to a filter.

A message may repeat a text from outside, such as a path. Characters in it that a terminal could obey
are then written by their numbers.

Results:
* `steers_false_of_printable`, `harmless_of_not_steers`: printable characters are written as they are.
-/
namespace TermRewriting

open Text

inductive Level where
  | trace
  | debug
  | info
  | warn
  | error
  deriving DecidableEq, Repr

namespace Level

def text : Level → String
  | trace => "TRACE"
  | debug => "DEBUG"
  | info => "INFO"
  | warn => "WARN"
  | error => "ERROR"

def rank : Level → Nat
  | trace => 0
  | debug => 1
  | info => 2
  | warn => 3
  | error => 4

instance : LE Level := ⟨fun a b => a.rank ≤ b.rank⟩

instance (a b : Level) : Decidable (a ≤ b) := inferInstanceAs (Decidable (a.rank ≤ b.rank))

end Level

/-- The ASCII control characters that a log message writes by their numbers: bell, backspace, form
feed, escape and delete. -/
def steeringControls : List Char := ['\x07', '\x08', '\x0c', '\x1b', '\x7f']

/-- Whether a character could steer a terminal, or is one of the control characters behind ASCII. -/
def steers (c : Char) : Bool :=
  steeringControls.contains c || (0x80 ≤ c.toNat && c.toNat ≤ 0x9F)

/-- A character as a log message writes it. -/
def harmlessChar (c : Char) : String :=
  if !steers c then c.toString
  else if c.toNat < 0x80 then "\\x" ++ String.ofList ((Nat.toDigits 16 c.toNat).leftpad 2 '0')
  else numbered c

/-- A text from outside as a log message writes it. -/
def harmless (s : String) : String := String.join (s.toList.map harmlessChar)

theorem steers_false_of_printable {c : Char} (h : 0x20 ≤ c.toNat) (h' : c.toNat < 0x7F) :
    steers c = false := by
  have hc : c ∉ steeringControls := by
    intro hc
    simp only [steeringControls, List.mem_cons, List.not_mem_nil, or_false] at hc
    rcases hc with rfl | rfl | rfl | rfl | rfl <;> revert h h' <;> decide
  have : ¬ 0x80 ≤ c.toNat := by omega
  simp [steers, hc, this]

theorem harmless_of_not_steers : ∀ {cs : List Char}, (∀ c ∈ cs, steers c = false) →
    harmless (String.ofList cs) = String.ofList cs
  | [], _ => by simp [harmless]
  | c :: cs, h => by
    have ih := harmless_of_not_steers fun d hd => h d (List.mem_cons_of_mem c hd)
    simp only [harmless, String.toList_ofList] at ih
    simp [harmless, harmlessChar, h c (by simp), ih]

structure LogLine where
  level : Level
  /-- The part of the program that speaks. -/
  target : String
  message : String
  deriving DecidableEq, Repr

/-- The line without its time. -/
def LogLine.text (l : LogLine) : String := l.level.text ++ " " ++ l.target ++ ": " ++ l.message

/-- The line with its time in front; the levels are written flush right. -/
def LogLine.stamped (l : LogLine) (time : String) : String :=
  time ++ String.ofList (List.replicate (6 - l.level.text.length) ' ') ++ l.text

/-- The log line of an event; its details follow the message as `name=value`. -/
def Event.logLine : Event → LogLine
  | .tried pattern term matched =>
    ⟨.trace, "noq::matcher", "pattern match pattern=" ++ pattern.text ++ " expr=" ++ term.text ++
      " matched=" ++ toString matched⟩
  | .rewriting node rule bindings =>
    ⟨.debug, "noq::rewriter", "rewriting " ++ node.text ++ " rule=" ++ rule.text ++
      " bindings=" ++ bindings.text⟩

end TermRewriting
