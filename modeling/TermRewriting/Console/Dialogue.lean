import TermRewriting.Console
import TermRewriting.Console.History
import TermRewriting.Console.Line

/-!
# The dialogue

A dialogue takes the typed lines one by one. Lines that are continued are put together; each complete
text is added to the history and then answered. A text that is still waiting at the end is neither.

Results:
* `Dialogue.turns_congr`: the turns depend on the console and the text that waits, not on the history.
-/
namespace TermRewriting

structure Dialogue where
  console : Console
  history : History
  /-- The continued lines that wait for more. -/
  waiting : String

/-- A text that was answered, the reply, and the events before it. -/
structure Turn where
  text : String
  reply : Reply
  events : List Event
  deriving Repr

namespace Dialogue

/-- The start of a dialogue, with the history of earlier ones. -/
def initial (h : History) : Dialogue := ⟨.initial, h, ""⟩

def hear (d : Dialogue) (line : String) : Dialogue × Option Turn :=
  match joinLine d.waiting line with
  | .waiting text => ({ d with waiting := text }, none)
  | .complete text =>
    let outcome := d.console.evaluate text
    (⟨outcome.console, d.history.add text, ""⟩, some ⟨text, outcome.reply, outcome.events⟩)

def saved (d : Dialogue) : Dialogue := { d with history := d.history.saved }

/-- The turns that a list of typed lines leads to. -/
def turns (d : Dialogue) : List String → List Turn
  | [] => []
  | line :: rest =>
    match d.hear line with
    | (d', none) => d'.turns rest
    | (d', some turn) => turn :: d'.turns rest

/-- The history has no say in what is answered. -/
theorem turns_congr : ∀ (lines : List String) {d d' : Dialogue}, d.console = d'.console →
    d.waiting = d'.waiting → d.turns lines = d'.turns lines
  | [], _, _, _, _ => rfl
  | line :: rest, d, d', hconsole, hwaiting => by
    rw [turns, turns, hear, hear, hconsole, hwaiting]
    cases joinLine d'.waiting line with
    | waiting text => exact turns_congr rest rfl rfl
    | complete text => exact congrArg (_ :: ·) (turns_congr rest rfl rfl)

end Dialogue

end TermRewriting
