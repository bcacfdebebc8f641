import TermRewriting.Text.Similarity

/-!
# What the user may choose

The choices of the command line and the names they go by. A name that no choice has may be like the
name of one; that choice is then suggested.

Results:
* `Choice.ofLongName_longName`: every choice is found by its long name.
* `Choice.mem_all`: the list of all choices is complete.
* `Choice.ne_history_of_ofShortName`: no short name chooses a file.
-/
namespace TermRewriting

open Text

inductive Choice where
  | history
  | noHistory
  | verbose
  | help
  deriving DecidableEq, Repr

namespace Choice

def longName : Choice → String
  | history => "history"
  | noHistory => "no-history"
  | verbose => "verbose"
  | help => "help"

/-- The choice as messages write it. -/
def text : Choice → String
  | history => "--history <FILE>"
  | noHistory => "--no-history"
  | verbose => "--verbose"
  | help => "--help"

def all : List Choice := [history, noHistory, verbose, help]

def ofLongName (name : String) : Option Choice := all.find? fun c => c.longName = name

theorem mem_all (c : Choice) : c ∈ all := by
  cases c <;> decide

theorem ofLongName_longName (c : Choice) : ofLongName c.longName = some c := by
  cases c <;> decide

/-- How alike a name and a long name have to be for the choice to be suggested. -/
def suggestionThreshold : Float := 0.7

/-- The choice whose long name is most like a name, if there is one that is like it at all. Of two
that are equally alike the later one counts. -/
def similarTo? (name : String) : Option Choice :=
  let scored := all.map fun c => (similarity name.toList c.longName.toList, c)
  let alike := scored.filter fun candidate => suggestionThreshold < candidate.1
  let better (best : Option (Float × Choice)) (candidate : Float × Choice) :=
    match best with
    | none => some candidate
    | some b => if b.1 ≤ candidate.1 then some candidate else some b
  (alike.foldl better none).map Prod.snd

/-- The choices of how to run. -/
def settings : List Choice := [history, noHistory, verbose]

/-- One of several choices, as messages write it. -/
def oneOf (choices : List Choice) : String := "<" ++ "|".intercalate (choices.map text) ++ ">"

def ofShortName : Char → Option Choice
  | 'v' => some verbose
  | 'h' => some help
  | _ => none

theorem ne_history_of_ofShortName {a : Char} {c : Choice} (h : ofShortName a = some c) :
    c ≠ history := by
  rintro rfl
  unfold ofShortName at h
  split at h <;> cases h

end Choice

end TermRewriting
