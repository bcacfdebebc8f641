import TermRewriting.Console.Choice
import TermRewriting.Text.ControlSequence

/-!
# The command line

The program takes four options and nothing else. Arguments are looked at from the left. The value of
`--history` may be joined to it by an equals sign or follow as an argument of its own; in that case
the option counts only when the next option, or the end, shows that the value is complete.

A refusal says how the program could have been called: with the choices made so far, if an unknown
name came behind them, and with the choice that the name is most like. What it repeats of the
arguments is drawn without the control sequences in them.

Results:
* `Arguments.Made.Sound.take`, `Arguments.Made.Sound.readAll`: what an argument, and what all of them,
  keep of the choices made.
* `Request.exists_made`: where the options of a run come from.
* `Request.history_ne_empty`: the history file of a run has a name.
-/
namespace TermRewriting

open Text

structure Options where
  /-- The file that holds the line history, if there is one. -/
  history : Option String
  verbose : Bool
  deriving DecidableEq, Repr

/-- Where the line history is kept by default. -/
def defaultHistory : String := "/tmp/noq.history"

inductive ArgumentError where
  /-- There is no option of this letter, or it is no option at all. -/
  | unexpected (argument : String)
  /-- There is no option of this name. `made` are the choices that came before it. -/
  | unknown (name : String) (made : List Choice)
  /-- The choice was made twice. -/
  | repeated (choice : Choice)
  /-- The choice takes no value. `made` are the choices that were settled before it. -/
  | unwantedValue (choice : Choice) (value : String) (made : List Choice)
  /-- The choice needs a value that is not empty. -/
  | missingValue (choice : Choice)
  deriving DecidableEq, Repr

namespace ArgumentError

def text : ArgumentError → String
  | unexpected argument => "unexpected argument '" ++ visible argument ++ "' found"
  | unknown name _ => "unexpected argument '" ++ visible ("--" ++ name) ++ "' found"
  | repeated choice => "the argument '" ++ choice.text ++ "' cannot be used multiple times"
  | unwantedValue choice value _ =>
    "unexpected value '" ++ visible value ++ "' for '" ++ choice.text ++
      "' found; no more were expected"
  | missingValue choice => "a value is required for '" ++ choice.text ++ "' but none was supplied"

/-- The choice that may have been meant. -/
def suggestion : ArgumentError → Option Choice
  | unknown name _ => Choice.similarTo? name
  | _ => none

def withSuggestion (made : List Choice) : Option Choice → List Choice
  | none => made
  | some c => if c ∈ made then made else made ++ [c]

/-- What the program could have been called with, if that helps. -/
def usage (e : ArgumentError) : Option String :=
  match e with
  | unexpected _ | repeated _ => some "[OPTIONS]"
  | unknown _ made =>
    match withSuggestion made e.suggestion with
    | [] => some "[OPTIONS]"
    | choices => some (" ".intercalate (choices.map Choice.text))
  | unwantedValue choice _ [] => some choice.text
  | unwantedValue choice _ (_ :: _) =>
    some ((if choice ∈ Choice.settings then "" else choice.text ++ " ") ++
      Choice.oneOf Choice.settings)
  | missingValue _ => none

def message (e : ArgumentError) : String :=
  "error: " ++ e.text ++ "\n\n" ++
    (match e.suggestion with
      | some c => "  tip: a similar argument exists: '--" ++ c.longName ++ "'\n\n"
      | none => "") ++
    (match e.usage with
      | some u => "Usage: noq " ++ u ++ "\n\n"
      | none => "") ++
    "For more information, try '--help'.\n"

end ArgumentError

def usageText : String := "\n".intercalate
  ["Usage: noq [OPTIONS]",
    "",
    "Options:",
    "      --history <FILE>  Keep the line history in this file [default: " ++ defaultHistory ++ "]",
    "      --no-history      Neither read nor write a history file",
    "  -v, --verbose         Log every rewrite (same as `RUST_LOG=debug`)",
    "  -h, --help            Print help",
    ""]

inductive Request where
  | run (options : Options)
  | help
  | refuse (error : ArgumentError)
  deriving DecidableEq, Repr

namespace Arguments

/-- A `--history` that is not settled yet. -/
inductive Pending where
  | nothing
  /-- Its value has to come next. -/
  | value
  /-- Its value has come. -/
  | given (path : String)
  deriving DecidableEq, Repr

/-- The choices made so far, in order, and the file chosen. -/
structure Made where
  choices : List Choice
  file : Option String
  deriving DecidableEq, Repr

/-- Why reading the arguments ends early. -/
inductive Stop where
  | help
  | refuse (error : ArgumentError)
  deriving DecidableEq, Repr

/-- Makes a choice; no choice can be made twice. -/
def choose (m : Made) (c : Choice) : Except Stop Made :=
  if c ∈ m.choices then .error (.refuse (.repeated c))
  else .ok { m with choices := m.choices ++ [c] }

def chooseFile (m : Made) (path : String) : Except Stop Made :=
  match choose m .history with
  | .error e => .error e
  | .ok m' =>
    if path.isEmpty then .error (.refuse (.missingValue .history))
    else .ok { m' with file := some path }

def settle (m : Made) : Pending → Except Stop Made
  | .nothing => .ok m
  | .value => .error (.refuse (.missingValue .history))
  | .given path => chooseFile m path

/-- The choices that have come, settled or not. A second `--history` that has its value takes back
the first one. -/
def mentioned (m : Made) : Pending → List Choice
  | .given _ =>
    if .history ∈ m.choices then m.choices.erase .history else m.choices ++ [.history]
  | _ => m.choices

def takeFlag (m : Made) (p : Pending) (c : Choice) : Except Stop Made :=
  match settle m p with
  | .error e => .error e
  | .ok m' => if c = .help then .error .help else choose m' c

/-- Takes a word of one-letter options. -/
def takeShort : (m : Made) → (p : Pending) → List Char → Except Stop (Made × Pending)
  | m, p, [] => .ok (m, p)
  | m, p, c :: cs =>
    match Choice.ofShortName c with
    | none => .error (.refuse (.unexpected ("-" ++ c.toString)))
    | some choice =>
      match takeFlag m p choice with
      | .error e => .error e
      | .ok m' => takeShort m' .nothing cs

/-- Cuts `name=value` at the first equals sign. -/
def cutAtEquals (cs : List Char) : String × Option String :=
  (String.ofList (cs.takeWhile (· ≠ '=')),
    match cs.dropWhile (· ≠ '=') with
    | [] => none
    | _ :: value => some (String.ofList value))

/-- Takes a long option, given without its dashes. -/
def takeLong (m : Made) (p : Pending) (cs : List Char) : Except Stop (Made × Pending) :=
  let (name, value) := cutAtEquals cs
  match Choice.ofLongName name, value with
  | none, _ => .error (.refuse (.unknown name (mentioned m p)))
  | some .history, none =>
    match settle m p with
    | .error e => .error e
    | .ok m' => .ok (m', .value)
  | some .history, some path =>
    match settle m p with
    | .error e => .error e
    | .ok m' =>
      match chooseFile m' path with
      | .error e => .error e
      | .ok m'' => .ok (m'', .nothing)
  | some choice, none =>
    match takeFlag m p choice with
    | .error e => .error e
    | .ok m' => .ok (m', .nothing)
  | some choice, some value => .error (.refuse (.unwantedValue choice value m.choices))

/-- Takes an argument that is not an option: the value that was waited for, if any. -/
def takePlain (m : Made) (p : Pending) (argument : String) : Except Stop (Made × Pending) :=
  match p with
  | .value => .ok (m, .given argument)
  | _ => .error (.refuse (.unexpected argument))

/-- Takes an argument. A dash by itself is no option. -/
def take (m : Made) (p : Pending) (argument : String) : Except Stop (Made × Pending) :=
  match argument.toList with
  | '-' :: '-' :: cs => takeLong m p cs
  | '-' :: c :: cs => takeShort m p (c :: cs)
  | _ => takePlain m p argument

/-- The options that the choices made amount to. Having no history wins over having one. -/
def optionsOf (m : Made) : Options where
  history := if .noHistory ∈ m.choices then none else some (m.file.getD defaultHistory)
  verbose := .verbose ∈ m.choices

def finish (m : Made) (p : Pending) : Request :=
  match settle m p with
  | .error .help => .help
  | .error (.refuse e) => .refuse e
  | .ok m' => .run (optionsOf m')

/-- Reads the arguments. Two dashes end the options, and nothing may come behind them. -/
def readAll (m : Made) (p : Pending) : (arguments : List String) → Request
  | [] => finish m p
  | "--" :: rest =>
    match rest with
    | [] => finish m p
    | argument :: _ => .refuse (.unexpected argument)
  | argument :: rest =>
    match take m p argument with
    | .error .help => .help
    | .error (.refuse e) => .refuse e
    | .ok (m', p') => readAll m' p' rest

def Made.nothing : Made := ⟨[], none⟩

/-! ## What choices come together -/

/-- Choices that can lead to a run: none was made twice, help was not asked for, and there is a file,
with a name, exactly if one was chosen. -/
structure Made.Sound (m : Made) : Prop where
  distinct : m.choices.Nodup
  no_help : .help ∉ m.choices
  file_iff : m.file.isSome = true ↔ .history ∈ m.choices
  file_named : ∀ path, m.file = some path → path.isEmpty = false

theorem Made.sound_nothing : Made.nothing.Sound := ⟨.nil, by simp [nothing], by simp [nothing], nofun⟩

section
variable {m m' : Made} {p p' : Pending} {c : Choice}

theorem choose_eq_ok (h : choose m c = .ok m') :
    c ∉ m.choices ∧ m' = { m with choices := m.choices ++ [c] } := by
  rw [choose] at h
  split at h
  · cases h
  · rename_i hc
    cases h
    exact ⟨hc, rfl⟩

theorem nodup_concat {cs : List Choice} (hcs : cs.Nodup) (hc : c ∉ cs) : (cs ++ [c]).Nodup := by
  refine List.nodup_append.mpr ⟨hcs, by simp, fun a ha b hb => ?_⟩
  rw [List.mem_singleton.mp hb]
  exact fun hac => hc (hac ▸ ha)

namespace Made.Sound

theorem choose (hm : m.Sound) (hhelp : c ≠ .help) (hhistory : c ≠ .history)
    (h : Arguments.choose m c = .ok m') : m'.Sound := by
  obtain ⟨hc, rfl⟩ := choose_eq_ok h
  refine ⟨nodup_concat hm.distinct hc, ?_, ?_, hm.file_named⟩
  · simp [hm.no_help, Ne.symm hhelp]
  · simp [hm.file_iff, Ne.symm hhistory]

theorem chooseFile (hm : m.Sound) {path : String} (h : Arguments.chooseFile m path = .ok m') :
    m'.Sound := by
  rw [Arguments.chooseFile] at h
  split at h
  · cases h
  · rename_i m₁ hc
    obtain ⟨hnew, rfl⟩ := choose_eq_ok hc
    split at h
    · cases h
    · rename_i hpath
      cases h
      refine ⟨nodup_concat hm.distinct hnew, by simp [hm.no_help], by simp, fun path' h' => ?_⟩
      cases h'
      simpa using hpath

theorem settle (hm : m.Sound) (h : Arguments.settle m p = .ok m') : m'.Sound := by
  cases p with
  | nothing =>
    cases h
    exact hm
  | value => cases h
  | given path => exact hm.chooseFile h

theorem takeFlag (hm : m.Sound) (hhistory : c ≠ .history)
    (h : Arguments.takeFlag m p c = .ok m') : m'.Sound := by
  rw [Arguments.takeFlag] at h
  split at h
  · cases h
  · rename_i m₁ hs
    split at h
    · cases h
    · rename_i hhelp
      exact (hm.settle hs).choose hhelp hhistory h

theorem takeShort : ∀ {cs : List Char} {m : Made} {p : Pending}, m.Sound →
    Arguments.takeShort m p cs = .ok (m', p') → m'.Sound
  | [], m, p, hm, h => by
    cases h
    exact hm
  | a :: cs, m, p, hm, h => by
    rw [Arguments.takeShort] at h
    split at h
    · cases h
    · rename_i c ha
      split at h
      · cases h
      · rename_i m₁ hf
        exact takeShort (hm.takeFlag (Choice.ne_history_of_ofShortName ha) hf) h

theorem takeLong (hm : m.Sound) {cs : List Char} (h : Arguments.takeLong m p cs = .ok (m', p')) :
    m'.Sound := by
  rw [Arguments.takeLong] at h
  split at h
  split at h
  · cases h
  · split at h
    · cases h
    · rename_i m₁ hs
      cases h
      exact hm.settle hs
  · split at h
    · cases h
    · rename_i m₁ hs
      split at h
      · cases h
      · rename_i m₂ hc
        cases h
        exact (hm.settle hs).chooseFile hc
  · rename_i c hhistory _ _
    split at h
    · cases h
    · rename_i m₁ hf
      cases h
      exact hm.takeFlag hhistory hf
  · cases h

theorem take (hm : m.Sound) {argument : String}
    (h : Arguments.take m p argument = .ok (m', p')) : m'.Sound := by
  rw [Arguments.take] at h
  split at h
  · exact hm.takeLong h
  · exact hm.takeShort h
  · cases p with
    | value =>
      cases h
      exact hm
    | nothing => cases h
    | given path => cases h

theorem finish (hm : m.Sound) {o : Options} (h : Arguments.finish m p = .run o) :
    ∃ m' : Made, m'.Sound ∧ o = optionsOf m' := by
  rw [Arguments.finish] at h
  split at h
  · cases h
  · cases h
  · rename_i m' hs
    cases h
    exact ⟨m', hm.settle hs, rfl⟩

theorem readAll {o : Options} : ∀ {arguments : List String} {m : Made} {p : Pending}, m.Sound →
    Arguments.readAll m p arguments = .run o → ∃ m' : Made, m'.Sound ∧ o = optionsOf m'
  | [], m, p, hm, h => hm.finish h
  | argument :: rest, m, p, hm, h => by
    by_cases hdashes : argument = "--"
    · subst hdashes
      cases rest with
      | nil =>
        simp only [Arguments.readAll] at h
        exact hm.finish h
      | cons a rest =>
        simp only [Arguments.readAll] at h
        cases h
    · rw [Arguments.readAll] at h
      · split at h
        · cases h
        · cases h
        · rename_i m₁ p₁ ht
          exact readAll (hm.take ht) h
      · exact hdashes

end Made.Sound

end

end Arguments

def Request.ofArguments (arguments : List String) : Request :=
  Arguments.readAll .nothing .nothing arguments

/-- **Arguments of a run.** The options of a run are those of choices of which none was made twice. -/
theorem Request.exists_made {arguments : List String} {o : Options}
    (h : ofArguments arguments = .run o) :
    ∃ m : Arguments.Made, m.Sound ∧ o = Arguments.optionsOf m :=
  Arguments.Made.sound_nothing.readAll h

/-- The history file of a run has a name. -/
theorem Request.history_ne_empty {arguments : List String} {o : Options}
    (h : ofArguments arguments = .run o) : o.history ≠ some "" := by
  obtain ⟨m, hm, rfl⟩ := exists_made h
  intro hempty
  rw [Arguments.optionsOf] at hempty
  split at hempty
  · cases hempty
  · cases hfile : m.file with
    | none =>
      rw [hfile] at hempty
      exact absurd (Option.some.inj hempty) (by decide)
    | some path =>
      rw [hfile] at hempty
      have hpath := hm.file_named path hfile
      rw [show path = "" from Option.some.inj hempty] at hpath
      cases hpath

end TermRewriting
