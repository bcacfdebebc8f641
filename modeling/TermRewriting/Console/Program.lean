import TermRewriting.Console.Arguments
import TermRewriting.Console.Dialogue
import TermRewriting.Console.Files
import TermRewriting.Console.Filter

/-!
# A run of the program

A run greets, takes the lines of its input until they end, and says goodbye. After each answered text
the history is written to its file if there is anything new in it; if that fails, the run says so and
goes on. Here the input is a text and the files are a tree in memory, so a run is a function of its
arguments.

Results:
* `Program.Setup.files_run`: without a history file a run leaves all files as they are.
* `Program.stdout_runLogging`: what standard output receives in a run.
-/
namespace TermRewriting

inductive Output where
  /-- To standard output. -/
  | shown (text : String)
  /-- To standard error. -/
  | complained (text : String)
  /-- To standard error, as a line with a time in front. -/
  | logged (line : LogLine)
  deriving DecidableEq, Repr

namespace Output

def stdout (os : List Output) : String :=
  String.join <| os.map fun
    | shown text => text
    | _ => ""

/-- What standard error receives, with `stamp` written for each log line. -/
def stderr (stamp : LogLine → String) (os : List Output) : String :=
  String.join <| os.map fun
    | shown _ => ""
    | complained text => text
    | logged line => stamp line ++ "\n"

theorem stdout_append (os ps : List Output) : stdout (os ++ ps) = stdout os ++ stdout ps := by
  simp [stdout]

end Output

namespace Program

def greeting : String := "Hi, this is a term rewriting REPL. :h to show help\n\n"

def farewell : String := "Bye!\n"

/-- What is shown before a line is read. -/
def promptText : String := ">> "

/-- Whether lines are asked for on a terminal of this name: only if it can do no editing. -/
def prompts (terminal : String) : Bool :=
  ["dumb", "cons25", "emacs"].contains terminal.toLower

structure Setup where
  options : Options
  /-- Whether lines are asked for. -/
  prompted : Bool
  /-- The filter that the environment asks for. -/
  asked : Option Filter
  deriving DecidableEq, Repr

def Setup.prompt (s : Setup) : List Output := if s.prompted then [.shown promptText] else []

/-- The filter for log lines. Being verbose wins over what the environment asks for. -/
def Setup.filter (s : Setup) : Filter :=
  if s.options.verbose then .since .debug else s.asked.getD (.since .warn)

def Setup.log (s : Setup) (line : LogLine) : List Output :=
  if s.filter.shows line then [.logged line] else []

/-- What is written for a turn. -/
def Setup.tell (s : Setup) (turn : Turn) : List Output :=
  turn.events.flatMap (fun e => s.log e.logLine) ++
    [.shown turn.reply.stdout, .complained (turn.reply.stderr turn.text)]

def notLoaded (path : String) (e : FileError) : LogLine :=
  ⟨.debug, "util::repl", "no history loaded from " ++ harmless path ++ ": " ++ e.message⟩

def notSaved (path : String) (e : FileError) : LogLine :=
  ⟨.warn, "util::repl", "cannot save history to " ++ harmless path ++ ": " ++ e.message⟩

/-- The history that a run starts with, given what reading its file gave. -/
def Setup.load (s : Setup) (path : String) :
    Except FileError String → History × List Output
  | .ok text => (.ofFile text, [])
  | .error e => (.empty, s.log (notLoaded path e))

/-- What is to be written to which file after a turn. -/
def Setup.toSave (s : Setup) (d : Dialogue) : Option (String × String) :=
  match s.options.history, d.history.textToSave with
  | some path, some text => some (path, text)
  | _, _ => none

/-- Saves the history in the tree. -/
def Setup.save (s : Setup) (d : Dialogue) (files : FileTree) : Dialogue × FileTree × List Output :=
  match s.toSave d with
  | none => (d, files, [])
  | some (path, text) =>
    match files.write path text with
    | .ok files' => (d.saved, files', [])
    | .error e => (d, files, s.log (notSaved path e))

def Setup.converse (s : Setup) :
    Dialogue → FileTree → (lines : List String) → FileTree × List Output
  | _, files, [] => (files, s.prompt ++ [.shown farewell])
  | d, files, line :: rest =>
    match d.hear line with
    | (d', none) =>
      let (files', outputs) := s.converse d' files rest
      (files', s.prompt ++ outputs)
    | (d', some turn) =>
      let (d'', files', saving) := s.save d' files
      let (files'', outputs) := s.converse d'' files' rest
      (files'', s.prompt ++ s.tell turn ++ saving ++ outputs)

def Setup.run (s : Setup) (files : FileTree) (input : String) : FileTree × List Output :=
  let (history, loading) := match s.options.history with
    | none => (History.empty, [])
    | some path => s.load path (files.read path)
  let (files', outputs) := s.converse (.initial history) files (typedLines input)
  (files', .shown greeting :: loading ++ outputs)

/-- What a run leaves: its exit code, what it wrote, and the files. -/
structure Result where
  code : Nat
  outputs : List Output
  files : FileTree
  deriving Repr

/-- A run of the program, with what the environment asks to be logged. -/
def runLogging (logging : Option String) (arguments : List String) (terminal : String)
    (files : FileTree) (input : String) : Result :=
  match Request.ofArguments arguments with
  | .help => ⟨0, [.shown usageText], files⟩
  | .refuse e => ⟨2, [.complained e.message], files⟩
  | .run options =>
    let s : Setup := ⟨options, prompts terminal, logging.bind Filter.ofText?⟩
    let (files', outputs) := s.run files input
    ⟨0, outputs, files'⟩

/-- A run of the program in an environment that asks for nothing. -/
def run (arguments : List String) (terminal : String) (files : FileTree) (input : String) :
    Result :=
  runLogging none arguments terminal files input

/-! ## What a run leaves and shows -/

namespace Setup

variable {s : Setup}

/-- Saving concerns the history and its file. -/
theorem save_keeps (s : Setup) (d : Dialogue) (files : FileTree) :
    (s.save d files).1.console = d.console ∧ (s.save d files).1.waiting = d.waiting := by
  rw [save]
  cases s.toSave d with
  | none => exact ⟨rfl, rfl⟩
  | some p => cases h : files.write p.1 p.2 <;> simp [h, Dialogue.saved]

theorem files_save (h : s.options.history = none) (d : Dialogue) (files : FileTree) :
    (s.save d files).2.1 = files := by
  simp [save, toSave, h]

theorem files_converse (h : s.options.history = none) (files : FileTree) :
    ∀ (lines : List String) (d : Dialogue), (s.converse d files lines).1 = files
  | [], _ => rfl
  | line :: rest, d => by
    rw [converse]
    cases hd : d.hear line with
    | mk d' turn =>
      cases turn with
      | none => exact files_converse h files rest d'
      | some turn =>
        simp only [files_save h]
        exact files_converse h files rest _

/-- Without a history file a run leaves all files as they are. -/
theorem files_run (h : s.options.history = none) (files : FileTree) (input : String) :
    (s.run files input).1 = files := by
  rw [run, h]
  exact files_converse h files _ _

theorem stdout_logs (s : Setup) (lines : List LogLine) :
    Output.stdout (lines.flatMap s.log) = "" := by
  induction lines with
  | nil => rfl
  | cons line lines ih =>
    have hline : Output.stdout (s.log line) = "" := by
      rw [log]
      split <;> rfl
    rw [List.flatMap_cons, Output.stdout_append, hline, ih, String.empty_append]

theorem stdout_tell (s : Setup) (turn : Turn) :
    Output.stdout (s.tell turn) = turn.reply.stdout := by
  have hevents := s.stdout_logs (turn.events.map Event.logLine)
  rw [List.flatMap_map] at hevents
  rw [tell, Output.stdout_append, hevents]
  simp [Output.stdout]

theorem stdout_save (s : Setup) (d : Dialogue) (files : FileTree) :
    Output.stdout (s.save d files).2.2 = "" := by
  rw [save]
  cases s.toSave d with
  | none => rfl
  | some p =>
    cases h : files.write p.1 p.2 with
    | ok files' => simp [h, Output.stdout]
    | error e => simpa [h] using s.stdout_logs [notSaved p.1 e]

theorem stdout_load (s : Setup) (path : String) (x : Except FileError String) :
    Output.stdout (s.load path x).2 = "" := by
  cases x with
  | ok text => rfl
  | error e => simpa [load] using s.stdout_logs [notLoaded path e]

/-- Where no prompts are written, the lines show the replies of their turns. -/
theorem stdout_converse (h : s.prompted = false) :
    ∀ (lines : List String) (d : Dialogue) (files : FileTree),
      Output.stdout (s.converse d files lines).2 =
        String.join ((d.turns lines).map fun turn => turn.reply.stdout) ++ farewell
  | [], d, files => by simp [converse, prompt, h, Dialogue.turns, Output.stdout]
  | line :: rest, d, files => by
    rw [converse, Dialogue.turns]
    cases hd : d.hear line with
    | mk d' turn =>
      cases turn with
      | none => simpa [prompt, h] using stdout_converse h rest d' files
      | some turn =>
        obtain ⟨hconsole, hwaiting⟩ := s.save_keeps d' files
        have ih := stdout_converse h rest (s.save d' files).1 (s.save d' files).2.1
        rw [Dialogue.turns_congr rest hconsole hwaiting] at ih
        simp [prompt, h, Output.stdout_append, stdout_tell, stdout_save, ih, String.append_assoc]

theorem stdout_run (h : s.prompted = false) (files : FileTree) (input : String) :
    Output.stdout (s.run files input).2 =
      greeting ++ String.join (((Dialogue.initial .empty).turns (typedLines input)).map
        fun turn => turn.reply.stdout) ++ farewell := by
  -- The history that was loaded makes no difference, and loading shows nothing.
  have hloaded : ∀ (history : History) (loading : List Output), Output.stdout loading = "" →
      Output.stdout (.shown greeting :: loading ++
        (s.converse (.initial history) files (typedLines input)).2) =
      greeting ++ String.join (((Dialogue.initial .empty).turns (typedLines input)).map
        fun turn => turn.reply.stdout) ++ farewell := by
    intro history loading hloading
    have hturns : (Dialogue.initial history).turns (typedLines input) =
        (Dialogue.initial .empty).turns (typedLines input) := Dialogue.turns_congr _ rfl rfl
    have hgreeted : Output.stdout (.shown greeting :: loading) = greeting := by
      rw [← List.singleton_append, Output.stdout_append, hloading]
      simp [Output.stdout]
    rw [Output.stdout_append, hgreeted, stdout_converse h, hturns, String.append_assoc]
  rw [run]
  cases s.options.history with
  | none => exact hloaded .empty [] rfl
  | some path => exact hloaded _ _ (s.stdout_load path (files.read path))

end Setup

/-- **Standard output.** On a terminal that can edit lines a run shows a greeting, the replies to its
input and a farewell. Files, history and logging have no say in it. -/
theorem stdout_runLogging {arguments : List String} {options : Options}
    (hoptions : Request.ofArguments arguments = .run options) {terminal : String}
    (hterminal : prompts terminal = false) (logging : Option String) (files : FileTree)
    (input : String) :
    Output.stdout (runLogging logging arguments terminal files input).outputs =
      greeting ++ String.join (((Dialogue.initial .empty).turns (typedLines input)).map
        fun turn => turn.reply.stdout) ++ farewell := by
  rw [runLogging, hoptions]
  exact Setup.stdout_run hterminal files input

end Program

end TermRewriting
