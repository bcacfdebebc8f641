import TermRewriting.Console.Program
import TermRewriting.Console.Script

/-!
# The loop at work

A conversation is a loop. It asks the editor for a line and puts the line behind the text that waits.
If that completes the text, the text is added to the history, the console answers it, and the history
is saved. Here the loop is told call by call, together with what may go wrong: the editor can break
off, and an answer can fail to get through. Either ends the loop at once and without a farewell.

If nothing goes wrong, what the loop leaves is what `Program.Setup.converse` says at once.

Results:
* `Program.Setup.take_of_waiting`, `Program.Setup.take_of_complete`, `Program.Setup.take_eq_ok`: what
  the loop does with a line.
* `Program.Setup.loop_eq_converse`: a loop that ends with its input does what `converse` says.
* `Program.Setup.run_of_loop`: a run is such a loop over the typed lines of its input.
-/
namespace TermRewriting.Program

inductive Call where
  /-- The history is read from its file. -/
  | load (path : String)
  /-- The editor is asked for a line. -/
  | read
  /-- A text is added to the history. -/
  | record (text : String)
  /-- The console answers a text. -/
  | evaluate (text : String)
  /-- The history is written to its file, if there is anything new in it. -/
  | save (path : String)
  | farewell
  deriving DecidableEq, Repr

/-- Where a loop stands, the calls it has made so far, and what was written. -/
structure Session where
  dialogue : Dialogue
  files : FileTree
  calls : List Call
  outputs : List Output

/-- Why a loop ends before its input does. -/
inductive Failure (ε ρ : Type) where
  /-- There is no line, and not because the input has ended. -/
  | reading (e : ρ)
  /-- An answer failed. -/
  | evaluation (e : ε)
  deriving DecidableEq, Repr

/-! ## Calls -/

/-- What is written of the work on a text. -/
def Setup.tellWork (s : Setup) (work : Work) : List Output :=
  work.events.flatMap (fun e => s.log e.logLine) ++ [.shown work.stdout, .complained work.stderr]

/-- A call about the history file, if there is one. -/
def Setup.onFile (s : Setup) (call : String → Call) : List Call :=
  s.options.history.toList.map call

namespace Session

def call (w : Session) (c : Call) : Session := { w with calls := w.calls ++ [c] }

def write (w : Session) (outputs : List Output) : Session :=
  { w with outputs := w.outputs ++ outputs }

def ask (s : Setup) (w : Session) : Session := (w.call .read).write s.prompt

/-- Keeps a text until a line goes on with it. -/
def wait (w : Session) (text : String) : Session := { w with dialogue.waiting := text }

def record (w : Session) (text : String) : Session :=
  { w.call (.record text) with dialogue.history := w.dialogue.history.add text }

def evaluate {ε : Type} (s : Setup) (draw : String → Except ε Unit) (w : Session)
    (text : String) : Except ε Unit × Session :=
  let answer := w.dialogue.console.answer draw text
  (answer.1, { (w.call (.evaluate text)).write (s.tellWork answer.2) with
    dialogue.console := answer.2.console })

/-- Saves the history, if it has a file. -/
def save (s : Setup) (w : Session) : Session :=
  match s.options.history with
  | none => w
  | some path =>
    let (d, files, saving) := s.save w.dialogue w.files
    (({ w with dialogue := d, files := files } : Session).call (.save path)).write saving

def farewell (w : Session) : Session := (w.call .farewell).write [.shown Program.farewell]

theorem calls_save (s : Setup) (w : Session) : (w.save s).calls = w.calls ++ s.onFile .save := by
  unfold save Setup.onFile
  cases s.options.history <;> simp [call, write]

theorem dialogue_save (s : Setup) (w : Session) :
    (w.save s).dialogue = (s.save w.dialogue w.files).1 := by
  cases h : s.options.history <;> simp [save, Setup.save, Setup.toSave, h, call, write]

theorem files_save (s : Setup) (w : Session) :
    (w.save s).files = (s.save w.dialogue w.files).2.1 := by
  cases h : s.options.history <;> simp [save, Setup.save, Setup.toSave, h, call, write]

theorem outputs_save (s : Setup) (w : Session) :
    (w.save s).outputs = w.outputs ++ (s.save w.dialogue w.files).2.2 := by
  cases h : s.options.history <;> simp [save, Setup.save, Setup.toSave, h, call, write]

/-- Saving leaves the console and the text that waits as they are. -/
theorem save_keeps (s : Setup) (w : Session) :
    (w.save s).dialogue.console = w.dialogue.console ∧
      (w.save s).dialogue.waiting = w.dialogue.waiting := by
  rw [dialogue_save]
  exact s.save_keeps w.dialogue w.files

end Session

/-! ## The loop -/

namespace Setup

section
variable {ε ρ : Type} (s : Setup) (draw : String → Except ε Unit)

/-- What the loop does with a line. -/
def take (w : Session) (line : String) : Except ε Unit × Session :=
  match joinLine w.dialogue.waiting line with
  | .waiting text => (.ok (), w.wait text)
  | .complete text =>
    match ((w.wait "").record text).evaluate s draw text with
    | (.error e, w') => (.error e, w')
    | (.ok (), w') => (.ok (), w'.save s)

/-- The loop over the lines that the editor gives. What it gives behind them is `last`: the end of the
input, or an error. -/
def loop (last : Except ρ Unit) : (lines : List String) → Session →
    Except (Failure ε ρ) Unit × Session
  | [], w =>
    match last with
    | .error e => (.error (.reading e), w.ask s)
    | .ok () => (.ok (), (w.ask s).farewell)
  | line :: rest, w =>
    match s.take draw (w.ask s) line with
    | (.error e, w') => (.error (.evaluation e), w')
    | (.ok (), w') => loop last rest w'

end

/-- The session that a loop begins with, with the history that is in the file. -/
def start (s : Setup) (files : FileTree) : Session :=
  match s.options.history with
  | none => ⟨.initial .empty, files, [], []⟩
  | some path =>
    let (history, loading) := s.load path (files.read path)
    ⟨.initial history, files, [.load path], loading⟩

theorem calls_start (s : Setup) (files : FileTree) : (s.start files).calls = s.onFile .load := by
  unfold start onFile
  cases s.options.history <;> rfl

section
variable {ε ρ : Type} {s : Setup} {draw : String → Except ε Unit} {w w' : Session}
  {line : String}

theorem take_of_waiting {text : String} (h : joinLine w.dialogue.waiting line = .waiting text) :
    s.take draw w line = (.ok (), w.wait text) := by
  rw [take, h]

theorem take_of_complete {text : String} (h : joinLine w.dialogue.waiting line = .complete text)
    (hok : (w.dialogue.console.answer draw text).1 = .ok ()) :
    s.take draw w line =
      (.ok (), (((w.wait "").record text).evaluate s draw text).2.save s) := by
  have hresult : (((w.wait "").record text).evaluate s draw text).1 = .ok () := hok
  simp only [take, h]
  split
  · rename_i e w' he
    rw [he] at hresult
    cases hresult
  · rename_i w' he
    rw [he]

/-- A line with which nothing goes wrong is kept, or completes a text whose answer gets through. -/
theorem take_eq_ok (h : s.take draw w line = (.ok (), w')) :
    (∃ text, joinLine w.dialogue.waiting line = .waiting text ∧ w' = w.wait text) ∨
    ∃ text, joinLine w.dialogue.waiting line = .complete text ∧
      (w.dialogue.console.answer draw text).1 = .ok () ∧
      w' = (((w.wait "").record text).evaluate s draw text).2.save s := by
  rw [take] at h
  cases hj : joinLine w.dialogue.waiting line with
  | waiting text =>
    rw [hj] at h
    cases h
    exact Or.inl ⟨text, rfl, rfl⟩
  | complete text =>
    rw [hj] at h
    refine Or.inr ⟨text, rfl, ?_⟩
    cases he : ((w.wait "").record text).evaluate s draw text with
    | mk result v =>
      simp only [he] at h
      cases result with
      | error e => cases h
      | ok u =>
        cases h
        exact ⟨congrArg Prod.fst he, rfl⟩

theorem loop_cons_of_ok {last : Except ρ Unit} (h : s.take draw (w.ask s) line = (.ok (), w'))
    (rest : List String) : s.loop draw last (line :: rest) w = s.loop draw last rest w' := by
  rw [loop, h]

theorem loop_cons_eq_ok {last : Except ρ Unit} {rest : List String}
    (h : s.loop draw last (line :: rest) w = (.ok (), w')) :
    ∃ v, s.take draw (w.ask s) line = (.ok (), v) ∧ s.loop draw last rest v = (.ok (), w') := by
  rw [loop] at h
  cases ht : s.take draw (w.ask s) line with
  | mk result v =>
    rw [ht] at h
    cases result with
    | error e => cases h
    | ok u => exact ⟨v, rfl, h⟩

/-- What the loop does with a text that is complete is what `converse` says of its turn. -/
theorem evaluate_eq_turn {text : String} (h : (w.dialogue.console.answer draw text).1 = .ok ()) :
    let o := w.dialogue.console.evaluate text
    let v := (((w.wait "").record text).evaluate s draw text).2
    v.dialogue = ⟨o.console, w.dialogue.history.add text, ""⟩ ∧ v.files = w.files ∧
      v.outputs = w.outputs ++ s.tell ⟨text, o.reply, o.events⟩ := by
  have ha := Console.answer_of_ok h
  have hconsole : ((w.wait "").record text).dialogue.console = w.dialogue.console := rfl
  simp only [Session.evaluate, hconsole, ha]
  exact ⟨rfl, rfl, rfl⟩

theorem loop_eq_converse : ∀ (lines : List String) (w w' : Session),
    s.loop draw (.ok () : Except ρ Unit) lines w = (.ok (), w') →
    w'.files = (s.converse w.dialogue w.files lines).1 ∧
      w'.outputs = w.outputs ++ (s.converse w.dialogue w.files lines).2
  | [], w, w', h => by
    cases h
    simp [converse, Session.ask, Session.farewell, Session.write, Session.call]
  | line :: rest, w, w', h => by
    obtain ⟨v, hv, hrest⟩ := loop_cons_eq_ok h
    obtain ⟨hfiles, houtputs⟩ := loop_eq_converse rest v w' hrest
    rcases take_eq_ok hv with ⟨text, hj, rfl⟩ | ⟨text, hj, hok, rfl⟩
    · have hhear : w.dialogue.hear line = ({ w.dialogue with waiting := text }, none) := by
        rw [Dialogue.hear, show joinLine w.dialogue.waiting line = _ from hj]
      rw [converse, hhear, hfiles, houtputs]
      simp [Session.wait, Session.ask, Session.write, Session.call]
    · obtain ⟨hd, hf, ho⟩ := evaluate_eq_turn (s := s) hok
      rw [Session.dialogue_save, Session.files_save, hd, hf] at hfiles houtputs
      rw [Session.outputs_save, hd, hf, ho] at houtputs
      rw [converse, Dialogue.hear, show joinLine w.dialogue.waiting line = _ from hj]
      refine ⟨hfiles, houtputs.trans ?_⟩
      simp [Session.ask, Session.write, Session.call]

/-- A run is a loop over the typed lines of its input, if nothing goes wrong in the loop. -/
theorem run_of_loop {files : FileTree} {input : String} {w : Session}
    (h : s.loop draw (.ok () : Except ρ Unit) (typedLines input) (s.start files) = (.ok (), w)) :
    s.run files input = (w.files, .shown greeting :: w.outputs) := by
  obtain ⟨hfiles, houtputs⟩ := loop_eq_converse _ _ _ h
  rw [hfiles, houtputs, run, start]
  cases s.options.history <;> simp

end

end Setup

end TermRewriting.Program
