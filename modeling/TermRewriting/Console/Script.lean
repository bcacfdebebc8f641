import TermRewriting.Console

/-!
# The console at work

A line is answered step by step: a command reads its text, writes to the two streams, logs and sets
the rule, and breaks off where it meets an error. What was done before an error remains done. The
report of the error goes to standard error through a writer that can fail, and the answer with it.

What comes of all these steps is what `Console.evaluate` says at once.

Results:
* `Script.runFrom_bind`: steps one after the other; an error ends them.
* `Script.runFrom_perform`: a command does what its reply says.
* `Console.answer_eq`, `Console.answer_of_ok`: an answer does what the reply to its line says, up to a
  report that could not be written.
-/
namespace TermRewriting

open Text

/-- A console and what it has written and logged so far. -/
structure Work where
  console : Console
  stdout : String
  stderr : String
  events : List Event
  deriving Repr

/-- The console before it has written anything. -/
def Work.start (c : Console) : Work := ⟨c, "", "", []⟩

/-- Some steps of work, which an error may end. -/
abbrev Script (ε : Type) := ExceptT ε (StateM Work)

namespace Script

variable {ε α β : Type}

/-- What the steps come to, and what they leave. -/
def runFrom (s : Script ε α) (w : Work) : Except ε α × Work := (s.run.run w).run

/-! ## Steps -/

/-- Goes on with a result; an error, wrapped by `wrap`, ends the steps. -/
def attempt {δ : Type} (wrap : δ → ε) : Except δ α → Script ε α
  | .ok a => pure a
  | .error e => throw (wrap e)

/-- Does the steps, and goes on with their result even if it is an error. -/
def caught {δ : Type} (s : Script ε α) : Script δ (Except ε α) := ExceptT.lift s.run

def print (text : String) : Script ε Unit :=
  modify fun w => { w with stdout := w.stdout ++ (text ++ "\n") }

def warn (text : String) : Script ε Unit := modify fun w => { w with stderr := w.stderr ++ text }

def log (events : List Event) : Script ε Unit :=
  modify fun w => { w with events := w.events ++ events }

def remember (r : Rule) : Script ε Unit := modify fun w => { w with console := ⟨some r⟩ }

section
variable (w : Work)

@[simp] theorem runFrom_bind (s : Script ε α) (f : α → Script ε β) :
    (s >>= f).runFrom w = match s.runFrom w with
      | (.ok a, w') => (f a).runFrom w'
      | (.error e, w') => (.error e, w') := by
  simp only [runFrom, bind, ExceptT.run, ExceptT.bind, ExceptT.mk, StateT.bind, StateT.run]
  cases s w with
  | mk result w' => cases result <;> rfl

@[simp] theorem runFrom_pure (a : α) : (pure a : Script ε α).runFrom w = (.ok a, w) := rfl

@[simp] theorem runFrom_get : (get : Script ε Work).runFrom w = (.ok w, w) := rfl

@[simp] theorem runFrom_attempt_ok {δ : Type} (wrap : δ → ε) (a : α) :
    (attempt wrap (.ok a)).runFrom w = (.ok a, w) := rfl

@[simp] theorem runFrom_attempt_error {δ : Type} (wrap : δ → ε) (e : δ) :
    (attempt wrap (.error e) : Script ε α).runFrom w = (.error (wrap e), w) := rfl

@[simp] theorem runFrom_caught {δ : Type} (s : Script ε α) :
    (caught s : Script δ _).runFrom w = (.ok (s.runFrom w).1, (s.runFrom w).2) := rfl

@[simp] theorem runFrom_print (text : String) : (print text : Script ε Unit).runFrom w =
    (.ok (), { w with stdout := w.stdout ++ (text ++ "\n") }) := rfl

@[simp] theorem runFrom_warn (text : String) : (warn text : Script ε Unit).runFrom w =
    (.ok (), { w with stderr := w.stderr ++ text }) := rfl

@[simp] theorem runFrom_log (events : List Event) : (log events : Script ε Unit).runFrom w =
    (.ok (), { w with events := w.events ++ events }) := rfl

@[simp] theorem runFrom_remember (r : Rule) : (remember r : Script ε Unit).runFrom w =
    (.ok (), { w with console := ⟨some r⟩ }) := rfl

end

/-! ## Commands -/

def tokenize (text : String) : Script Error Unit := do
  let lexemes ← attempt .lex (Lexeme.ofText text)
  print (Token.structureList (lexemes.map Lexeme.token))

def parse (text : String) : Script Error Unit := do
  let t ← attempt id (Term.parse text)
  print t.text
  print t.structureText

def setRule (text : String) : Script Error Unit := do
  let r ← attempt id (Rule.parse text)
  print r.text
  remember r

def matchTerms (text : String) : Script Error Unit := do
  let r ← attempt id (Rule.parse text)
  let (tried, found) := r.head.tryMatch r.body
  log [tried]
  match found with
  | some b => print b.text
  | none => print "no match"

def apply (text : String) : Script Error Unit := do
  let w ← get
  match w.console.rule with
  | none => warn "No rule yet, set one with :rule head = body\n"
  | some r => do
    let t ← attempt id (Term.parse text)
    let pass := r.pass t
    log pass.events
    let u ← attempt .substitution pass.outcome
    print u.text

def showHelp : Script ε Unit := print helpText

def perform : Command → (text : String) → Script Error Unit
  | .tokenize, text => tokenize text
  | .parse, text => parse text
  | .rule, text => setRule text
  | .matchTerms, text => matchTerms text
  | .apply, text => apply text
  | .help, _ => showHelp
  | .unknown word, _ => do
    warn ("Unknown command " ++ word ++ "\n")
    showHelp

def handle (line : String) : Script Error Unit :=
  let (word, text) := splitCommand line
  perform (.ofWord word) text

/-- Answers a line. The report of an error is written by `draw`. -/
def evaluate (draw : String → Except ε Unit) (line : String) : Script ε Unit := do
  if allBlank line then return
  match ← caught (handle line) with
  | .ok () => return
  | .error e =>
    match Report.ofError? e with
    | some report => do
      attempt id (draw (report.draw line))
      warn (report.draw line)
    | none => warn ("Error: " ++ e.message ++ "\n")

end Script

/-! ## What the steps come to -/

namespace Reply

def result : Reply → Except Error Unit
  | failed e => .error e
  | _ => .ok ()

/-- The part of a reply to standard error that is no error. -/
def remark : Reply → String
  | failed _ => ""
  | r => r.stderr ""

theorem result_eq_error_iff {r : Reply} {e : Error} : r.result = .error e ↔ r = .failed e := by
  cases r <;> simp [result]

@[simp] theorem remark_noRule :
    noRule.remark = "No rule yet, set one with :rule head = body\n" := rfl

@[simp] theorem remark_unknownCommand (word : String) :
    (unknownCommand word).remark = "Unknown command " ++ word ++ "\n" := rfl

@[simp] theorem remark_eq_empty {r : Reply} (hrule : r ≠ noRule)
    (hword : ∀ word, r ≠ unknownCommand word) : r.remark = "" := by
  cases r with
  | noRule => exact absurd rfl hrule
  | unknownCommand word => exact absurd rfl (hword word)
  | _ => rfl

@[simp] theorem stderr_failed (line : String) (e : Error) :
    (failed e).stderr line = errorText line e := rfl

theorem stderr_of_result {r : Reply} (h : r.result = .ok ()) (line : String) :
    r.stderr line = r.remark := by
  cases r with
  | failed e => cases h
  | _ => rfl

end Reply

/-- The work after what came of a line, apart from an error. -/
def Work.add (w : Work) (o : Outcome) : Work :=
  ⟨o.console, w.stdout ++ o.reply.stdout, w.stderr ++ o.reply.remark, w.events ++ o.events⟩

@[simp] theorem Console.reply_keep (c : Console) (r : Reply) : (c.keep r).reply = r := rfl

@[simp] theorem Work.console_start (c : Console) : (start c).console = c := rfl

@[simp] theorem Work.start_add (c : Console) (o : Outcome) :
    (start c).add o = ⟨o.console, o.reply.stdout, o.reply.remark, o.events⟩ := by
  simp [start, add]

@[simp] theorem Work.add_keep (w : Work) (r : Reply) : w.add (w.console.keep r) =
    { w with stdout := w.stdout ++ r.stdout, stderr := w.stderr ++ r.remark } := by
  simp [add, Console.keep]

namespace Script

section
variable (w : Work) (text : String)

theorem runFrom_tokenize : (tokenize text).runFrom w =
    ((Console.tokenize text).result, w.add (w.console.keep (Console.tokenize text))) := by
  rw [tokenize, Console.tokenize]
  cases Lexeme.ofText text with
  | error e => simp [Reply.result, Reply.stdout]
  | ok lexemes => simp [Reply.result, Reply.stdout]

theorem runFrom_parse : (parse text).runFrom w =
    ((Console.parse text).result, w.add (w.console.keep (Console.parse text))) := by
  rw [parse, Console.parse]
  cases Term.parse text with
  | error e => simp [Reply.result, Reply.stdout]
  | ok t => simp [Reply.result, Reply.stdout, String.append_assoc]

theorem runFrom_setRule : (setRule text).runFrom w =
    ((w.console.setRule text).reply.result, w.add (w.console.setRule text)) := by
  rw [setRule, Console.setRule]
  cases Rule.parse text with
  | error e => simp [Reply.result, Reply.stdout]
  | ok r => simp [Work.add, Reply.result, Reply.stdout]

theorem runFrom_matchTerms : (matchTerms text).runFrom w =
    ((w.console.matchTerms text).reply.result, w.add (w.console.matchTerms text)) := by
  rw [matchTerms, Console.matchTerms]
  cases Rule.parse text with
  | error e => simp [Reply.result, Reply.stdout]
  | ok r =>
    cases hb : r.head.match? r.body with
    | some b => simp [Term.tryMatch, hb, Work.add, Reply.result, Reply.stdout]
    | none => simp [Term.tryMatch, hb, Work.add, Reply.result, Reply.stdout]

theorem runFrom_apply : (apply text).runFrom w =
    ((w.console.apply text).reply.result, w.add (w.console.apply text)) := by
  rw [apply, Console.apply]
  cases hrule : w.console.rule with
  | none => simp [hrule, Reply.result, Reply.stdout]
  | some r =>
    cases ht : Term.parse text with
    | error e => simp [hrule, Reply.result, Reply.stdout]
    | ok t =>
      -- The pass has logged its events before it is known whether it gives a term.
      cases hp : (r.pass t).outcome with
      | error e =>
        simp [hrule, hp, Console.passReply, Work.add, Reply.result, Reply.stdout]
      | ok u =>
        simp [hrule, hp, Console.passReply, Work.add, Reply.result, Reply.stdout]

theorem runFrom_perform (command : Command) : (perform command text).runFrom w =
    ((w.console.perform command text).reply.result, w.add (w.console.perform command text)) := by
  cases command with
  | tokenize => exact runFrom_tokenize w text
  | parse => exact runFrom_parse w text
  | rule => exact runFrom_setRule w text
  | matchTerms => exact runFrom_matchTerms w text
  | apply => exact runFrom_apply w text
  | help =>
    simp [perform, showHelp, Console.perform, Reply.result, Reply.stdout]
  | unknown word =>
    simp [perform, showHelp, Console.perform, Reply.result, Reply.stdout]

end

/-- What a line asks for is done as its reply says. -/
theorem runFrom_handle (w : Work) {line : String} (h : allBlank line = false) :
    (handle line).runFrom w =
      ((w.console.evaluate line).reply.result, w.add (w.console.evaluate line)) := by
  rw [Console.evaluate_of_not_allBlank h]
  exact runFrom_perform w _ _

end Script

/-- Answers a line with the steps of a script, and gives what they come to with what was written. -/
def Console.answer {ε : Type} (draw : String → Except ε Unit) (c : Console) (line : String) :
    Except ε Unit × Work :=
  (Script.evaluate draw line).runFrom (.start c)

/-- The answers to some lines, one after the other. A failed answer does not keep the console from
answering the next line. -/
def Console.answers {ε : Type} (draw : String → Except ε Unit) :
    Console → (lines : List String) → List (Except ε Unit × Work)
  | _, [] => []
  | c, line :: lines =>
    let a := c.answer draw line
    a :: a.2.console.answers draw lines

/-- Whether the reply to `line` gets through; only the report of an error can be refused. -/
def Reply.deliver {ε : Type} (draw : String → Except ε Unit) (line : String) :
    Reply → Except ε Unit
  | failed e =>
    match Report.ofError? e with
    | some report => draw (report.draw line)
    | none => .ok ()
  | _ => .ok ()

theorem Reply.deliver_of_result {ε : Type} {r : Reply} (h : r.result = .ok ())
    (draw : String → Except ε Unit) (line : String) : r.deliver draw line = .ok () := by
  cases r with
  | failed e => cases h
  | _ => rfl

theorem Reply.deliver_eq_ok {ε : Type} {draw : String → Except ε Unit}
    (hdraw : ∀ text, draw text = .ok ()) (line : String) (r : Reply) :
    r.deliver draw line = .ok () := by
  cases r with
  | failed e =>
    rw [deliver]
    cases Report.ofError? e with
    | some report => exact hdraw _
    | none => rfl
  | _ => rfl

/-- What is left of a line whose reply got through. -/
def Work.ofOutcome (line : String) (o : Outcome) : Work :=
  ⟨o.console, o.reply.stdout, o.reply.stderr line, o.events⟩

/-- An answer does what the reply to the line says. It fails if the reply does not get through; then
the report is all that is missing. -/
theorem Console.answer_eq {ε : Type} (draw : String → Except ε Unit) (c : Console)
    (line : String) :
    c.answer draw line = match (c.evaluate line).reply.deliver draw line with
      | .ok () => (.ok (), .ofOutcome line (c.evaluate line))
      | .error e => (.error e, { Work.ofOutcome line (c.evaluate line) with stderr := "" }) := by
  rw [answer, Script.evaluate]
  cases hb : allBlank line with
  | true =>
    rw [evaluate_of_allBlank hb]
    rfl
  | false =>
    have hhandle := Script.runFrom_handle (.start c) hb
    rw [Work.start_add, Work.console_start] at hhandle
    cases hr : (c.evaluate line).reply.result with
    | ok u =>
      rw [hr] at hhandle
      simp [hhandle, Reply.stderr_of_result hr, Reply.deliver_of_result hr, Work.ofOutcome]
    | error e =>
      rw [hr] at hhandle
      have hreply := Reply.result_eq_error_iff.mp hr
      cases he : Report.ofError? e with
      | some report =>
        cases hd : draw (report.draw line) with
        | ok u =>
          simp [hhandle, he, hd, hreply, Work.ofOutcome, Reply.deliver, Reply.errorText]
        | error e' => simp [hhandle, he, hd, hreply, Work.ofOutcome, Reply.deliver]
      | none => simp [hhandle, he, hreply, Work.ofOutcome, Reply.deliver, Reply.errorText]

/-- With a writer that never fails no answer does. -/
theorem Console.answers_eq_ok {ε : Type} {draw : String → Except ε Unit}
    (hdraw : ∀ text, draw text = .ok ()) : ∀ (lines : List String) (c : Console),
    ∀ a ∈ c.answers draw lines, a.1 = .ok ()
  | [], _ => by simp [answers]
  | line :: lines, c => by
    refine List.forall_mem_cons.mpr ⟨?_, answers_eq_ok hdraw lines _⟩
    simp only [answer_eq, Reply.deliver_eq_ok hdraw]

/-- An answer that does not fail does all that the reply says. -/
theorem Console.answer_of_ok {ε : Type} {draw : String → Except ε Unit} {c : Console}
    {line : String} (h : (c.answer draw line).1 = .ok ()) :
    c.answer draw line = (.ok (), .ofOutcome line (c.evaluate line)) := by
  rw [answer_eq] at h ⊢
  cases hd : (c.evaluate line).reply.deliver draw line with
  | ok u => rfl
  | error e =>
    rw [hd] at h
    cases h

end TermRewriting
