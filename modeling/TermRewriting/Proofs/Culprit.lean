import TermRewriting.Console
import TermRewriting.Proofs.Strays
import TermRewriting.Proofs.Viability

/-!
# What a report points at

A command reads the text behind its word, and the place of an error is counted in that text. The
report of the error is drawn over the whole line. So if a command is named, what the error is about
stands further to the right than the place says, by as much as the line has in front of the text of the
command.

The text that an error is about is said without the reader: it is the character that belongs to no
token, or the first token with which no text of the command's grammar goes on.

Results:
* `Span.slice_shift`: a place behind a part of a text.
* `drop_textOffset`, `textOffset_pos_iff`: where in its line the text of a command begins.
* `Term.failure_of_parse`, `Rule.failure_of_parse`, `Console.failure_of_perform`: why a command fails.
* `Command.Failure.culprit`: the text at the place of an error is the text that the error is about.
* `report_points_behind_word`: where a report points in its line.
-/
namespace TermRewriting

open Text

/-! ## Places behind a part of a text -/

/-- The place with `n` more characters in front of it. -/
def Span.shift (s : Span) (n : Nat) : Span := ⟨n + s.start, n + s.stop⟩

theorem Span.slice_shift (s : Span) (n : Nat) (cs : List Char) :
    (s.shift n).slice cs = s.slice (cs.drop n) := by
  simp only [slice, shift, List.drop_drop, Nat.add_sub_add_left]

/-! ## The text of a command -/

/-- How many characters a line has in front of the text that its command works on. -/
def textOffset (line : String) : Nat := line.length - (splitCommand line).2.length

/-- Behind a colon it is at the end of what follows the colon. -/
theorem splitCommand_suffix_of_colon {line : String} {cs : List Char}
    (h : line.toList = ':' :: cs) : (splitCommand line).2.toList <:+ cs := by
  have hword : ((dropBlanks cs).dropWhile (· ≠ ' ')).drop 1 <:+ dropBlanks cs :=
    (List.drop_suffix 1 _).trans (List.dropWhile_suffix _)
  have hblanks : dropBlanks cs <:+ cs := List.dropWhile_suffix _
  rw [splitCommand_colon h, String.toList_ofList]
  exact hword.trans hblanks

theorem splitCommand_suffix (line : String) : (splitCommand line).2.toList <:+ line.toList := by
  by_cases hcolon : line.toList.head? = some ':'
  · obtain ⟨cs, hline⟩ := List.head?_eq_some_iff.mp hcolon
    rw [hline]
    exact (splitCommand_suffix_of_colon hline).trans (List.suffix_cons ':' cs)
  · exact ⟨[], by rw [splitCommand_of_no_colon hcolon, List.nil_append]⟩

theorem drop_textOffset (line : String) :
    line.toList.drop (textOffset line) = (splitCommand line).2.toList := by
  have hdrop := List.suffix_iff_eq_drop.mp (splitCommand_suffix line)
  rw [String.length_toList, String.length_toList] at hdrop
  exact hdrop.symm

/-- Only a line without a colon at its start is the text of its command as a whole. -/
theorem textOffset_pos_iff (line : String) :
    0 < textOffset line ↔ line.toList.head? = some ':' := by
  constructor
  · intro hpos
    refine Classical.byContradiction fun hcolon => ?_
    rw [textOffset, splitCommand_of_no_colon hcolon, Nat.sub_self] at hpos
    exact Nat.lt_irrefl 0 hpos
  · intro hcolon
    obtain ⟨cs, hline⟩ := List.head?_eq_some_iff.mp hcolon
    have hrest := (splitCommand_suffix_of_colon hline).length_le
    have hlen : line.toList.length = cs.length + 1 := by rw [hline, List.length_cons]
    rw [String.length_toList] at hrest hlen
    rw [textOffset]
    omega

theorem Span.slice_shift_textOffset (s : Span) (line : String) :
    (s.shift (textOffset line)).slice line.toList = s.slice (splitCommand line).2.toList := by
  rw [slice_shift, drop_textOffset]

/-! ## Why a command fails -/

/-- The texts that a command can read. -/
def Command.Grammatical : Command → List Token → Prop
  | parse | apply => Term.Grammatical
  | rule | matchTerms => Rule.Grammatical
  | tokenize | help | unknown _ => fun _ => True

/-- Why a command fails on a text: the text has no tokens, the command cannot read them, or a
substitution fails. -/
inductive Command.Failure (command : Command) (text : String) : Error → Prop
  | lex {e : LexError} (refused : Lexeme.ofText text = .error e) : Failure command text (.lex e)
  | parse {ls : List Lexeme} {e : ParseError} (tokens : Lexeme.ofText text = .ok ls)
      (located : Reader.Located command.Grammatical (Reader.lastSpan ls) ls e) :
      Failure command text (.parse e)
  | substitution (e : SubstitutionError) : Failure command text (.substitution e)

theorem Term.located_of_ofLexemes {ls : List Lexeme} {e : ParseError}
    (h : Term.ofLexemes ls = .error e) :
    Reader.Located Term.Grammatical (Reader.lastSpan ls) ls e := by
  rw [← funext fun xs => propext (Term.sentence_iff xs)]
  exact Reader.located_of_readAll (by decide) (Term.readAll_of_ofLexemes h)

theorem Rule.located_of_ofLexemes {ls : List Lexeme} {e : ParseError}
    (h : Rule.ofLexemes ls = .error e) :
    Reader.Located Rule.Grammatical (Reader.lastSpan ls) ls e := by
  rw [← funext fun xs => propext (Rule.sentence_iff xs)]
  exact Reader.located_of_readAll (by decide) (Rule.readAll_of_ofLexemes h)

section
variable {command : Command} {text : String} {e : Error}

/-- A text is read by way of its tokens. -/
theorem Command.Failure.of_read {α : Type} {read : List Lexeme → Except ParseError α}
    (hread : ∀ {ls e}, read ls = .error e →
      Reader.Located command.Grammatical (Reader.lastSpan ls) ls e)
    (h : (match Lexeme.ofText text with
      | .error e => .error (.lex e)
      | .ok ls => (read ls).mapError .parse) = Except.error e) : command.Failure text e := by
  cases htokens : Lexeme.ofText text with
  | error e' =>
    rw [htokens] at h
    cases h
    exact .lex htokens
  | ok ls =>
    simp only [htokens] at h
    cases hls : read ls with
    | error e' =>
      rw [hls] at h
      cases h
      exact .parse htokens (hread hls)
    | ok a =>
      rw [hls] at h
      cases h

theorem Term.failure_of_parse (hcommand : command.Grammatical = Term.Grammatical)
    (h : Term.parse text = .error e) : command.Failure text e :=
  .of_read (fun hls => hcommand ▸ Term.located_of_ofLexemes hls) h

theorem Rule.failure_of_parse (hcommand : command.Grammatical = Rule.Grammatical)
    (h : Rule.parse text = .error e) : command.Failure text e :=
  .of_read (fun hls => hcommand ▸ Rule.located_of_ofLexemes hls) h

namespace Console

theorem tokenize_eq_failed_iff :
    tokenize text = .failed e ↔ ∃ e', Lexeme.ofText text = .error e' ∧ e = .lex e' := by
  rw [tokenize]
  cases Lexeme.ofText text <;> simp [eq_comm]

theorem parse_eq_failed_iff : parse text = .failed e ↔ Term.parse text = .error e := by
  rw [parse]
  cases Term.parse text <;> simp

theorem setRule_eq_failed_iff {c : Console} :
    (c.setRule text).reply = .failed e ↔ Rule.parse text = .error e := by
  rw [setRule]
  cases Rule.parse text <;> simp [keep]

theorem matchTerms_eq_failed_iff {c : Console} :
    (c.matchTerms text).reply = .failed e ↔ Rule.parse text = .error e := by
  rw [matchTerms]
  cases Rule.parse text <;> simp [Term.tryMatch, keep]

theorem passReply_eq_failed_iff {pass : Traced Term} :
    passReply pass = .failed e ↔ ∃ e', pass.outcome = .error e' ∧ e = .substitution e' := by
  rw [passReply]
  cases pass.outcome <;> simp [eq_comm]

theorem failure_of_apply {c : Console} (h : (c.apply text).reply = .failed e) :
    Command.apply.Failure text e := by
  rw [apply] at h
  cases hrule : c.rule with
  | none =>
    rw [hrule] at h
    cases h
  | some r =>
    simp only [hrule] at h
    cases hread : Term.parse text with
    | error e' =>
      rw [hread] at h
      cases h
      exact Term.failure_of_parse rfl hread
    | ok t =>
      simp only [hread] at h
      obtain ⟨e', -, rfl⟩ := passReply_eq_failed_iff.mp h
      exact .substitution e'

theorem failure_of_perform {c : Console} (h : (c.perform command text).reply = .failed e) :
    command.Failure text e := by
  cases command with
  | tokenize =>
    obtain ⟨e', htokens, rfl⟩ := tokenize_eq_failed_iff.mp h
    exact .lex htokens
  | parse => exact Term.failure_of_parse rfl (parse_eq_failed_iff.mp h)
  | rule => exact Rule.failure_of_parse rfl (setRule_eq_failed_iff.mp h)
  | matchTerms => exact Rule.failure_of_parse rfl (matchTerms_eq_failed_iff.mp h)
  | apply => exact failure_of_apply h
  | help => cases h
  | unknown word => cases h

theorem failure_of_evaluate {c : Console} {line : String}
    (h : (c.evaluate line).reply = .failed e) :
    (Command.ofWord (splitCommand line).1).Failure (splitCommand line).2 e := by
  cases hblank : allBlank line with
  | true =>
    rw [evaluate_of_allBlank hblank] at h
    cases h
  | false =>
    rw [evaluate_of_not_allBlank hblank] at h
    exact failure_of_perform h

end Console

end

/-! ## The text in question -/

/-- The error is about the end of the text, where nothing stands. -/
def Error.AtEnd : Error → Prop
  | .lex e => e.found = none
  | .parse e => e.found = .endMarker
  | .substitution _ => False

/-- What an error is about, if it is not about the end of the text of its command: the character that
belongs to no token, or the text of the first token with which the command cannot go on. -/
inductive Culprit (command : Command) (text : String) : Error → List Char → Prop
  | stray (c : Char) (n : Nat) : Culprit command text (.lex ⟨some c, n⟩) [c]
  | unexpected {pre : List Lexeme} {l : Lexeme} {post : List Lexeme} {e : ParseError}
      (tokens : Lexeme.ofText text = .ok (pre ++ l :: post))
      (viable : Viable command.Grammatical (kinds pre))
      (stray : ¬ Viable command.Grammatical (kinds pre ++ [l.token.kind]))
      (found : e.found = l.token.kind) : Culprit command text (.parse e) l.token.text.toList

theorem FirstStray.slice_span {cs : List Char} {e : LexError} (h : FirstStray 0 cs e) :
    ∃ c, e.found = some c ∧ e.span.slice cs = [c] := by
  obtain ⟨before, c, after, rfl, -, -, rfl⟩ := h
  exact ⟨c, rfl, by simp [LexError.span, Span.slice]⟩

theorem Lexeme.slice_span_of_ofText {text : String} {ls : List Lexeme}
    (h : Lexeme.ofText text = .ok ls) {l : Lexeme} (hl : l ∈ ls)
    (hend : l.token.kind ≠ .endMarker) : l.span.slice text.toList = l.token.text.toList := by
  obtain ⟨ms, hms, -, rfl⟩ := ofText_eq_ok_iff.mp h
  have hmem : l ∈ ms := by
    rcases List.mem_append.mp hl with hmem | hmem
    · exact hmem
    · rw [List.mem_singleton.mp hmem] at hend
      exact absurd rfl hend
  exact (((scan_eq_ok_iff_tiling text.toList 0 ms).mp hms).written l hmem).2

theorem Command.Failure.culprit {command : Command} {text : String} {e : Error}
    (h : command.Failure text e) {r : Report} (hr : Report.ofError? e = some r)
    (hend : ¬ e.AtEnd) : Culprit command text e (r.span.slice text.toList) := by
  cases h with
  | @lex e refused =>
    cases hr
    rcases Lexeme.ofText_eq_error_iff.mp refused with hscan | ⟨-, -, rfl⟩
    · obtain ⟨found, position⟩ := e
      obtain ⟨c, hfound, hslice⟩ := ((Lexeme.scan_eq_error_iff _ _ _).mp hscan).slice_span
      cases hfound
      rw [hslice]
      exact .stray c position
    · exact absurd rfl hend
  | @parse ls e tokens located =>
    cases hr
    cases located with
    | stray pre l post split viable stray span found =>
      have hl : l.token.kind ≠ .endMarker := fun hkind => hend (found.trans hkind)
      have hslice := Lexeme.slice_span_of_ofText tokens (l := l) (by simp [split]) hl
      rw [split] at tokens
      rw [span, hslice]
      exact .unexpected tokens viable stray found
    | ended _ _ found => exact absurd found hend
  | substitution e => cases hr

/-- **Where reports point.** A report is drawn over the line as it was typed, but its place is counted
in the text that the command works on. That text is the end of the line. So what the report is about
stands in the line as many characters behind the place as there are in front of the text. If the line
begins with no colon there are none, and the report points at what it is about. Otherwise it points too
far to the left. -/
theorem report_points_behind_word {c : Console} {line : String} {e : Error} {r : Report}
    (he : (c.evaluate line).reply = .failed e) (hr : Report.ofError? e = some r) :
    (c.evaluate line).reply.stderr line = r.draw line ∧
    line.toList.drop (textOffset line) = (splitCommand line).2.toList ∧
    (0 < textOffset line ↔ line.toList.head? = some ':') ∧
    (¬ e.AtEnd → Culprit (.ofWord (splitCommand line).1) (splitCommand line).2 e
      ((r.span.shift (textOffset line)).slice line.toList)) ∧
    (¬ e.AtEnd → line.toList.head? ≠ some ':' →
      Culprit .apply line e (r.span.slice line.toList)) := by
  have hfailure := Console.failure_of_evaluate he
  refine ⟨?_, drop_textOffset line, textOffset_pos_iff line, fun hend => ?_,
    fun hend hcolon => ?_⟩
  · rw [he]
    show Reply.errorText line e = _
    rw [Reply.errorText, hr]
  · rw [Span.slice_shift_textOffset]
    exact hfailure.culprit hr hend
  · rw [splitCommand_of_no_colon hcolon] at hfailure
    exact hfailure.culprit hr hend

/-- The parenthesis that closes `f(a,)` too early stands in the line three characters behind the
place of the report. -/
theorem report_points_behind_word_parenthesis :
    let c : Console := .initial
    let line := ":p f(a,)"
    let e : Error := .parse ⟨⟨4, 5⟩, [.symbol], .rightParen⟩
    let r : Report := ⟨⟨4, 5⟩, "unexpected `)`, expected symbol", "`)`"⟩
    (c.evaluate line).reply = .failed e ∧ Report.ofError? e = some r ∧ ¬ e.AtEnd ∧
      (c.evaluate line).reply.stderr line = r.draw line ∧ textOffset line = 3 ∧
      (r.span.shift 3).slice line.toList = [')'] ∧ Culprit .parse "f(a,)" e [')'] := by
  intro c line e r
  have he : (c.evaluate line).reply = .failed e := by decide +kernel
  have hr : Report.ofError? e = some r := by decide
  have hend : ¬ e.AtEnd := by simp [e, Error.AtEnd]
  have hoffset : textOffset line = 3 := by decide +kernel
  have hslice : (r.span.shift 3).slice line.toList = [')'] := by decide +kernel
  have hword : splitCommand line = ("p", "f(a,)") := by decide +kernel
  obtain ⟨hstderr, -, -, hculprit, -⟩ := report_points_behind_word he hr
  have hculprit := hculprit hend
  rw [hoffset, hslice, hword] at hculprit
  exact ⟨he, hr, hend, hstderr, hoffset, hslice, hculprit⟩

/-- The place of a report does not point at what the report is about: in the line `:to _` it points at
the colon. -/
theorem not_report_points_at_place :
    ¬ ∀ (c : Console) (line : String) (e : Error) (r : Report),
      (c.evaluate line).reply = .failed e → Report.ofError? e = some r → ¬ e.AtEnd →
      Culprit (.ofWord (splitCommand line).1) (splitCommand line).2 e
        (r.span.slice line.toList) := by
  intro h
  have he : (Console.initial.evaluate ":to _").reply = .failed (.lex ⟨some '_', 0⟩) := by
    decide +kernel
  have hculprit := h .initial ":to _" _ _ he rfl (by simp [Error.AtEnd])
  have hslice : (LexError.span ⟨some '_', 0⟩).slice (":to _" : String).toList = [':'] := by
    decide +kernel
  simp only [hslice] at hculprit
  cases hculprit

end TermRewriting
