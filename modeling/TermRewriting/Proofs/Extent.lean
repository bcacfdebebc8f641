import TermRewriting.Proofs.Culprit
import TermRewriting.Proofs.Respacing

/-!
# How far a report reaches

A report is drawn over a whole line, with a place that was counted in the text of the line's
command. The text is the end of the line, so a place in the text is a place in the line as well, if
not the right one. There is one error whose place is not in the text: a text of blanks is refused at
its end, and the place of an error in the lexer always takes up one character, also where none is
left.

A blank line is not handed to a command. So behind a blank text there was more in the line than the
text, and what was in front begins with a colon. The colon makes up for the missing character.

Results:
* `Lexeme.within_of_ofText`: the tokens of a text lie in the text.
* `Lexeme.place_of_ofText_error`: the place of an error in the lexer.
* `Command.Failure.within_or_atEnd`: the place of an error, in the text of the command.
* `Console.colon_of_blank_text`: where a text of blanks can come from.
* `report_within_line`: the place of a report, in its line.
-/
namespace TermRewriting

open Text

/-! ## Places in a text -/

/-- The place begins before it ends, and lies in the first `n` characters. -/
def Span.Within (s : Span) (n : Nat) : Prop := s.start ≤ s.stop ∧ s.stop ≤ n

theorem Span.Within.mono {s : Span} {m n : Nat} (h : s.Within m) (hmn : m ≤ n) : s.Within n :=
  ⟨h.1, Nat.le_trans h.2 hmn⟩

namespace Lexeme

theorem within_of_ofText {text : String} {ls : List Lexeme} (h : ofText text = .ok ls) {l : Lexeme}
    (hl : l ∈ ls) : l.span.Within text.length := by
  obtain ⟨ms, hms, -, rfl⟩ := ofText_eq_ok_iff.mp h
  rcases List.mem_append.mp hl with hmem | hmem
  · have hinside := ((scan_eq_ok_iff_tiling text.toList 0 ms).mp hms).inside l hmem
    rw [String.length_toList] at hinside
    exact ⟨Nat.le_of_lt hinside.2.1, hinside.2.2⟩
  · rw [List.mem_singleton.mp hmem]
    exact ⟨Nat.le_refl _, Nat.le_refl _⟩

/-- The lexer refuses a text at a character of it, or a text of blanks at its end. -/
theorem place_of_ofText_error {text : String} {e : LexError} (h : ofText text = .error e) :
    e.found ≠ none ∧ e.span.Within text.length ∨
      allBlank text = true ∧ e = ⟨none, text.length⟩ := by
  rcases ofText_eq_error_iff.mp h with hscan | ⟨hscan, -, rfl⟩
  · left
    obtain ⟨before, c, after, htext, -, -, rfl⟩ := (scan_eq_error_iff _ _ _).mp hscan
    have hlen := congrArg List.length htext
    rw [String.length_toList, List.length_append, List.length_cons] at hlen
    refine ⟨by simp, ?_⟩
    simp only [Span.Within, LexError.span]
    omega
  · right
    exact ⟨List.all_eq_true.mpr ((scan_eq_nil_iff _).mp hscan), rfl⟩

end Lexeme

/-! ## Places of errors -/

/-- A command fails at a place in its text, or behind a text of blanks. -/
theorem Command.Failure.within_or_atEnd {command : Command} {text : String} {e : Error}
    (h : command.Failure text e) {r : Report} (hr : Report.ofError? e = some r) :
    r.span.Within text.length ∧ (∀ p, e ≠ .lex ⟨none, p⟩) ∨
      allBlank text = true ∧ e = .lex ⟨none, text.length⟩ := by
  cases h with
  | lex refused =>
    cases hr
    rcases Lexeme.place_of_ofText_error refused with ⟨hfound, hwithin⟩ | ⟨hblank, rfl⟩
    · refine Or.inl ⟨hwithin, fun p hp => hfound ?_⟩
      cases hp
      rfl
    · exact Or.inr ⟨hblank, rfl⟩
  | @parse ls e tokens located =>
    cases hr
    -- There is always the end marker among the tokens.
    have hne : ls ≠ [] := by
      obtain ⟨ms, -, -, rfl⟩ := Lexeme.ofText_eq_ok_iff.mp tokens
      simp
    obtain ⟨l, hl, hspan⟩ := located.span_mem hne
    refine Or.inl ⟨?_, fun p hp => by cases hp⟩
    show e.span.Within text.length
    rw [hspan]
    exact Lexeme.within_of_ofText tokens hl
  | substitution e => cases hr

theorem splitCommand_length_le (line : String) : (splitCommand line).2.length ≤ line.length := by
  have h := (splitCommand_suffix line).length_le
  rwa [String.length_toList, String.length_toList] at h

theorem splitCommand_length_lt {line : String} (h : line.toList.head? = some ':') :
    (splitCommand line).2.length < line.length := by
  have hpos := (textOffset_pos_iff line).mpr h
  rw [textOffset] at hpos
  omega

/-- A line that is answered with an error is not blank, so a text of blanks is not the whole line.
-/
theorem Console.colon_of_blank_text {c : Console} {line : String} {e : Error}
    (he : (c.evaluate line).reply = .failed e) (hblank : allBlank (splitCommand line).2 = true) :
    line.toList.head? = some ':' := by
  refine Classical.byContradiction fun hcolon => ?_
  rw [splitCommand_of_no_colon hcolon] at hblank
  rw [evaluate_of_allBlank hblank] at he
  cases he

/-- **Reports stay in their line.** If a line is answered with an error that has a place, a report
is drawn, and its place lies in the line. An error in the lexer takes up the place of one character.
If it is about the end of the text, it has the place behind the text of the command, and the line
begins with a colon. An error in the reader has the place of its token. -/
theorem report_within_line {c : Console} {line : String} {e : Error}
    (he : (c.evaluate line).reply = .failed e) (hplace : ∀ s, e ≠ .substitution s) :
    ∃ r, Report.ofError? e = some r ∧ (c.evaluate line).reply.stderr line = r.draw line ∧
      r.span.start ≤ r.span.stop ∧ r.span.stop ≤ line.length ∧
      (∀ e', e = .lex e' → r.span = ⟨e'.position, e'.position + 1⟩) ∧
      (∀ e', e = .lex e' → e'.found = none →
        line.toList.head? = some ':' ∧ e'.position = (splitCommand line).2.length) ∧
      ∀ e', e = .parse e' → r.span = e'.span := by
  obtain ⟨r, hr⟩ := Option.isSome_iff_exists.mp ((Report.ofError?_isSome e).mpr hplace)
  have hdrawn : (c.evaluate line).reply.stderr line = r.draw line := by
    rw [he]
    show Reply.errorText line e = _
    rw [Reply.errorText, hr]
  have hlex : ∀ e', e = .lex e' → r.span = ⟨e'.position, e'.position + 1⟩ := by
    rintro e' rfl
    cases hr
    rfl
  have hparse : ∀ e', e = .parse e' → r.span = e'.span := by
    rintro e' rfl
    cases hr
    rfl
  have hle := splitCommand_length_le line
  refine ⟨r, hr, hdrawn, ?_⟩
  rcases (Console.failure_of_evaluate he).within_or_atEnd hr with ⟨hwithin, hfound⟩ | ⟨hblank, rfl⟩
  · obtain ⟨hstart, hstop⟩ := hwithin.mono hle
    refine ⟨hstart, hstop, hlex, ?_, hparse⟩
    rintro ⟨found, position⟩ rfl hnone
    cases hnone
    exact absurd rfl (hfound position)
  · have hcolon := Console.colon_of_blank_text he hblank
    have hlt := splitCommand_length_lt hcolon
    have hspan := hlex _ rfl
    refine ⟨?_, ?_, hlex, ?_, hparse⟩
    · rw [hspan]
      exact Nat.le_succ _
    · rw [hspan]
      exact hlt
    · rintro e' he' -
      cases he'
      exact ⟨hcolon, rfl⟩

/-- Behind `:to` and two spaces, of which one belongs to the command, there is a text of one blank;
the place of its error is the second character of the line, `t`. The error of `:p f(` is at the end
of its text. -/
theorem report_within_line_blank_text :
    let c : Console := .initial
    (∃ r, (c.evaluate ":to  ").reply = .failed (.lex ⟨none, 1⟩) ∧
      Report.ofError? (.lex ⟨none, 1⟩) = some r ∧
      (c.evaluate ":to  ").reply.stderr ":to  " = r.draw ":to  " ∧ r.span = ⟨1, 2⟩ ∧
      r.span.stop ≤ (":to  " : String).length ∧ (splitCommand ":to  ").2.length = 1) ∧
    ∃ e r, (c.evaluate ":p f(").reply = .failed (.parse e) ∧
      Report.ofError? (.parse e) = some r ∧ e.span = ⟨2, 2⟩ ∧ r.span = e.span ∧
      r.span.start ≤ r.span.stop ∧ r.span.stop ≤ (":p f(" : String).length := by
  intro c
  have hblank : (c.evaluate ":to  ").reply = .failed (.lex ⟨none, 1⟩) := by decide +kernel
  let e : ParseError := Reader.State.errorAt .endMarker ⟨.opened "f", []⟩ ⟨.endMarker, 2, 2⟩
  have htokens : Lexeme.ofText "f(" =
      .ok [⟨.symbol "f", 0, 1⟩, ⟨.leftParen, 1, 2⟩, ⟨.endMarker, 2, 2⟩] := by decide +kernel
  have hread : Term.ofLexemes [⟨.symbol "f", 0, 1⟩, ⟨.leftParen, 1, 2⟩, ⟨.endMarker, 2, 2⟩] =
      .error e := rfl
  have hopen : (c.evaluate ":p f(").reply = .failed (.parse e) := by
    have hword : splitCommand ":p f(" = ("p", "f(") := by decide +kernel
    have hcommand : Command.ofWord "p" = .parse := by decide +kernel
    have hparse : Term.parse "f(" = .error (.parse e) := by
      simp only [Term.parse, htokens, hread]
      rfl
    rw [Console.evaluate_of_not_allBlank (by decide +kernel), hword, hcommand]
    exact Console.parse_eq_failed_iff.mpr hparse
  obtain ⟨r, hr, hdrawn, -, hstop, hspan, hend, -⟩ := report_within_line hblank (by simp)
  obtain ⟨r', hr', -, hstart', hstop', -, -, hspan'⟩ := report_within_line hopen (by simp)
  obtain ⟨-, hlength⟩ := hend _ rfl rfl
  exact ⟨⟨r, hblank, hr, hdrawn, hspan _ rfl, hstop, hlength.symm⟩,
    _, r', hopen, hr', rfl, hspan' _ rfl, hstart', hstop'⟩

end TermRewriting
