import TermRewriting.Proofs.Printing
import TermRewriting.Proofs.Viability

/-!
# Texts that differ in blanks

The reader decides by the tokens and only carries their spans along, so that reading commutes with
moving the spans (`Reader.SpanBlind`). Lists with the same tokens are the same numbered list with its
spans moved to different places. Hence they give the same tree, or errors that differ in the span
alone, and the two spans belong to the tokens with the same number.

Two texts with the same tokens are such lists, and they have the same characters apart from blanks.

Results:
* `Reader.run_move`: a run commutes with moving the spans.
* `Term.spanBlind`, `Rule.spanBlind`: so do the readers of terms and rules.
* `Reader.SpanBlind.sameOutcome`: what a reader gives for two lists with the same tokens.
* `Writes.nonblank_eq`: apart from blanks, a text is the texts of its tokens.
* `parse_of_same_tokens`: blanks do not matter to the parsing of terms and rules.
-/
namespace TermRewriting

open Text

/-! ## Moving the spans -/

def Lexeme.move (f : Span → Span) (l : Lexeme) : Lexeme := ⟨l.token, f l.span⟩

def ParseError.move (f : Span → Span) (e : ParseError) : ParseError := { e with span := f e.span }

section
variable (f : Span → Span)

@[simp] theorem Lexeme.token_move (l : Lexeme) : (l.move f).token = l.token := rfl

@[simp] theorem Lexeme.span_move (l : Lexeme) : (l.move f).span = f l.span := rfl

@[simp] theorem ParseError.span_move (e : ParseError) : (e.move f).span = f e.span := rfl

@[simp] theorem ParseError.expected_move (e : ParseError) : (e.move f).expected = e.expected := rfl

@[simp] theorem ParseError.found_move (e : ParseError) : (e.move f).found = e.found := rfl

namespace Reader

theorem lastSpan_move {ls : List Lexeme} (h : ls ≠ []) :
    lastSpan (ls.map (Lexeme.move f)) = f (lastSpan ls) := by
  simp [lastSpan, List.getLast?_eq_some_getLast h]

theorem run_move (stop : TokenKind) (last : Span) : ∀ (ls : List Lexeme) (s : State),
    run stop (f last) s (ls.map (Lexeme.move f)) =
      match run stop last s ls with
      | .ok (t, rest) => .ok (t, rest.map (Lexeme.move f))
      | .error e => .error (e.move f)
  | [], _ => rfl
  | l :: ls, s => by
    rw [List.map_cons, run, run, Lexeme.token_move]
    cases step stop s l.token with
    | next s' => exact run_move stop last ls s'
    | finished t => rfl
    | stuck => rfl

/-- Spans are only labels to `read`: it takes them along when they are moved, and its errors are at
spans that it was given. -/
structure SpanBlind {α : Type} (read : List Lexeme → Except ParseError α) : Prop where
  move : ∀ (f : Span → Span) (ls : List Lexeme), ls ≠ [] →
    read (ls.map (Lexeme.move f)) = (read ls).mapError (ParseError.move f)
  span_mem : ∀ (ls : List Lexeme) (e : ParseError), ls ≠ [] → read ls = .error e →
    ∃ l ∈ ls, e.span = l.span

theorem Located.span_mem {grammar : List Token → Prop} {ls : List Lexeme} {e : ParseError}
    (h : Located grammar (lastSpan ls) ls e) (hne : ls ≠ []) : ∃ l ∈ ls, e.span = l.span := by
  cases h with
  | stray pre l post split viable stray span found expected => exact ⟨l, by simp [split], span⟩
  | ended viable span found expected =>
    refine ⟨ls.getLast hne, List.getLast_mem hne, ?_⟩
    rw [span, lastSpan, List.getLast?_eq_some_getLast hne]

end Reader

end

theorem Term.spanBlind : Reader.SpanBlind Term.ofLexemes where
  move f ls hne := by
    rw [Term.ofLexemes, Term.ofLexemes, Reader.lastSpan_move f hne, Reader.run_move]
    cases Reader.run .endMarker (Reader.lastSpan ls) .initial ls <;> rfl
  span_mem ls e hne h :=
    (Reader.located_of_readAll (by decide) (Term.readAll_of_ofLexemes h)).span_mem hne

theorem Rule.spanBlind : Reader.SpanBlind Rule.ofLexemes where
  move f ls hne := by
    rw [Rule.ofLexemes, Rule.ofLexemes, Reader.lastSpan_move f hne, Reader.run_move]
    cases Reader.run .equals (Reader.lastSpan ls) .initial ls with
    | error e => rfl
    | ok p =>
      obtain ⟨head, rest⟩ := p
      simp only [Reader.run_move]
      cases Reader.run .endMarker (Reader.lastSpan ls) .initial rest <;> rfl
  span_mem ls e hne h :=
    (Reader.located_of_readAll (by decide) (Rule.readAll_of_ofLexemes h)).span_mem hne

/-! ## Numbered tokens -/

/-- The tokens, each with its number for a span. -/
def numbered (ts : List Token) : List Lexeme := ts.mapIdx fun i t => ⟨t, ⟨i, i⟩⟩

theorem getElem?_numbered (ts : List Token) (i : Nat) :
    (numbered ts)[i]? = ts[i]?.map fun t => ⟨t, ⟨i, i⟩⟩ := by
  simp [numbered]

theorem numbered_ne_nil {ts : List Token} (h : ts ≠ []) : numbered ts ≠ [] := by
  cases ts with
  | nil => exact absurd rfl h
  | cons t ts => simp [numbered]

/-- The span of the token with this number. -/
def spanOf (ls : List Lexeme) (number : Span) : Span :=
  (ls[number.start]?.map Lexeme.span).getD number

theorem spanOf_of_getElem? {ls : List Lexeme} {i : Nat} {l : Lexeme} (h : ls[i]? = some l) :
    spanOf ls ⟨i, i⟩ = l.span := by
  simp [spanOf, h]

/-- Every list is its numbered tokens, moved to where they stand. -/
theorem numbered_move (ls : List Lexeme) :
    (numbered (ls.map Lexeme.token)).map (Lexeme.move (spanOf ls)) = ls := by
  refine List.ext_getElem? fun i => ?_
  rw [List.getElem?_map, getElem?_numbered, List.getElem?_map]
  cases h : ls[i]? with
  | none => rfl
  | some l => simp [Lexeme.move, spanOf_of_getElem? h]

/-! ## Two lists with the same tokens -/

/-- The errors differ in the span alone, and the spans are those of the tokens with the same number,
the first in `ls` and the second in `ms`. -/
structure ParseError.AtSameToken (ls ms : List Lexeme) (e e' : ParseError) : Prop where
  found : e.found = e'.found
  expected : e.expected = e'.expected
  span : ∃ (i : Nat) (l m : Lexeme), ls[i]? = some l ∧ ms[i]? = some m ∧
    e.span = l.span ∧ e'.span = m.span

/-- The same value twice, or two errors that are related. -/
inductive SameOutcome {ε α : Type} (related : ε → ε → Prop) : Except ε α → Except ε α → Prop
  | ok (a : α) : SameOutcome related (.ok a) (.ok a)
  | error {e e' : ε} (h : related e e') : SameOutcome related (.error e) (.error e')

theorem SameOutcome.mapError {ε ε' α : Type} {related : ε → ε → Prop} {related' : ε' → ε' → Prop}
    {x y : Except ε α} {g : ε → ε'} (hg : ∀ e e', related e e' → related' (g e) (g e'))
    (h : SameOutcome related x y) : SameOutcome related' (x.mapError g) (y.mapError g) := by
  cases h with
  | ok a => exact .ok a
  | error h => exact .error (hg _ _ h)

/-- The same tokens are read in the same way wherever they stand, and an error is at the same one of
them. -/
theorem Reader.SpanBlind.sameOutcome {α : Type} {read : List Lexeme → Except ParseError α}
    (hread : Reader.SpanBlind read) {ls ms : List Lexeme}
    (h : ls.map Lexeme.token = ms.map Lexeme.token) (hne : ls ≠ []) :
    SameOutcome (ParseError.AtSameToken ls ms) (read ls) (read ms) := by
  have hns : numbered (ls.map Lexeme.token) ≠ [] := numbered_ne_nil (by simpa using hne)
  have hls := hread.move (spanOf ls) _ hns
  have hms := hread.move (spanOf ms) _ hns
  rw [numbered_move] at hls
  rw [h, numbered_move, ← h] at hms
  rw [hls, hms]
  cases hr : read (numbered (ls.map Lexeme.token)) with
  | ok a => exact .ok a
  | error e =>
    obtain ⟨n, hn, hspan⟩ := hread.span_mem _ e hns hr
    obtain ⟨i, hi⟩ := List.getElem?_of_mem hn
    rw [getElem?_numbered, Option.map_eq_some_iff] at hi
    obtain ⟨t, ht, rfl⟩ := hi
    have ht' := ht
    rw [List.getElem?_map, Option.map_eq_some_iff] at ht
    rw [h, List.getElem?_map, Option.map_eq_some_iff] at ht'
    obtain ⟨l, hl, -⟩ := ht
    obtain ⟨m, hm, -⟩ := ht'
    refine .error ⟨rfl, rfl, i, l, m, hl, hm, ?_, ?_⟩
    · rw [ParseError.span_move, hspan, spanOf_of_getElem? hl]
    · rw [ParseError.span_move, hspan, spanOf_of_getElem? hm]

/-! ## Two texts with the same tokens -/

def nonblank (cs : List Char) : List Char := cs.filter fun c => !isBlank c

theorem Writes.nonblank_eq {cs : List Char} {ts : List Token} (h : Writes cs ts) :
    nonblank cs = ts.flatMap fun t => t.text.toList := by
  induction h with
  | nil => rfl
  | blank hc _ ih => simpa [nonblank, hc] using ih
  | @punctuation c t cs ts hc _ ih =>
    rw [List.flatMap_cons, Token.text_of_ofPunctuation? hc, ← ih]
    simp [nonblank, (Token.ofPunctuation?_eq_some hc).1]
  | @name x cs ts hx _ _ ih =>
    have hall : nonblank x.toList = x.toList :=
      List.filter_eq_self.mpr fun c hc => by simp [isBlank_of_isAlphanumeric (hx.2 c hc)]
    rw [List.flatMap_cons, ← ih, nonblank, List.filter_append]
    exact congrArg (· ++ _) hall

/-- Errors of reading two texts, about the tokens with the same number. -/
inductive Error.AtSameToken (ls ms : List Lexeme) : Error → Error → Prop
  | parse {e e' : ParseError} (h : e.AtSameToken ls ms e') : Error.AtSameToken ls ms (.parse e) (.parse e')

/-- **Blanks do not matter.** Two texts with the same tokens have the same characters apart from
blanks, and are read as the same term, or rule, or not at all; then the errors differ in the span
alone, and the spans are those of the tokens with the same number. Any two lists with the same tokens
are read in this way, whatever their spans. -/
theorem parse_of_same_tokens :
    (∀ (s s' : String) (ls ms : List Lexeme), Lexeme.ofText s = .ok ls → Lexeme.ofText s' = .ok ms →
      ls.map Lexeme.token = ms.map Lexeme.token →
      nonblank s.toList = nonblank s'.toList ∧
        SameOutcome (Error.AtSameToken ls ms) (Term.parse s) (Term.parse s') ∧
        SameOutcome (Error.AtSameToken ls ms) (Rule.parse s) (Rule.parse s')) ∧
    ∀ ls ms : List Lexeme, ls.map Lexeme.token = ms.map Lexeme.token →
      (ls = [] ∧ ms = []) ∨
        SameOutcome (ParseError.AtSameToken ls ms) (Term.ofLexemes ls) (Term.ofLexemes ms) ∧
        SameOutcome (ParseError.AtSameToken ls ms) (Rule.ofLexemes ls) (Rule.ofLexemes ms) := by
  constructor
  · intro s s' ls ms hls hms h
    obtain ⟨ks, rfl, hks⟩ := Lexeme.writes_of_ofText hls
    obtain ⟨ks', rfl, hks'⟩ := Lexeme.writes_of_ofText hms
    have hts : ks.map Lexeme.token = ks'.map Lexeme.token := by
      simpa using congrArg List.dropLast h
    have hne : ks ++ [⟨.endMarker, s.length, s.length⟩] ≠ [] := by simp
    refine ⟨by rw [hks.nonblank_eq, hks'.nonblank_eq, hts], ?_, ?_⟩
    · simp only [Term.parse, hls, hms]
      exact (Term.spanBlind.sameOutcome h hne).mapError fun _ _ => .parse
    · simp only [Rule.parse, hls, hms]
      exact (Rule.spanBlind.sameOutcome h hne).mapError fun _ _ => .parse
  · intro ls ms h
    by_cases hne : ls = []
    · refine Or.inl ⟨hne, ?_⟩
      rw [hne] at h
      exact List.map_eq_nil_iff.mp h.symm
    · exact Or.inr ⟨Term.spanBlind.sameOutcome h hne, Rule.spanBlind.sameOutcome h hne⟩

/-- A list of arguments that breaks off behind a comma, written closely and widely; a term that can
be read, written in the same two ways; and the tokens of `a = b(`, which have no end marker, with
spans that do not even ascend. -/
theorem parse_of_same_tokens_spread :
    let s : String := "f(é,)"
    let s' : String := " f ( é\t,\n\n)"
    let ls : List Lexeme := [⟨.symbol "f", 0, 1⟩, ⟨.leftParen, 1, 2⟩, ⟨.symbol "é", 2, 3⟩,
      ⟨.comma, 3, 4⟩, ⟨.rightParen, 4, 5⟩, ⟨.endMarker, 5, 5⟩]
    let ms : List Lexeme := [⟨.symbol "f", 1, 2⟩, ⟨.leftParen, 3, 4⟩, ⟨.symbol "é", 5, 6⟩,
      ⟨.comma, 7, 8⟩, ⟨.rightParen, 10, 11⟩, ⟨.endMarker, 11, 11⟩]
    let u : String := "f(é)"
    let u' : String := " f (\té\n) "
    let us : List Lexeme := [⟨.symbol "f", 0, 1⟩, ⟨.leftParen, 1, 2⟩, ⟨.symbol "é", 2, 3⟩,
      ⟨.rightParen, 3, 4⟩, ⟨.endMarker, 4, 4⟩]
    let vs : List Lexeme := [⟨.symbol "f", 1, 2⟩, ⟨.leftParen, 3, 4⟩, ⟨.symbol "é", 5, 6⟩,
      ⟨.rightParen, 7, 8⟩, ⟨.endMarker, 9, 9⟩]
    let t : Term := .functor "f" [.symbol "é"]
    let ks : List Lexeme := [⟨.symbol "a", 0, 1⟩, ⟨.equals, 2, 3⟩, ⟨.symbol "b", 4, 5⟩,
      ⟨.leftParen, 5, 6⟩]
    let ks' : List Lexeme := [⟨.symbol "a", 7, 8⟩, ⟨.equals, 3, 3⟩, ⟨.symbol "b", 3, 3⟩,
      ⟨.leftParen, 9, 1⟩]
    (Lexeme.ofText s = .ok ls ∧ Lexeme.ofText s' = .ok ms ∧
      ls.map Lexeme.token = ms.map Lexeme.token ∧ ks.map Lexeme.token = ks'.map Lexeme.token) ∧
      (nonblank s.toList = nonblank s'.toList ∧
        SameOutcome (Error.AtSameToken ls ms) (Term.parse s) (Term.parse s') ∧
        SameOutcome (Error.AtSameToken ls ms) (Rule.parse s) (Rule.parse s')) ∧
      (Lexeme.ofText u = .ok us ∧ Lexeme.ofText u' = .ok vs ∧
        us.map Lexeme.token = vs.map Lexeme.token ∧
        SameOutcome (Error.AtSameToken us vs) (Term.parse u) (Term.parse u') ∧
        Term.parse u = .ok t ∧ Term.parse u' = .ok t) ∧
      ((ks = [] ∧ ks' = []) ∨
        SameOutcome (ParseError.AtSameToken ks ks') (Term.ofLexemes ks) (Term.ofLexemes ks') ∧
        SameOutcome (ParseError.AtSameToken ks ks') (Rule.ofLexemes ks) (Rule.ofLexemes ks')) ∧
      Term.parse s' = .error (.parse ⟨⟨10, 11⟩, [.symbol], .rightParen⟩) ∧
      Rule.ofLexemes ks' = .error ⟨⟨9, 1⟩, [.rightParen], .endMarker⟩ := by
  intro s s' ls ms u u' us vs t ks ks'
  obtain ⟨htexts, hlists⟩ := parse_of_same_tokens
  have hs : Lexeme.ofText s = .ok ls := by decide +kernel
  have hs' : Lexeme.ofText s' = .ok ms := by decide +kernel
  have hterm : Term.parse s' = .error (.parse ⟨⟨10, 11⟩, [.symbol], .rightParen⟩) := by
    decide +kernel
  have hu : Lexeme.ofText u = .ok us := by decide +kernel
  have hu' : Lexeme.ofText u' = .ok vs := by decide +kernel
  obtain ⟨-, hread, -⟩ := htexts u u' us vs hu hu' rfl
  have ht : Term.parse u = .ok t := by decide +kernel
  have ht' : Term.parse u' = .ok t := by decide +kernel
  have hrule : Rule.ofLexemes ks' = .error ⟨⟨9, 1⟩, [.rightParen], .endMarker⟩ := by cbv
  exact ⟨⟨hs, hs', rfl, rfl⟩, htexts s s' ls ms hs hs' rfl, ⟨hu, hu', rfl, hread, ht, ht'⟩,
    hlists ks ks' rfl, hterm, hrule⟩

end TermRewriting
