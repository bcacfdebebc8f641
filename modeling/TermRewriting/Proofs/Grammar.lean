import TermRewriting.Reader

/-!
# The written form of terms and rules

A term is written with a fixed list of tokens: a symbol with one, a functor with its name and, in
parentheses, its arguments with single commas between them. The reader accepts exactly these lists.

What the reader knows at any moment spells the tokens it has read (`Reader.State.spelled`), so it
accepts nothing else. In the other direction, the tokens of a term lead it from the start of a term
to the place behind that term, inside any argument lists that are open around it.

Results:
* `Reader.spelled_advance`: reading tokens adds them to what is spelled.
* `Reader.advance_tokens`: reading the tokens of a term leads behind the term.
* `Reader.run_eq_ok_iff`, `Reader.run_eq_error`: a run is some steps and one last one.
* `Reader.run_initial_eq_ok_iff`: what a run makes a term of.
* `ofLexemes_eq_ok_iff_tokens`: terms and rules are read from their written forms and no others.
-/
namespace TermRewriting

/-! ## Written forms -/

namespace Term

mutual

/-- The tokens a term is written with. -/
def tokens : Term → List Token
  | .symbol x => [.symbol x]
  | .functor f args => .symbol f :: .leftParen :: (argTokens args ++ [.rightParen])

/-- The tokens of an argument list: a comma stands between one argument and the next. -/
def argTokens : List Term → List Token
  | [] => []
  | [t] => t.tokens
  | t :: u :: ts => t.tokens ++ .comma :: argTokens (u :: ts)

end

theorem argTokens_concat (t : Term) : ∀ ts : List Term,
    argTokens (ts ++ [t]) = ts.flatMap (fun a => a.tokens ++ [.comma]) ++ t.tokens
  | [] => by simp [argTokens]
  | [a] => by simp [argTokens]
  | a :: b :: ts => by
    have ih := argTokens_concat t (b :: ts)
    simp only [List.cons_append] at ih
    simp [argTokens, ih]

theorem tokens_eq_cons (t : Term) : ∃ x ts, t.tokens = .symbol x :: ts := by
  cases t with
  | symbol x => exact ⟨x, [], by rw [tokens]⟩
  | functor f args => exact ⟨f, _, by rw [tokens]⟩

theorem tokens_ne_nil (t : Term) : t.tokens ≠ [] := by
  obtain ⟨x, ts, h⟩ := t.tokens_eq_cons
  simp [h]

theorem argTokens_eq_append (t : Term) (ts : List Term) :
    ∃ ys, argTokens (t :: ts) = t.tokens ++ ys := by
  cases ts with
  | nil => exact ⟨[], by rw [argTokens, List.append_nil]⟩
  | cons u ts => exact ⟨_, by rw [argTokens]⟩

end Term

namespace Reader

/-! ## What a state spells -/

def Frame.spelled (f : Frame) : List Token :=
  .symbol f.name :: .leftParen :: f.args.reverse.flatMap fun a => a.tokens ++ [.comma]

def Place.spelled : Place → List Token
  | .start => []
  | .opened f => [.symbol f, .leftParen]
  | .named x => [.symbol x]
  | .closed t => t.tokens

/-- The tokens that lead to a state: the open argument lists from the outside in, then the term that
is being read. -/
def State.spelled (s : State) : List Token :=
  s.outer.reverse.flatMap Frame.spelled ++ s.place.spelled

@[simp] theorem spelled_mk (p : Place) (outer : List Frame) :
    State.spelled ⟨p, outer⟩ = outer.reverse.flatMap Frame.spelled ++ p.spelled := rfl

theorem spelled_follow {stop : TokenKind} {t : Term} {outer : List Frame} {x : Token} {s : State}
    (h : follow stop t outer x = .next s) :
    s.spelled = outer.reverse.flatMap Frame.spelled ++ t.tokens ++ [x] := by
  cases outer with
  | nil =>
    rw [follow] at h
    split at h <;> cases h
  | cons f outer =>
    cases x with
    | comma =>
      cases h
      simp [Place.spelled, Frame.spelled]
    | rightParen =>
      cases h
      simp [Place.spelled, Frame.spelled, Term.tokens, Term.argTokens_concat]
    | _ => cases h

theorem spelled_step {stop : TokenKind} {s s' : State} {x : Token} (h : step stop s x = .next s') :
    s'.spelled = s.spelled ++ [x] := by
  obtain ⟨place, outer⟩ := s
  cases place with
  | start => cases x <;> cases h; simp [Place.spelled]
  | opened f =>
    cases x <;> cases h
    · simp [Place.spelled, Frame.spelled]
    · simp [Place.spelled, Term.tokens, Term.argTokens]
  | named n =>
    cases x with
    | leftParen => cases h; simp [Place.spelled]
    | _ => simpa [Place.spelled, Term.tokens] using spelled_follow h
  | closed t => simpa [Place.spelled] using spelled_follow h

theorem follow_finished {stop : TokenKind} {t u : Term} {outer : List Frame} {x : Token}
    (h : follow stop t outer x = .finished u) : outer = [] ∧ u = t ∧ x.kind = stop := by
  cases outer with
  | nil =>
    rw [follow] at h
    split at h
    · cases h; exact ⟨rfl, rfl, ‹_›⟩
    · cases h
  | cons f outer => cases x <;> cases h

theorem step_finished {stop : TokenKind} {s : State} {x : Token} {t : Term}
    (h : step stop s x = .finished t) : s.spelled = t.tokens ∧ x.kind = stop := by
  obtain ⟨place, outer⟩ := s
  cases place with
  | start => cases x <;> cases h
  | opened f => cases x <;> cases h
  | named n =>
    have hf : follow stop (.symbol n) outer x = .finished t := by
      cases x with
      | leftParen => cases h
      | _ => exact h
    obtain ⟨rfl, rfl, hx⟩ := follow_finished hf
    exact ⟨by simp [Place.spelled, Term.tokens], hx⟩
  | closed u =>
    obtain ⟨rfl, rfl, hx⟩ := follow_finished h
    exact ⟨by simp [Place.spelled], hx⟩

/-! ## Reading several tokens -/

/-- The state behind some tokens, if none of them is the last one of the text or out of place. -/
def advance (stop : TokenKind) : State → List Token → Option State
  | s, [] => some s
  | s, x :: xs =>
    match step stop s x with
    | .next s' => advance stop s' xs
    | .finished _ => none
    | .stuck => none

theorem advance_append (stop : TokenKind) (ys : List Token) : ∀ (xs : List Token) (s : State),
    advance stop s (xs ++ ys) = (advance stop s xs).bind fun s' => advance stop s' ys
  | [], _ => rfl
  | x :: xs, s => by
    rw [List.cons_append, advance, advance]
    cases step stop s x with
    | next s' => exact advance_append stop ys xs s'
    | finished t => rfl
    | stuck => rfl

theorem spelled_advance {stop : TokenKind} : ∀ {xs : List Token} {s s' : State},
    advance stop s xs = some s' → s'.spelled = s.spelled ++ xs
  | [], s, s', h => by
    cases h
    rw [List.append_nil]
  | x :: xs, s, s', h => by
    rw [advance] at h
    split at h
    · rename_i s1 hs
      rw [spelled_advance h, spelled_step hs, List.append_assoc, List.singleton_append]
    · cases h
    · cases h

/-- The place right behind a term. -/
def Place.behind : Term → Place
  | .symbol x => .named x
  | .functor f args => .closed (.functor f args)

theorem step_behind {x : Token} (hx : x ≠ .leftParen) (stop : TokenKind) (t : Term)
    (outer : List Frame) : step stop ⟨.behind t, outer⟩ x = follow stop t outer x := by
  cases t with
  | symbol n =>
    cases x with
    | leftParen => exact absurd rfl hx
    | _ => rfl
  | functor f args => rfl

/-- The first argument is read as any later one. -/
theorem advance_opened (stop : TokenKind) (f : String) (outer : List Frame) (t : Term)
    (ys : List Token) :
    advance stop ⟨.opened f, outer⟩ (t.tokens ++ ys) =
      advance stop ⟨.start, ⟨f, []⟩ :: outer⟩ (t.tokens ++ ys) := by
  obtain ⟨x, xs, hx⟩ := t.tokens_eq_cons
  rw [hx]
  rfl

/-- The tokens of arguments and a closing parenthesis lead behind the functor, if the tokens of each
argument lead behind it. -/
theorem advance_argTokens (stop : TokenKind) (f : String) (outer : List Frame) :
    ∀ (ts : List Term) (t : Term) (before : List Term),
      (∀ a ∈ t :: ts, ∀ outer, advance stop ⟨.start, outer⟩ a.tokens = some ⟨.behind a, outer⟩) →
      advance stop ⟨.start, ⟨f, before⟩ :: outer⟩ (Term.argTokens (t :: ts) ++ [.rightParen]) =
        some ⟨.closed (.functor f (before.reverse ++ t :: ts)), outer⟩
  | [], t, before, h => by
    rw [Term.argTokens, advance_append, h t List.mem_cons_self, Option.bind_some, advance,
      step_behind (by simp)]
    simp [follow, advance]
  | u :: ts, t, before, h => by
    have ih := advance_argTokens stop f outer ts u (t :: before)
      fun a ha => h a (List.mem_cons_of_mem _ ha)
    rw [Term.argTokens, List.append_assoc, advance_append, h t List.mem_cons_self,
      Option.bind_some, List.cons_append, advance, step_behind (by simp)]
    simpa [follow] using ih

theorem advance_tokens (stop : TokenKind) (t : Term) : ∀ outer : List Frame,
    advance stop ⟨.start, outer⟩ t.tokens = some ⟨.behind t, outer⟩ := by
  induction t with
  | symbol x => intro outer; rfl
  | functor f args ih =>
    intro outer
    have hopen : ∀ ys, advance stop ⟨.start, outer⟩ (.symbol f :: .leftParen :: ys) =
        advance stop ⟨.opened f, outer⟩ ys := fun ys => rfl
    rw [Term.tokens, hopen]
    cases args with
    | nil => rfl
    | cons a as =>
      have hargs := advance_argTokens stop f outer as a [] ih
      have hfirst : advance stop ⟨.opened f, outer⟩ (Term.argTokens (a :: as) ++ [.rightParen]) =
          advance stop ⟨.start, ⟨f, []⟩ :: outer⟩ (Term.argTokens (a :: as) ++ [.rightParen]) := by
        obtain ⟨ys, hys⟩ := Term.argTokens_eq_append a as
        rw [hys, List.append_assoc]
        exact advance_opened stop f outer a _
      rw [hfirst, hargs]
      rfl

/-! ## Runs -/

section
variable {stop : TokenKind} {last : Span}

theorem run_append {pre : List Lexeme} (post : List Lexeme) : ∀ {s s' : State},
    advance stop s (pre.map Lexeme.token) = some s' →
    run stop last s (pre ++ post) = run stop last s' post := by
  induction pre with
  | nil =>
    intro s s' h
    cases h
    rfl
  | cons l pre ih =>
    intro s s' h
    rw [List.map_cons, advance] at h
    cases hs : step stop s l.token with
    | next s1 =>
      rw [hs] at h
      rw [List.cons_append, run, hs]
      exact ih h
    | finished t => rw [hs] at h; cases h
    | stuck => rw [hs] at h; cases h

/-- A run that gives a term reads some tokens and then the one that ends the term. -/
theorem run_eq_ok_iff {t : Term} {rest : List Lexeme} : ∀ {ls : List Lexeme} {s : State},
    run stop last s ls = .ok (t, rest) ↔ ∃ pre l s', ls = pre ++ l :: rest ∧
      advance stop s (pre.map Lexeme.token) = some s' ∧ step stop s' l.token = .finished t := by
  intro ls
  induction ls with
  | nil =>
    intro s
    simp [run]
  | cons l ls ih =>
    intro s
    constructor
    · intro h
      rw [run] at h
      split at h
      · rename_i s1 hs
        obtain ⟨pre, l', s', rfl, hadv, hfin⟩ := ih.mp h
        exact ⟨l :: pre, l', s', rfl, by rw [List.map_cons, advance, hs]; exact hadv, hfin⟩
      · rename_i u hs
        cases h
        exact ⟨[], l, s, rfl, rfl, hs⟩
      · cases h
    · intro h
      obtain ⟨pre, l', s', hls, hadv, hfin⟩ := h
      rw [hls, run_append _ hadv, run, hfin]

/-- A run that fails either comes to the end of the tokens or to a token out of place. -/
theorem run_eq_error {e : ParseError} : ∀ {ls : List Lexeme} {s : State},
    run stop last s ls = .error e →
      (∃ s', advance stop s (ls.map Lexeme.token) = some s' ∧
        e = s'.errorAtEnd stop last) ∨
      ∃ pre l post s', ls = pre ++ l :: post ∧
        advance stop s (pre.map Lexeme.token) = some s' ∧ step stop s' l.token = .stuck ∧
        e = s'.errorAt stop l := by
  intro ls
  induction ls with
  | nil =>
    intro s h
    cases h
    exact Or.inl ⟨s, rfl, rfl⟩
  | cons l ls ih =>
    intro s h
    rw [run] at h
    split at h
    · rename_i s1 hs
      have hadv : ∀ xs, advance stop s (l.token :: xs) = advance stop s1 xs := by
        intro xs
        rw [advance, hs]
      rcases ih h with ⟨s', h1, h2⟩ | ⟨pre, l', post, s', rfl, h1, h2⟩
      · exact Or.inl ⟨s', by rw [List.map_cons, hadv, h1], h2⟩
      · exact Or.inr ⟨l :: pre, l', post, s', rfl, by rw [List.map_cons, hadv, h1], h2⟩
    · cases h
    · rename_i hs
      cases h
      exact Or.inr ⟨[], l, ls, s, rfl, rfl, hs, rfl⟩

/-- A run from the start makes a term of its tokens and of nothing else, and needs a stop behind
them. -/
theorem run_initial_eq_ok_iff (hstop : stop ≠ .leftParen) {t : Term} {ls rest : List Lexeme} :
    run stop last .initial ls = .ok (t, rest) ↔ ∃ pre l, ls = pre ++ l :: rest ∧
      pre.map Lexeme.token = t.tokens ∧ l.token.kind = stop := by
  rw [run_eq_ok_iff]
  constructor
  · intro h
    obtain ⟨pre, l, s, hls, hadv, hfin⟩ := h
    obtain ⟨hs, hl⟩ := step_finished hfin
    have hspell := spelled_advance hadv
    rw [hs] at hspell
    exact ⟨pre, l, hls, hspell.symm, hl⟩
  · intro h
    obtain ⟨pre, l, hls, hpre, hl⟩ := h
    refine ⟨pre, l, ⟨.behind t, []⟩, hls, by rw [hpre]; exact advance_tokens stop t [], ?_⟩
    have hne : l.token ≠ .leftParen := by
      intro e
      rw [e] at hl
      exact hstop hl.symm
    rw [step_behind hne, follow, if_pos hl]

end

end Reader

/-! ## What terms and rules are read from -/

theorem Token.kind_eq_endMarker {x : Token} : x.kind = .endMarker ↔ x = .endMarker := by
  cases x <;> simp [Token.kind]

theorem Token.kind_eq_equals {x : Token} : x.kind = .equals ↔ x = .equals := by
  cases x <;> simp [Token.kind]

theorem Term.ofLexemes_eq_ok_iff {ls : List Lexeme} {t : Term} :
    Term.ofLexemes ls = .ok t ↔ ∃ pre l rest, ls = pre ++ l :: rest ∧
      pre.map Lexeme.token = t.tokens ∧ l.token = .endMarker := by
  simp only [← Token.kind_eq_endMarker]
  constructor
  · intro h
    rw [Term.ofLexemes] at h
    split at h
    · cases h
    · rename_i u rest hr
      cases h
      obtain ⟨pre, l, h1, h2, h3⟩ := (Reader.run_initial_eq_ok_iff (by simp)).mp hr
      exact ⟨pre, l, rest, h1, h2, h3⟩
  · intro h
    obtain ⟨pre, l, rest, h1, h2, h3⟩ := h
    rw [Term.ofLexemes, (Reader.run_initial_eq_ok_iff (by simp)).mpr ⟨pre, l, h1, h2, h3⟩]

theorem Rule.ofLexemes_eq_ok_iff {ls : List Lexeme} {h b : Term} :
    Rule.ofLexemes ls = .ok ⟨h, b⟩ ↔ ∃ pre m mid l rest, ls = pre ++ m :: (mid ++ l :: rest) ∧
      pre.map Lexeme.token = h.tokens ∧ m.token = .equals ∧
      mid.map Lexeme.token = b.tokens ∧ l.token = .endMarker := by
  simp only [← Token.kind_eq_endMarker, ← Token.kind_eq_equals]
  constructor
  · intro hr
    rw [Rule.ofLexemes] at hr
    split at hr
    · cases hr
    · rename_i u rest hh
      split at hr
      · cases hr
      · rename_i v rest' hb
        cases hr
        obtain ⟨pre, m, rfl, h1, h2⟩ := (Reader.run_initial_eq_ok_iff (by simp)).mp hh
        obtain ⟨mid, l, rfl, h3, h4⟩ := (Reader.run_initial_eq_ok_iff (by simp)).mp hb
        exact ⟨pre, m, mid, l, rest', rfl, h1, h2, h3, h4⟩
  · intro hr
    obtain ⟨pre, m, mid, l, rest, hls, h1, h2, h3, h4⟩ := hr
    rw [Rule.ofLexemes, (Reader.run_initial_eq_ok_iff (by simp)).mpr ⟨pre, m, hls, h1, h2⟩]
    simp only [(Reader.run_initial_eq_ok_iff (by simp)).mpr ⟨mid, l, rfl, h3, h4⟩]

/-- **Reading inverts writing.** Tokens are read as a term exactly if they are the term's written
form and an end marker, with anything behind it; they are read as a rule exactly if they are the
written forms of its sides with an equals sign between them, and an end marker. -/
theorem ofLexemes_eq_ok_iff_tokens (ls : List Lexeme) :
    (∀ t : Term, Term.ofLexemes ls = .ok t ↔
      ∃ rest, ls.map Lexeme.token = t.tokens ++ .endMarker :: rest) ∧
    (∀ h b : Term, Rule.ofLexemes ls = .ok ⟨h, b⟩ ↔
      ∃ rest, ls.map Lexeme.token = h.tokens ++ .equals :: (b.tokens ++ .endMarker :: rest)) := by
  refine ⟨fun t => ?_, fun h b => ?_⟩
  · rw [Term.ofLexemes_eq_ok_iff]
    constructor
    · intro ht
      obtain ⟨pre, l, rest, rfl, h1, h2⟩ := ht
      exact ⟨rest.map Lexeme.token, by rw [List.map_append, List.map_cons, h1, h2]⟩
    · intro ht
      obtain ⟨rest, hrest⟩ := ht
      obtain ⟨pre, post, rfl, h1, hpost⟩ := List.map_eq_append_iff.mp hrest
      obtain ⟨l, rest', rfl, h2, -⟩ := List.map_eq_cons_iff.mp hpost
      exact ⟨pre, l, rest', rfl, h1, h2⟩
  · rw [Rule.ofLexemes_eq_ok_iff]
    constructor
    · intro hr
      obtain ⟨pre, m, mid, l, rest, rfl, h1, h2, h3, h4⟩ := hr
      refine ⟨rest.map Lexeme.token, ?_⟩
      simp only [List.map_append, List.map_cons, h1, h2, h3, h4]
    · intro hr
      obtain ⟨rest, hrest⟩ := hr
      obtain ⟨pre, post, rfl, h1, hpost⟩ := List.map_eq_append_iff.mp hrest
      obtain ⟨m, body, rfl, h2, hbody⟩ := List.map_eq_cons_iff.mp hpost
      obtain ⟨mid, tail, rfl, h3, htail⟩ := List.map_eq_append_iff.mp hbody
      obtain ⟨l, rest', rfl, h4, -⟩ := List.map_eq_cons_iff.mp htail
      exact ⟨pre, m, mid, l, rest', rfl, h1, h2, h3, h4⟩

end TermRewriting
