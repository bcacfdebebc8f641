import TermRewriting.Proofs.Expectation
import TermRewriting.Proofs.Grammar

/-!
# What may come next

A list of kinds is viable for a grammar if some text of the grammar begins with tokens of these
kinds. Viability is said without the reader, but the reader decides it: it stops at the first token
that makes its prefix not viable, and the kinds it expects there are those that would have kept the
prefix viable.

Names do not matter for this. With the names and terms erased from two states, what they do with
tokens of the same kinds is the same (`Reader.step_erase`), so a text of the grammar that begins with
the kinds read so far can take over where the reader stands.

Results:
* `Reader.run_alike`: runs over tokens of the same kinds end alike.
* `Reader.finishes`: every state can be brought to the end of a term.
* `Reader.viable_concat_iff`: the expected kinds are those that keep what was read viable.
* `Reader.viable_behind_iff`: behind a term and its stop the rest of the grammar begins.
* `Reader.located_of_readAll`: an error is at the first place where viability is lost, or at the end.
* `ofLexemes_error_accounted`: the error of a failed reading, for terms and for rules.
-/
namespace TermRewriting

def kinds (ls : List Lexeme) : List TokenKind := ls.map fun l => l.token.kind

@[simp] theorem kinds_nil : kinds [] = [] := rfl

@[simp] theorem kinds_append (ls ms : List Lexeme) : kinds (ls ++ ms) = kinds ls ++ kinds ms :=
  List.map_append

@[simp] theorem kinds_cons (l : Lexeme) (ls : List Lexeme) :
    kinds (l :: ls) = l.token.kind :: kinds ls := rfl

theorem kinds_eq (ls : List Lexeme) : kinds ls = (ls.map Lexeme.token).map Token.kind := by
  rw [List.map_map]
  rfl

/-- Some text of the grammar begins with tokens of these kinds. -/
def Viable (grammar : List Token → Prop) (ks : List TokenKind) : Prop :=
  ∃ text, grammar text ∧ ks <+: text.map Token.kind

/-- A viable list can be continued to the kinds of a text. -/
theorem Viable.exists_continuation {grammar : List Token → Prop} {ks : List TokenKind}
    (h : Viable grammar ks) :
    ∃ text ls, grammar text ∧ text.map Token.kind = ks ++ kinds ls := by
  obtain ⟨text, ht, more, hmore⟩ := h
  refine ⟨text, more.map fun k => ⟨k.token, ⟨0, 0⟩⟩, ht, ?_⟩
  rw [← hmore, kinds, List.map_map]
  simp [Function.comp_def]

theorem Viable.of_append {grammar : List Token → Prop} {ks ks' : List TokenKind}
    (h : Viable grammar (ks ++ ks')) : Viable grammar ks := by
  obtain ⟨text, ht, hpre⟩ := h
  exact ⟨text, ht, (List.prefix_append ks ks').trans hpre⟩

theorem Viable.take {grammar : List Token → Prop} {ls : List Lexeme}
    (h : Viable grammar (kinds ls)) (n : Nat) : Viable grammar (kinds (ls.take n)) := by
  rw [← List.take_append_drop n ls, kinds_append] at h
  exact h.of_append

namespace Reader

/-! ## What an error of the reader expects -/

theorem expects_tokensOf {span : Span} {ks : List TokenKind} {found : Option Token} {k : TokenKind} :
    (Mismatch.mk span (tokensOf ks) found).Expects k ↔ k ∈ ks := by
  have hkinds : (tokensOf ks).map Token.kindOrEnd = ks := by
    rw [tokensOf, List.map_map]
    exact (List.map_congr_left fun k _ => k.kind_token).trans (List.map_id ks)
  rw [Mismatch.Expects, ← List.mem_map, hkinds]

theorem State.mem_errorAt {stop : TokenKind} {s : State} {l : Lexeme} {k : TokenKind} :
    k ∈ (s.errorAt stop l).expected ↔ k ∈ s.expected stop :=
  ParseError.mem_ofMismatch.trans expects_tokensOf

theorem State.mem_errorAtEnd {stop : TokenKind} {s : State} {last : Span} {k : TokenKind} :
    k ∈ (s.errorAtEnd stop last).expected ↔ k ≠ .symbol ∧ k ∈ s.expected stop := by
  rw [errorAtEnd, ParseError.mem_ofMismatch, expects_tokensOf, List.mem_filter, decide_eq_true_eq,
    and_comm]

/-! ## States without their names and terms -/

@[simp] def Place.erase : Place → Place
  | .start => .start
  | .opened _ => .opened ""
  | .named _ => .named ""
  | .closed _ => .closed (.symbol "")

/-- The kind of place, and how many argument lists are open around it. -/
@[simp] def State.erase (s : State) : State := ⟨s.place.erase, s.outer.map fun _ => ⟨"", []⟩⟩

@[simp] def Step.erase : Step → Step
  | .next s => .next s.erase
  | .finished _ => .finished (.symbol "")
  | .stuck => .stuck

theorem follow_erase (stop : TokenKind) (t : Term) (outer : List Frame) (x : Token) :
    (follow stop (.symbol "") (outer.map fun _ => ⟨"", []⟩) x.kind.token).erase =
      (follow stop t outer x).erase := by
  cases outer with
  | nil =>
    rw [List.map_nil, follow, follow, TokenKind.kind_token]
    split <;> rfl
  | cons f outer =>
    cases x <;> simp [follow, TokenKind.token, Token.kind]

/-- What a token leads to depends on names and terms only in names and terms. -/
theorem step_erase (stop : TokenKind) (s : State) (x : Token) :
    (step stop s.erase x.kind.token).erase = (step stop s x).erase := by
  obtain ⟨place, outer⟩ := s
  cases place with
  | start =>
    cases x <;> simp [step, TokenKind.token, Token.kind]
  | opened f =>
    cases x <;> simp [step, TokenKind.token, Token.kind]
  | named n =>
    cases x with
    | leftParen =>
      simp [step, TokenKind.token, Token.kind]
    | _ => exact follow_erase stop (.symbol n) outer _
  | closed t => exact follow_erase stop t outer x

/-- Over tokens of the same kinds the reader comes to an end at the same place. -/
theorem run_alike {stop : TokenKind} {last last' : Span} {t : Term} {rest : List Lexeme} :
    ∀ {ls ms : List Lexeme} {s s' : State}, s.erase = s'.erase → kinds ls = kinds ms →
      run stop last s ls = .ok (t, rest) →
      ∃ u rest', run stop last' s' ms = .ok (u, rest') ∧ kinds rest = kinds rest'
  | [], ms, s, s', _, _, h => by cases h
  | l :: ls, [], s, s', _, hk, _ => by simp [kinds] at hk
  | l :: ls, m :: ms, s, s', hs, hk, h => by
    rw [kinds_cons, kinds_cons, List.cons.injEq] at hk
    have hstep : (step stop s l.token).erase = (step stop s' m.token).erase := by
      rw [← step_erase, ← step_erase stop s', hs, hk.1]
    rw [run] at h
    rw [run]
    split at h
    · rename_i s1 h1
      rw [h1] at hstep
      cases h2 : step stop s' m.token with
      | next s2 =>
        rw [h2] at hstep
        simp only [Step.erase, Step.next.injEq] at hstep
        exact run_alike hstep hk.2 h
      | finished u => rw [h2] at hstep; cases hstep
      | stuck => rw [h2] at hstep; cases hstep
    · rename_i u h1
      cases h
      rw [h1] at hstep
      cases h2 : step stop s' m.token with
      | next s2 => rw [h2] at hstep; cases hstep
      | finished v => exact ⟨v, ms, rfl, hk.2⟩
      | stuck => rw [h2] at hstep; cases hstep
    · cases h

/-! ## Every state can be finished -/

/-- Some tokens lead from the state to the end of a term. -/
def Finishes (stop : TokenKind) (s : State) : Prop :=
  ∃ xs s' t, advance stop s xs = some s' ∧ ∀ x, x.kind = stop → step stop s' x = .finished t

theorem Finishes.of_step {stop : TokenKind} {s s' : State} {x : Token}
    (h : step stop s x = .next s') (hf : Finishes stop s') : Finishes stop s := by
  obtain ⟨xs, s1, t, hadv, hfin⟩ := hf
  exact ⟨x :: xs, s1, t, by rw [advance, h]; exact hadv, hfin⟩

theorem finishes_closed (stop : TokenKind) (outer : List Frame) :
    ∀ t : Term, Finishes stop ⟨.closed t, outer⟩ := by
  induction outer with
  | nil =>
    intro t
    refine ⟨[], _, t, rfl, fun x hx => ?_⟩
    rw [step, follow, if_pos hx]
  | cons f outer ih =>
    intro t
    exact (ih (.functor f.name (t :: f.args).reverse)).of_step (x := .rightParen) rfl

theorem finishes (stop : TokenKind) (s : State) : Finishes stop s := by
  obtain ⟨place, outer⟩ := s
  have hopened : ∀ f, Finishes stop ⟨.opened f, outer⟩ := fun f =>
    (finishes_closed stop outer (.functor f [])).of_step (x := .rightParen) rfl
  -- From a bare name the reader always finishes by way of an empty argument list.
  have hnamed : ∀ n, Finishes stop ⟨.named n, outer⟩ := fun n =>
    (hopened n).of_step (x := .leftParen) rfl
  cases place with
  | start => exact (hnamed "").of_step (x := .symbol "") rfl
  | opened f => exact hopened f
  | named n => exact hnamed n
  | closed t => exact finishes_closed stop outer t

/-! ## The grammar of several terms -/

/-- The texts of as many terms as there are stops, each term with a token of its stop behind it. -/
def Sentence : List TokenKind → List Token → Prop
  | [], xs => xs = []
  | stop :: stops, xs => ∃ (t : Term) (x : Token) (ys : List Token),
      xs = t.tokens ++ x :: ys ∧ x.kind = stop ∧ Sentence stops ys

theorem exists_sentence : ∀ stops : List TokenKind, ∃ xs, Sentence stops xs
  | [] => ⟨[], rfl⟩
  | stop :: stops => by
    obtain ⟨ys, hys⟩ := exists_sentence stops
    exact ⟨_, .symbol "", stop.token, ys, rfl, stop.kind_token, hys⟩

section
variable {stop : TokenKind} {stops : List TokenKind} {last : Span}

/-- A run over tokens of the kinds of a sentence reads its first term. -/
theorem run_of_sentence (last : Span) (hstop : stop ≠ .leftParen) {text : List Token}
    {ls : List Lexeme} (ht : Sentence (stop :: stops) text) (hls : kinds ls = text.map Token.kind) :
    ∃ u rest ys, run stop last .initial ls = .ok (u, rest) ∧ Sentence stops ys ∧
      kinds rest = ys.map Token.kind := by
  obtain ⟨t, x, ys, rfl, hx, hys⟩ := ht
  let bare : Token → Lexeme := fun x => ⟨x, ⟨0, 0⟩⟩
  have hbare : ∀ xs : List Token, (xs.map bare).map Lexeme.token = xs := fun xs => by
    rw [List.map_map]
    exact List.map_id xs
  have hrun : run stop last .initial (t.tokens.map bare ++ bare x :: ys.map bare) =
      .ok (t, ys.map bare) :=
    (run_initial_eq_ok_iff hstop).mpr ⟨_, _, rfl, hbare _, hx⟩
  have hk : kinds (t.tokens.map bare ++ bare x :: ys.map bare) = kinds ls := by
    rw [hls, kinds_eq, List.map_append, List.map_cons, hbare, hbare]
  obtain ⟨u, rest, hu, hrest⟩ : ∃ u rest, run stop last .initial ls = .ok (u, rest) ∧
      kinds (ys.map bare) = kinds rest := run_alike rfl hk hrun
  exact ⟨u, rest, ys, hu, hys, by rw [← hrest, kinds_eq, hbare]⟩

theorem advance_initial_spelled {pre : List Token} {s : State}
    (h : advance stop .initial pre = some s) : s.spelled = pre := spelled_advance h

/-- What can be finished from where the reader stands begins a sentence. -/
theorem viable_of_finishes {xs : List Token} {s : State}
    (h : advance stop .initial xs = some s) (hf : Finishes stop s) :
    Viable (Sentence (stop :: stops)) (xs.map Token.kind) := by
  obtain ⟨zs, s', t, hadv, hfin⟩ := hf
  obtain ⟨ys, hys⟩ := exists_sentence stops
  have hspell := spelled_advance hadv
  rw [(step_finished (hfin stop.token stop.kind_token)).1, advance_initial_spelled h] at hspell
  refine ⟨_, ⟨t, stop.token, ys, rfl, stop.kind_token, hys⟩, ?_⟩
  rw [hspell, List.append_assoc, List.map_append]
  exact List.prefix_append _ _

/-- **Expected kinds.** Behind the tokens that were read, the grammar has exactly the kinds that the
reader expects. -/
theorem viable_concat_iff (hstop : stop ≠ .leftParen) {pre : List Lexeme} {s : State}
    (h : advance stop .initial (pre.map Lexeme.token) = some s) (k : TokenKind) :
    Viable (Sentence (stop :: stops)) (kinds pre ++ [k]) ↔ k ∈ s.expected stop := by
  have hk : step stop s k.token = .stuck ↔ k ∉ s.expected stop := by
    rw [step_stuck_iff, TokenKind.kind_token]
  constructor
  · intro hv
    obtain ⟨text, ls, ht, htext⟩ := hv.exists_continuation
    have hls : kinds (pre ++ ⟨k.token, ⟨0, 0⟩⟩ :: ls) = text.map Token.kind := by
      rw [htext, kinds_append, kinds_cons, TokenKind.kind_token, List.append_assoc]
      rfl
    obtain ⟨u, rest, ys, hrun, -⟩ := run_of_sentence ⟨0, 0⟩ hstop ht hls
    rw [run_append _ h, run] at hrun
    by_cases hmem : k ∈ s.expected stop
    · exact hmem
    · rw [hk.mpr hmem] at hrun
      cases hrun
  · intro hmem
    have hkinds : kinds pre ++ [k] = (pre.map Lexeme.token ++ [k.token]).map Token.kind := by
      rw [List.map_append, ← kinds_eq, List.map_singleton, TokenKind.kind_token]
    cases hs : step stop s k.token with
    | stuck => exact absurd hmem (hk.mp hs)
    | next s' =>
      rw [hkinds]
      refine viable_of_finishes ?_ (finishes stop s')
      rw [advance_append, h, Option.bind_some, advance, hs]
      rfl
    | finished t =>
      obtain ⟨hspell, hkind⟩ := step_finished hs
      obtain ⟨ys, hys⟩ := exists_sentence stops
      refine ⟨_, ⟨t, k.token, ys, rfl, hkind, hys⟩, ys.map Token.kind, ?_⟩
      rw [hkinds, ← hspell, advance_initial_spelled h, ← List.map_append, List.append_assoc,
        List.singleton_append]

/-- **Behind a term.** Behind a term and its stop may come what the rest of the grammar begins
with. -/
theorem viable_behind_iff (hstop : stop ≠ .leftParen) {pre : List Lexeme} {t : Term} {l : Lexeme}
    (hpre : pre.map Lexeme.token = t.tokens) (hl : l.token.kind = stop) (ks : List TokenKind) :
    Viable (Sentence (stop :: stops)) (kinds (pre ++ [l]) ++ ks) ↔ Viable (Sentence stops) ks := by
  constructor
  · intro hv
    obtain ⟨text, ls, ht, htext⟩ := hv.exists_continuation
    let mid : List Lexeme := ks.map fun k => ⟨k.token, ⟨0, 0⟩⟩
    have hmid : kinds mid = ks := by simp [mid, kinds, Function.comp_def]
    have hls : kinds (pre ++ l :: (mid ++ ls)) = text.map Token.kind := by
      simp [htext, hmid]
    obtain ⟨u, rest, ys, hrun, hys, hrest⟩ := run_of_sentence ⟨0, 0⟩ hstop ht hls
    rw [(run_initial_eq_ok_iff hstop).mpr ⟨pre, l, rfl, hpre, hl⟩] at hrun
    cases hrun
    exact ⟨ys, hys, by rw [← hrest, kinds_append, hmid]; exact List.prefix_append _ _⟩
  · intro hv
    obtain ⟨ys, hys, hks⟩ := hv
    refine ⟨_, ⟨t, l.token, ys, rfl, hl, hys⟩, ?_⟩
    rw [kinds_append, kinds_eq, hpre, List.map_append, List.map_cons, List.append_assoc]
    exact List.prefix_append_right_inj _ |>.mpr (List.cons_prefix_cons.mpr ⟨rfl, hks⟩)

/-! ## Where a reading fails -/

/-- The error is at the first token that makes its prefix not viable, or, if there is none, at the
end of the tokens; it expects the kinds that would have kept the prefix viable. -/
inductive Located (grammar : List Token → Prop) (last : Span) (ls : List Lexeme) (e : ParseError) :
    Prop
  | stray (pre : List Lexeme) (l : Lexeme) (post : List Lexeme) (split : ls = pre ++ l :: post)
      (viable : Viable grammar (kinds pre))
      (stray : ¬ Viable grammar (kinds pre ++ [l.token.kind]))
      (span : e.span = l.span) (found : e.found = l.token.kind)
      (expected : ∀ k, k ∈ e.expected ↔ Viable grammar (kinds pre ++ [k]))
  | ended (viable : Viable grammar (kinds ls)) (span : e.span = last) (found : e.found = .endMarker)
      (expected : ∀ k, k ∈ e.expected ↔ k ≠ .symbol ∧ Viable grammar (kinds ls ++ [k]))

theorem located_of_run (hstop : stop ≠ .leftParen) {ls : List Lexeme} {e : ParseError}
    (h : run stop last .initial ls = .error e) : Located (Sentence (stop :: stops)) last ls e := by
  rcases run_eq_error h with ⟨s, hadv, rfl⟩ | ⟨pre, l, post, s, rfl, hadv, hstuck, rfl⟩
  · refine .ended ?_ rfl rfl fun k => ?_
    · rw [kinds_eq]
      exact viable_of_finishes hadv (finishes stop s)
    · rw [viable_concat_iff hstop hadv, State.mem_errorAtEnd]
  · refine .stray pre l post rfl ?_ ?_ rfl rfl fun k => ?_
    · rw [kinds_eq]
      exact viable_of_finishes hadv (finishes stop s)
    · rw [viable_concat_iff hstop hadv]
      exact step_stuck_iff.mp hstuck
    · rw [viable_concat_iff hstop hadv, State.mem_errorAt]

/-- An error behind a term is an error of the whole. -/
theorem Located.behind (hstop : stop ≠ .leftParen) {pre rest : List Lexeme} {t : Term} {l : Lexeme}
    (hpre : pre.map Lexeme.token = t.tokens) (hl : l.token.kind = stop) {e : ParseError}
    (h : Located (Sentence stops) last rest e) :
    Located (Sentence (stop :: stops)) last (pre ++ l :: rest) e := by
  have hv : ∀ mid ks, Viable (Sentence (stop :: stops)) (kinds (pre ++ l :: mid) ++ ks) ↔
      Viable (Sentence stops) (kinds mid ++ ks) := by
    intro mid ks
    have hsplit : kinds (pre ++ l :: mid) ++ ks = kinds (pre ++ [l]) ++ (kinds mid ++ ks) := by simp
    rw [hsplit, viable_behind_iff hstop hpre hl]
  have hv0 : ∀ mid, Viable (Sentence (stop :: stops)) (kinds (pre ++ l :: mid)) ↔
      Viable (Sentence stops) (kinds mid) := by
    intro mid
    have := hv mid []
    rwa [List.append_nil, List.append_nil] at this
  cases h with
  | stray pre' l' post split viable stray span found expected =>
    subst split
    refine .stray (pre ++ l :: pre') l' post (by simp) ((hv0 pre').mpr viable) ?_ span found ?_
    · rwa [hv]
    · intro k
      rw [hv, expected]
  | ended viable span found expected =>
    refine .ended ((hv0 rest).mpr viable) span found fun k => ?_
    rw [hv, expected]

/-- Reads as many terms as there are stops. -/
def readAll (last : Span) : List TokenKind → List Lexeme → Except ParseError (List Term)
  | [], _ => .ok []
  | stop :: stops, ls =>
    match run stop last .initial ls with
    | .error e => .error e
    | .ok (t, rest) =>
      match readAll last stops rest with
      | .error e => .error e
      | .ok ts => .ok (t :: ts)

theorem located_of_readAll {e : ParseError} : ∀ {stops : List TokenKind} {ls : List Lexeme},
    (∀ stop ∈ stops, stop ≠ .leftParen) → readAll last stops ls = .error e →
    Located (Sentence stops) last ls e
  | [], _, _, h => by cases h
  | stop :: stops, ls, hstops, h => by
    have hstop := hstops stop List.mem_cons_self
    rw [readAll] at h
    split at h
    · rename_i e' hr
      cases h
      exact located_of_run hstop hr
    · rename_i t rest hr
      split at h
      · rename_i e' hrest
        cases h
        obtain ⟨pre, l, rfl, hpre, hl⟩ := (run_initial_eq_ok_iff hstop).mp hr
        have hstops' : ∀ s ∈ stops, s ≠ .leftParen := fun s hs => hstops s (List.mem_cons_of_mem _ hs)
        exact (located_of_readAll hstops' hrest).behind hstop hpre hl
      · cases h

/-- The error of a run was a mismatch. -/
theorem exists_mismatch_of_run {s : State} {ls : List Lexeme} {e : ParseError}
    (h : run stop last s ls = .error e) : ∃ m, e = .ofMismatch m := by
  rcases run_eq_error h with ⟨s', -, rfl⟩ | ⟨pre, l, post, s', -, -, -, rfl⟩
  · exact ⟨_, rfl⟩
  · exact ⟨_, rfl⟩

theorem expected_ascending_of_readAll {e : ParseError} :
    ∀ {stops : List TokenKind} {ls : List Lexeme},
      readAll last stops ls = .error e → e.expected.Pairwise (· < ·)
  | [], _, h => by cases h
  | stop :: stops, ls, h => by
    rw [readAll] at h
    split at h
    · rename_i e' hr
      cases h
      obtain ⟨m, rfl⟩ := exists_mismatch_of_run hr
      exact ParseError.ofMismatch_ascending m
    · split at h
      · rename_i e' hrest
        cases h
        exact expected_ascending_of_readAll hrest
      · cases h

end

end Reader

/-! ## Terms and rules -/

def Term.Grammatical (xs : List Token) : Prop := ∃ t : Term, xs = t.tokens ++ [.endMarker]

def Rule.Grammatical (xs : List Token) : Prop :=
  ∃ h b : Term, xs = h.tokens ++ .equals :: (b.tokens ++ [.endMarker])

theorem Term.sentence_iff (xs : List Token) :
    Reader.Sentence [.endMarker] xs ↔ Term.Grammatical xs := by
  constructor
  · intro h
    obtain ⟨t, x, ys, rfl, hx, rfl⟩ := h
    exact ⟨t, by rw [Token.kind_eq_endMarker.mp hx]⟩
  · intro h
    obtain ⟨t, rfl⟩ := h
    exact ⟨t, .endMarker, [], rfl, rfl, rfl⟩

theorem Rule.sentence_iff (xs : List Token) :
    Reader.Sentence [.equals, .endMarker] xs ↔ Rule.Grammatical xs := by
  constructor
  · intro h
    obtain ⟨h, x, ys, rfl, hx, b, y, zs, rfl, hy, rfl⟩ := h
    exact ⟨h, b, by rw [Token.kind_eq_equals.mp hx, Token.kind_eq_endMarker.mp hy]⟩
  · intro h
    obtain ⟨h, b, rfl⟩ := h
    exact ⟨h, .equals, _, rfl, rfl, b, .endMarker, [], rfl, rfl, rfl⟩

theorem Term.readAll_of_ofLexemes {ls : List Lexeme} {e : ParseError}
    (h : Term.ofLexemes ls = .error e) :
    Reader.readAll (Reader.lastSpan ls) [.endMarker] ls = .error e := by
  rw [Term.ofLexemes] at h
  cases hr : Reader.run .endMarker (Reader.lastSpan ls) .initial ls with
  | error e' =>
    rw [hr] at h
    cases h
    rw [Reader.readAll, hr]
  | ok p => rw [hr] at h; cases h

theorem Rule.readAll_of_ofLexemes {ls : List Lexeme} {e : ParseError}
    (h : Rule.ofLexemes ls = .error e) :
    Reader.readAll (Reader.lastSpan ls) [.equals, .endMarker] ls = .error e := by
  rw [Rule.ofLexemes] at h
  cases hr : Reader.run .equals (Reader.lastSpan ls) .initial ls with
  | error e' =>
    rw [hr] at h
    cases h
    rw [Reader.readAll, hr]
  | ok p =>
    obtain ⟨head, rest⟩ := p
    cases hb : Reader.run .endMarker (Reader.lastSpan ls) .initial rest with
    | error e' =>
      simp only [hr, hb] at h
      cases h
      simp only [Reader.readAll, hr, hb]
    | ok q =>
      simp only [hr, hb] at h
      cases h

theorem Reader.lastSpan_eq (ls : List Lexeme) :
    Reader.lastSpan ls = (ls.getLast?.map Lexeme.span).getD ⟨0, 0⟩ := by
  rw [Reader.lastSpan]
  cases ls.getLast? <;> rfl

/-- What an error has to say about tokens that a grammar does not read. If some prefix is not
viable, the error is about the token that ends the shortest such prefix, and expects the kinds that
would have kept it viable. Otherwise it is about the end of the tokens, and does not mention that
there could be a symbol. -/
structure ParseError.Accounts (e : ParseError) (grammar : List Token → Prop) (ls : List Lexeme) :
    Prop where
  ascending : e.expected.Pairwise (· < ·)
  stray : (∃ n, ¬ Viable grammar (kinds (ls.take n))) →
    ∃ i l, ls[i]? = some l ∧ (∀ n, n ≤ i → Viable grammar (kinds (ls.take n))) ∧
      ¬ Viable grammar (kinds (ls.take (i + 1))) ∧
      e.found = l.token.kind ∧ e.span = l.span ∧ e.found ∉ e.expected ∧
      ∀ k, k ∈ e.expected ↔ Viable grammar (kinds (ls.take i) ++ [k])
  ended : (∀ n, Viable grammar (kinds (ls.take n))) →
    e.found = .endMarker ∧ e.span = (ls.getLast?.map Lexeme.span).getD ⟨0, 0⟩ ∧
      ∀ k, k ∈ e.expected ↔ k ≠ .symbol ∧ Viable grammar (kinds ls ++ [k])

theorem Reader.Located.accounts {grammar : List Token → Prop} {ls : List Lexeme} {e : ParseError}
    (h : Reader.Located grammar (Reader.lastSpan ls) ls e) (hasc : e.expected.Pairwise (· < ·)) :
    e.Accounts grammar ls := by
  cases h with
  | stray pre l post split viable stray span found expected =>
    have htake : ls.take pre.length = pre := by rw [split, List.take_left]
    have hsucc : kinds (ls.take (pre.length + 1)) = kinds pre ++ [l.token.kind] := by
      have hls : ls = (pre ++ [l]) ++ post := by simp [split]
      rw [hls, List.take_left' (by simp), kinds_append]
      rfl
    refine ⟨hasc, fun _ => ⟨pre.length, l, by simp [split], ?_, ?_, found, span, ?_, ?_⟩, ?_⟩
    · intro n hn
      rw [← htake] at viable
      have htn := viable.take n
      rwa [List.take_take, Nat.min_eq_left hn] at htn
    · rwa [hsucc]
    · rw [expected, found]
      exact stray
    · intro k
      rw [htake, expected]
    · intro hall
      have := hall (pre.length + 1)
      rw [hsucc] at this
      exact absurd this stray
  | ended viable span found expected =>
    refine ⟨hasc, fun hex => ?_, fun _ => ⟨found, by rw [span, Reader.lastSpan_eq], expected⟩⟩
    obtain ⟨n, hn⟩ := hex
    exact absurd (viable.take n) hn

/-- **Errors of reading.** Where no term, or no rule, can be read from the tokens, the error is the
one that the grammar calls for. -/
theorem ofLexemes_error_accounted (ls : List Lexeme) (e : ParseError) :
    (Term.ofLexemes ls = .error e → e.Accounts Term.Grammatical ls) ∧
    (Rule.ofLexemes ls = .error e → e.Accounts Rule.Grammatical ls) := by
  have hterm : Term.Grammatical = Reader.Sentence [.endMarker] :=
    funext fun xs => propext (Term.sentence_iff xs).symm
  have hrule : Rule.Grammatical = Reader.Sentence [.equals, .endMarker] :=
    funext fun xs => propext (Rule.sentence_iff xs).symm
  constructor
  · intro h
    have hr := Term.readAll_of_ofLexemes h
    rw [hterm]
    exact (Reader.located_of_readAll (by decide) hr).accounts
      (Reader.expected_ascending_of_readAll hr)
  · intro h
    have hr := Rule.readAll_of_ofLexemes h
    rw [hrule]
    exact (Reader.located_of_readAll (by decide) hr).accounts
      (Reader.expected_ascending_of_readAll hr)

/-- The tokens of `f(a,)` as a term, and those of `f = g(` without an end marker as a rule. -/
theorem ofLexemes_error_accounted_samples :
    let ls : List Lexeme := [⟨.symbol "f", 0, 1⟩, ⟨.leftParen, 1, 2⟩, ⟨.symbol "a", 2, 3⟩,
      ⟨.comma, 3, 4⟩, ⟨.rightParen, 4, 5⟩, ⟨.endMarker, 5, 5⟩]
    let ms : List Lexeme := [⟨.symbol "f", 0, 1⟩, ⟨.equals, 2, 3⟩, ⟨.symbol "g", 4, 5⟩,
      ⟨.leftParen, 5, 6⟩]
    let e : ParseError := ⟨⟨4, 5⟩, [.symbol], .rightParen⟩
    let e' : ParseError := ⟨⟨5, 6⟩, [.rightParen], .endMarker⟩
    (Term.ofLexemes ls = .error e ∧ e.Accounts Term.Grammatical ls) ∧
      Rule.ofLexemes ms = .error e' ∧ e'.Accounts Rule.Grammatical ms := by
  intro ls ms e e'
  have hls : Term.ofLexemes ls = .error e := by cbv
  have hms : Rule.ofLexemes ms = .error e' := by cbv
  exact ⟨⟨hls, (ofLexemes_error_accounted ls e).1 hls⟩, hms, (ofLexemes_error_accounted ms e').2 hms⟩

end TermRewriting
