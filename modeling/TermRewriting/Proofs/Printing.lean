import TermRewriting.Proofs.Writing

/-!
# Printing and reading

The printed form of a term writes the tokens of the term if all of its names can be written, that
is, are runs of letters and numbers: the punctuation of the printed form ends every name, and nothing
is printed between a name and its parenthesis. So printed terms and rules are read back. In the
other direction whatever was read has names that can be written, and its printed form differs from
the text it was read from in blanks only.

Results:
* `Term.wellNamed_iff_tokens`: the names in a term are those of its tokens.
* `Term.writes_text`: the printed form writes the tokens of the term.
* `Term.parse_text`, `Rule.parse_text`, `Term.parse_text_line`, `Rule.parse_text_line`: what is
  printed is read back, also with the end of its line.
* `Term.wellNamed_of_parse`, `Rule.wellNamed_of_parse`: what was read has names that can be written.
* `parse_inverts_text`: printing and reading undo each other.
-/
namespace TermRewriting

open Text

/-! ## Names that can be written -/

namespace Term

/-- All names in the term, of symbols and of functors, can be written. -/
def WellNamed (t : Term) : Prop := ∀ n ∈ t.nodes, IsName n.name

instance (t : Term) : Decidable t.WellNamed := inferInstanceAs (Decidable (∀ n ∈ t.nodes, _))

@[simp] theorem wellNamed_symbol {x : String} : (symbol x).WellNamed ↔ IsName x := by
  simp [WellNamed, nodes]

@[simp] theorem wellNamed_functor {f : String} {args : List Term} :
    (functor f args).WellNamed ↔ IsName f ∧ ∀ a ∈ args, a.WellNamed := by
  simp only [WellNamed, nodes, nodesList_eq, List.forall_mem_cons, List.mem_flatMap]
  constructor
  · rintro ⟨hf, h⟩
    exact ⟨hf, fun a ha n hn => h n ⟨a, ha, hn⟩⟩
  · rintro ⟨hf, h⟩
    exact ⟨hf, fun n ⟨a, ha, hn⟩ => h a ha n hn⟩

/-- Only commas are added to the tokens of the arguments. -/
theorem mem_argTokens {x : Token} (hx : x ≠ .comma) : ∀ ts : List Term,
    x ∈ argTokens ts ↔ ∃ t ∈ ts, x ∈ t.tokens
  | [] => by simp [argTokens]
  | [t] => by simp [argTokens]
  | t :: u :: ts => by simp [argTokens, hx, mem_argTokens hx (u :: ts)]

/-- The names in a term are those of the symbols it is written with. -/
theorem wellNamed_iff_tokens (t : Term) : t.WellNamed ↔ ∀ x, .symbol x ∈ t.tokens → IsName x := by
  induction t with
  | symbol x => simp [tokens]
  | functor f args ih =>
    have hmem := fun x => mem_argTokens (x := .symbol x) (by simp) args
    have hargs : (∀ a ∈ args, a.WellNamed) ↔ ∀ x, .symbol x ∈ argTokens args → IsName x := by
      simp only [hmem]
      constructor
      · rintro h x ⟨a, ha, hx⟩
        exact (ih a ha).mp (h a ha) x hx
      · intro h a ha
        exact (ih a ha).mpr fun x hx => h x ⟨a, ha, hx⟩
    rw [wellNamed_functor, hargs, tokens]
    simp

end Term

def Rule.WellNamed (r : Rule) : Prop := r.head.WellNamed ∧ r.body.WellNamed

instance (r : Rule) : Decidable r.WellNamed := inferInstanceAs (Decidable (_ ∧ _))

/-! ## The printed form writes the tokens -/

theorem endsName_of_isBlank {c : Char} (h : isBlank c = true) (cs : List Char) :
    EndsName (c :: cs) := by
  intro d hd
  cases hd
  rw [Bool.eq_false_iff]
  intro ha
  rw [isBlank_of_isAlphanumeric ha] at h
  cases h

theorem endsName_of_ofPunctuation? {c : Char} {t : Token} (h : Token.ofPunctuation? c = some t)
    (cs : List Char) : EndsName (c :: cs) := by
  intro d hd
  cases hd
  exact (Token.ofPunctuation?_eq_some h).2.1

namespace Term

/-- The printed arguments write the tokens of the arguments, if each of them writes its own. -/
theorem writes_argTexts {cs : List Char} {ts : List Token} (hend : EndsName cs)
    (hcs : Writes cs ts) : ∀ args : List Term,
      (∀ a ∈ args, ∀ cs ts, EndsName cs → Writes cs ts →
        Writes (a.text.toList ++ cs) (a.tokens ++ ts)) →
      Writes ((", ".intercalate (texts args)).toList ++ cs) (argTokens args ++ ts)
  | [], _ => hcs
  | [a], h => by
    rw [texts, texts, String.intercalate_singleton, argTokens]
    exact h a List.mem_cons_self cs ts hend hcs
  | a :: b :: args, h => by
    have ih := writes_argTexts hend hcs (b :: args) fun u hu => h u (List.mem_cons_of_mem _ hu)
    have hcomma : Token.ofPunctuation? ',' = some .comma := rfl
    have hsep := Writes.punctuation hcomma (.blank (c := ' ') (by decide) ih)
    have ha := h a List.mem_cons_self _ _ (endsName_of_ofPunctuation? hcomma _) hsep
    simpa [texts, argTokens] using ha

/-- Printed terms write their tokens, in front of anything that does not go on with a name. -/
theorem writes_text (t : Term) : t.WellNamed → ∀ (cs : List Char) (ts : List Token),
    EndsName cs → Writes cs ts → Writes (t.text.toList ++ cs) (t.tokens ++ ts) := by
  induction t with
  | symbol x =>
    intro h cs ts hend hcs
    exact .name (wellNamed_symbol.mp h) hend hcs
  | functor f args ih =>
    intro h cs ts hend hcs
    obtain ⟨hf, hargs⟩ := wellNamed_functor.mp h
    have hclose : Token.ofPunctuation? ')' = some .rightParen := rfl
    have hopen : Token.ofPunctuation? '(' = some .leftParen := rfl
    have hinner := writes_argTexts (endsName_of_ofPunctuation? hclose _)
      (Writes.punctuation hclose hcs) args fun a ha => ih a ha (hargs a ha)
    have hall := Writes.name hf (endsName_of_ofPunctuation? hopen _)
      (Writes.punctuation hopen hinner)
    simpa [text, tokens] using hall

theorem writes_text_self {t : Term} (h : t.WellNamed) : Writes t.text.toList t.tokens := by
  simpa using writes_text t h [] [] endsName_nil .nil

end Term

theorem Rule.writes_text {r : Rule} (h : r.WellNamed) {cs : List Char} (hend : EndsName cs)
    (hcs : Writes cs []) :
    Writes (r.text.toList ++ cs) (r.head.tokens ++ .equals :: r.body.tokens) := by
  have hspace : isBlank ' ' = true := by decide
  have hequals : Token.ofPunctuation? '=' = some .equals := rfl
  have hbody := Writes.blank hspace
    (.punctuation hequals (.blank hspace (Term.writes_text _ h.2 cs [] hend hcs)))
  simpa [Rule.text] using r.head.writes_text h.1 _ _ (endsName_of_isBlank hspace _) hbody

theorem Rule.writes_text_self {r : Rule} (h : r.WellNamed) :
    Writes r.text.toList (r.head.tokens ++ .equals :: r.body.tokens) := by
  simpa using Rule.writes_text h endsName_nil .nil

/-! ## Reading what was printed, and printing what was read -/

theorem Term.parse_text {t : Term} (h : t.WellNamed) : Term.parse t.text = .ok t :=
  Term.parse_eq_ok_iff.mpr (Term.writes_text_self h)

theorem Rule.parse_text {r : Rule} (h : r.WellNamed) : Rule.parse r.text = .ok r :=
  Rule.parse_eq_ok_iff.mpr (Rule.writes_text_self h)

/-- A printed term is also read back with the end of its line. -/
theorem Term.parse_text_line {t : Term} (h : t.WellNamed) :
    Term.parse (t.text ++ "\n") = .ok t := by
  have hline : isBlank '\n' = true := by decide
  have hw := t.writes_text h ['\n'] [] (endsName_of_isBlank hline []) (.blank hline .nil)
  refine Term.parse_eq_ok_iff.mpr ?_
  simpa using hw

theorem Rule.parse_text_line {r : Rule} (h : r.WellNamed) :
    Rule.parse (r.text ++ "\n") = .ok r := by
  have hline : isBlank '\n' = true := by decide
  have hw := Rule.writes_text h (endsName_of_isBlank hline []) (.blank hline .nil)
  refine Rule.parse_eq_ok_iff.mpr ?_
  simpa using hw

theorem Term.wellNamed_of_parse {s : String} {t : Term} (h : Term.parse s = .ok t) :
    t.WellNamed :=
  (Term.wellNamed_iff_tokens t).mpr fun _ hx => (Term.parse_eq_ok_iff.mp h).isName hx

theorem Rule.wellNamed_of_parse {s : String} {r : Rule} (h : Rule.parse s = .ok r) :
    r.WellNamed := by
  have hw := Rule.parse_eq_ok_iff.mp h
  refine ⟨(Term.wellNamed_iff_tokens _).mpr fun x hx => hw.isName ?_,
    (Term.wellNamed_iff_tokens _).mpr fun x hx => hw.isName ?_⟩
  · exact List.mem_append_left _ hx
  · exact List.mem_append_right _ (List.mem_cons_of_mem _ hx)

/-- Both texts have tokens, and the same ones. -/
def SameTokens (s s' : String) : Prop :=
  ∃ ls ms, Lexeme.ofText s = .ok ls ∧ Lexeme.ofText s' = .ok ms ∧
    ls.map Lexeme.token = ms.map Lexeme.token

theorem sameTokens_of_writes {s s' : String} {ts : List Token} (hne : ts ≠ [])
    (h : Writes s.toList ts) (h' : Writes s'.toList ts) : SameTokens s s' := by
  obtain ⟨ls, hls, hts⟩ := Lexeme.ofText_of_writes h hne
  obtain ⟨ms, hms, hts'⟩ := Lexeme.ofText_of_writes h' hne
  exact ⟨_, _, hls, hms, by simp [hts, hts']⟩

/-- **Printing and reading.** A term or a rule whose names can be written is read back from its
printed form. The names of what was read from a text can be written, and the printed form has the
tokens of the text. -/
theorem parse_inverts_text :
    (∀ t : Term, t.WellNamed → Term.parse t.text = .ok t) ∧
    (∀ r : Rule, r.WellNamed → Rule.parse r.text = .ok r) ∧
    (∀ (s : String) (t : Term), Term.parse s = .ok t → t.WellNamed ∧ SameTokens t.text s) ∧
    (∀ (s : String) (r : Rule), Rule.parse s = .ok r → r.WellNamed ∧ SameTokens r.text s) := by
  refine ⟨fun t => Term.parse_text, fun r => Rule.parse_text, ?_, ?_⟩
  · intro s t h
    have hnames := Term.wellNamed_of_parse h
    exact ⟨hnames, sameTokens_of_writes t.tokens_ne_nil (Term.writes_text_self hnames)
      (Term.parse_eq_ok_iff.mp h)⟩
  · intro s r h
    have hnames := Rule.wellNamed_of_parse h
    exact ⟨hnames, sameTokens_of_writes (by simp) (Rule.writes_text_self hnames)
      (Rule.parse_eq_ok_iff.mp h)⟩

/-- Names of letters beyond ASCII, an empty argument list, and blanks of several kinds. -/
theorem parse_inverts_text_unevenly :
    let t : Term := .functor "f1" [.symbol "é", .functor "ß2" [], .symbol "x"]
    let r : Rule := ⟨t, .symbol "x"⟩
    let s : String := " f1\t(é , ß2( ),x)"
    let q : String := "f1(é,ß2(),x)=\nx "
    (t.WellNamed ∧ Term.parse t.text = .ok t) ∧ (r.WellNamed ∧ Rule.parse r.text = .ok r) ∧
      (Term.parse s = .ok t ∧ t.WellNamed ∧ SameTokens t.text s) ∧
      Rule.parse q = .ok r ∧ r.WellNamed ∧ SameTokens r.text q := by
  intro t r s q
  obtain ⟨hterm, hrule, hterm', hrule'⟩ := parse_inverts_text
  have hs : Term.parse s = .ok t := by decide +kernel
  have hq : Rule.parse q = .ok r := by decide +kernel
  have ht : t.WellNamed := by decide +kernel
  have hr : r.WellNamed := by decide +kernel
  exact ⟨⟨ht, hterm t ht⟩, ⟨hr, hrule r hr⟩, ⟨hs, hterm' s t hs⟩, hq, hrule' q r hq⟩

end TermRewriting
