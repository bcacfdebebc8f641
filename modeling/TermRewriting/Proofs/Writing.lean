import Mathlib.Data.List.Basic
import TermRewriting.Proofs.Grammar

/-!
# Texts and the tokens they write

A text writes a list of tokens if it consists of their texts in order, with blanks anywhere between
them, and no name runs into letters or numbers behind it. This is said without the lexer and without
positions. The lexer finds the tokens of every text that writes any, so a text is read as a term or
a rule exactly if it writes the tokens that the term or the rule is written with.

Results:
* `isBlank_of_isAlphanumeric`, `Token.ofPunctuation?_eq_some`: no character is of two classes.
* `Writes.isName`: the symbols that a text writes have names of letters and numbers.
* `Lexeme.writes_of_scan`, `Lexeme.exists_scan_of_writes`: the lexer gives the tokens that a text
  writes, and no others.
* `Lexeme.ofText_eq_ok_iff`: the tokens of a text from what the lexer finds.
* `Term.parse_eq_ok_iff`, `Rule.parse_eq_ok_iff`: what a text is read as.
-/
namespace TermRewriting

open Text

/-! ## Classes of characters -/

theorem isBlank_of_isAlphanumeric {c : Char} (h : isAlphanumeric c = true) : isBlank c = false := by
  have apart : ∀ r ∈ blankRanges, ∀ n ∈ List.range' r.1 (r.2 + 1 - r.1),
      inRanges alphanumericRanges n = false := by decide +kernel
  rw [Bool.eq_false_iff]
  intro hb
  obtain ⟨r, hr, hlow, hhigh⟩ := mem_of_inRanges hb
  have hmem : c.toNat ∈ List.range' r.1 (r.2 + 1 - r.1) := by
    rw [List.mem_range'_1]
    omega
  rw [isAlphanumeric, apart r hr _ hmem] at h
  cases h

/-- The punctuation of the grammar is neither blank nor part of a name, and is no end marker. -/
theorem Token.ofPunctuation?_eq_some {c : Char} {t : Token} (h : Token.ofPunctuation? c = some t) :
    isBlank c = false ∧ isAlphanumeric c = false ∧ t ≠ .endMarker ∧ ∀ x, t ≠ .symbol x := by
  unfold Token.ofPunctuation? at h
  split at h <;> cases h
  all_goals exact ⟨by decide, by decide, by simp, by simp⟩

theorem Token.text_of_ofPunctuation? {c : Char} {t : Token} (h : Token.ofPunctuation? c = some t) :
    t.text.toList = [c] := by
  unfold Token.ofPunctuation? at h
  split at h <;> cases h
  all_goals rfl

theorem ofPunctuation?_of_isAlphanumeric {c : Char} (h : isAlphanumeric c = true) :
    Token.ofPunctuation? c = none := by
  cases hp : Token.ofPunctuation? c with
  | none => rfl
  | some t =>
    have hc := (Token.ofPunctuation?_eq_some hp).2.1
    rw [h] at hc
    cases hc

/-- What a symbol can be written as: some letters and numbers. -/
def IsName (name : String) : Prop := name ≠ "" ∧ ∀ c ∈ name.toList, isAlphanumeric c = true

instance (name : String) : Decidable (IsName name) :=
  decidable_of_iff (name ≠ "" ∧ name.toList.all isAlphanumeric) (by rw [IsName, List.all_eq_true])

theorem isName_takeWhile {c : Char} (ha : isAlphanumeric c = true) (cs : List Char) :
    IsName (String.ofList (c :: cs.takeWhile isAlphanumeric)) := by
  refine ⟨by simp, ?_⟩
  rw [String.toList_ofList]
  exact List.forall_mem_cons.mpr ⟨ha, List.all_eq_true.mp List.all_takeWhile⟩

theorem IsName.exists_cons {name : String} (h : IsName name) :
    ∃ c cs, name.toList = c :: cs := by
  refine List.exists_cons_of_ne_nil ?_
  rw [ne_eq, String.toList_eq_nil_iff]
  exact h.1

/-! ## Texts that write tokens -/

/-- The characters do not begin with a letter or a number. -/
def EndsName (cs : List Char) : Prop := ∀ c ∈ cs.head?, isAlphanumeric c = false

theorem endsName_nil : EndsName [] := fun _ h => nomatch h

/-- The characters are the texts of the tokens, and blanks. -/
inductive Writes : List Char → List Token → Prop
  | nil : Writes [] []
  | blank {c : Char} {cs : List Char} {ts : List Token} (hc : isBlank c = true)
      (h : Writes cs ts) : Writes (c :: cs) ts
  | punctuation {c : Char} {t : Token} {cs : List Char} {ts : List Token}
      (hc : Token.ofPunctuation? c = some t) (h : Writes cs ts) : Writes (c :: cs) (t :: ts)
  | name {x : String} {cs : List Char} {ts : List Token} (hx : IsName x) (hend : EndsName cs)
      (h : Writes cs ts) : Writes (x.toList ++ cs) (.symbol x :: ts)

namespace Writes

theorem isName {cs : List Char} {ts : List Token} (h : Writes cs ts) {x : String}
    (hx : .symbol x ∈ ts) : IsName x := by
  induction h with
  | nil => cases hx
  | blank _ _ ih => exact ih hx
  | punctuation hc _ ih =>
    rcases List.mem_cons.mp hx with hx | hx
    · exact absurd hx.symm ((Token.ofPunctuation?_eq_some hc).2.2.2 x)
    · exact ih hx
  | name hname _ _ ih =>
    rcases List.mem_cons.mp hx with hx | hx
    · cases hx
      exact hname
    · exact ih hx

theorem endMarker_not_mem {cs : List Char} {ts : List Token} (h : Writes cs ts) :
    .endMarker ∉ ts := by
  induction h with
  | nil => exact List.not_mem_nil
  | blank _ _ ih => exact ih
  | punctuation hc _ ih =>
    exact List.not_mem_cons_of_ne_of_not_mem (Token.ofPunctuation?_eq_some hc).2.2.1.symm ih
  | name _ _ _ ih => exact List.not_mem_cons_of_ne_of_not_mem (by simp) ih

end Writes

/-! ## What the lexer finds -/

namespace Lexeme

theorem andThen_eq_ok_iff {l : Lexeme} {rest : Except LexError (List Lexeme)} {ls : List Lexeme} :
    andThen l rest = .ok ls ↔ ∃ ms, rest = .ok ms ∧ ls = l :: ms := by
  cases rest with
  | error e => simp [andThen, Except.map]
  | ok ms => simp [andThen, Except.map, eq_comm]

theorem endsName_dropWhile (cs : List Char) : EndsName (cs.dropWhile isAlphanumeric) :=
  (takeWhile_dropWhile_iff.mp ⟨rfl, rfl⟩).2.2

theorem writes_of_scan (n : Nat) (cs : List Char) :
    ∀ ls, scan n cs = .ok ls → Writes cs (ls.map token) := by
  -- A name may run over many characters, so the induction follows the lexer and not the text.
  induction n, cs using scan.induct with
  | case1 n =>
    intro ls h
    rw [scan_nil] at h
    cases h
    exact .nil
  | case2 n c cs hb ih =>
    intro ls h
    rw [scan_blank hb] at h
    exact .blank hb (ih ls h)
  | case3 n c cs hb t hp ih =>
    intro ls h
    rw [scan_punctuation (by simpa using hb) hp] at h
    obtain ⟨ms, hms, rfl⟩ := andThen_eq_ok_iff.mp h
    exact .punctuation hp (ih ms hms)
  | case4 n c cs hb hp ha name next ih =>
    intro ls h
    rw [scan_word (by simpa using hb) hp ha] at h
    obtain ⟨ms, hms, rfl⟩ := andThen_eq_ok_iff.mp h
    have hsplit : c :: cs = (String.ofList name).toList ++ cs.dropWhile isAlphanumeric := by
      rw [String.toList_ofList, List.cons_append, List.takeWhile_append_dropWhile]
    rw [hsplit]
    exact .name (isName_takeWhile ha cs) (endsName_dropWhile cs) (ih ms hms)
  | case5 n c cs hb hp ha =>
    intro ls h
    rw [scan_stray (by simpa using hb) hp (by simpa using ha)] at h
    cases h

/-- A name is read up to its end. -/
theorem scan_name {x : String} {cs : List Char} (hx : IsName x) (hend : EndsName cs) (n : Nat) :
    scan n (x.toList ++ cs) =
      andThen ⟨.symbol x, n, n + x.toList.length⟩ (scan (n + x.toList.length) cs) := by
  obtain ⟨c, name, hname⟩ := hx.exists_cons
  have hall : ∀ a ∈ c :: name, isAlphanumeric a = true := hname ▸ hx.2
  obtain ⟨ha, hall⟩ := List.forall_mem_cons.mp hall
  obtain ⟨hfront, hback⟩ := takeWhile_dropWhile_iff.mpr ⟨rfl, hall, hend⟩
  rw [hname, List.cons_append,
    scan_word (isBlank_of_isAlphanumeric ha) (ofPunctuation?_of_isAlphanumeric ha) ha,
    hfront, hback, ← hname, String.ofList_toList]

/-- Wherever a text stands, the lexer gives the tokens that it writes. -/
theorem exists_scan_of_writes {cs : List Char} {ts : List Token} (h : Writes cs ts) :
    ∀ n, ∃ ls, scan n cs = .ok ls ∧ ls.map token = ts := by
  induction h with
  | nil => exact fun n => ⟨[], scan_nil n, rfl⟩
  | blank hc _ ih =>
    intro n
    rw [scan_blank hc]
    exact ih (n + 1)
  | @punctuation c t cs ts hc _ ih =>
    intro n
    obtain ⟨ls, hls, rfl⟩ := ih (n + 1)
    refine ⟨⟨t, n, n + 1⟩ :: ls, ?_, rfl⟩
    rw [scan_punctuation (Token.ofPunctuation?_eq_some hc).1 hc, hls]
    rfl
  | @name x cs ts hx hend _ ih =>
    intro n
    obtain ⟨ls, hls, rfl⟩ := ih (n + x.toList.length)
    refine ⟨⟨.symbol x, n, n + x.toList.length⟩ :: ls, ?_, rfl⟩
    rw [scan_name hx hend, hls]
    rfl

/-- A text has the tokens that the lexer finds, and the end marker behind them; only the empty text
may have no others. -/
theorem ofText_eq_ok_iff {s : String} {ls : List Lexeme} :
    ofText s = .ok ls ↔ ∃ ms, scan 0 s.toList = .ok ms ∧ (ms = [] → s = "") ∧
      ls = ms ++ [⟨.endMarker, s.length, s.length⟩] := by
  rw [ofText]
  cases hms : scan 0 s.toList with
  | error e => simp
  | ok ms =>
    have hcond : (ms.isEmpty && !s.isEmpty) = true ↔ ¬ (ms = [] → s = "") := by simp
    constructor
    · intro h
      by_cases hs : ms = [] → s = ""
      · cases (if_neg fun hempty => hcond.mp hempty hs).symm.trans h
        exact ⟨ms, rfl, hs, rfl⟩
      · cases (if_pos (hcond.mpr hs)).symm.trans h
    · intro h
      obtain ⟨ms', hms', hs, rfl⟩ := h
      cases hms'
      exact if_neg fun hempty => hcond.mp hempty hs

/-- The tokens of a text are those that it writes, and the end marker behind them. -/
theorem writes_of_ofText {s : String} {ls : List Lexeme} (h : ofText s = .ok ls) :
    ∃ ms, ls = ms ++ [⟨.endMarker, s.length, s.length⟩] ∧ Writes s.toList (ms.map token) := by
  obtain ⟨ms, hms, -, rfl⟩ := ofText_eq_ok_iff.mp h
  exact ⟨ms, rfl, writes_of_scan 0 _ ms hms⟩

theorem ofText_of_writes {s : String} {ts : List Token} (h : Writes s.toList ts) (hne : ts ≠ []) :
    ∃ ms, ofText s = .ok (ms ++ [⟨.endMarker, s.length, s.length⟩]) ∧ ms.map token = ts := by
  obtain ⟨ms, hms, rfl⟩ := exists_scan_of_writes h 0
  have hms' : ms ≠ [] := fun e => hne (by rw [e, List.map_nil])
  exact ⟨ms, ofText_eq_ok_iff.mpr ⟨ms, hms, fun e => absurd e hms', rfl⟩, rfl⟩

end Lexeme

/-! ## What a text is read as -/

/-- Before the only end marker stands the whole text of a term. -/
theorem Term.ofLexemes_concat_iff {ls : List Lexeme} {m : Lexeme} {t : Term}
    (hls : .endMarker ∉ ls.map Lexeme.token) (hm : m.token = .endMarker) :
    Term.ofLexemes (ls ++ [m]) = .ok t ↔ ls.map Lexeme.token = t.tokens := by
  rw [Term.ofLexemes_eq_ok_iff]
  constructor
  · intro h
    obtain ⟨pre, l, rest, hsplit, hpre, hl⟩ := h
    have hmem : l ∉ ls := fun hmem => hls (hl ▸ List.mem_map_of_mem hmem)
    obtain ⟨rfl, -, -⟩ := (List.append_cons_inj_of_notMem hmem List.not_mem_nil).mp hsplit
    exact hpre
  · intro h
    exact ⟨ls, m, [], rfl, h, hm⟩

theorem Rule.ofLexemes_concat_iff {ls : List Lexeme} {m : Lexeme} {h b : Term}
    (hls : .endMarker ∉ ls.map Lexeme.token) (hm : m.token = .endMarker) :
    Rule.ofLexemes (ls ++ [m]) = .ok ⟨h, b⟩ ↔
      ls.map Lexeme.token = h.tokens ++ .equals :: b.tokens := by
  rw [Rule.ofLexemes_eq_ok_iff]
  constructor
  · intro hr
    obtain ⟨pre, e, mid, l, rest, hsplit, hpre, he, hmid, hl⟩ := hr
    have hmem : l ∉ ls := fun hmem => hls (hl ▸ List.mem_map_of_mem hmem)
    rw [← List.cons_append, ← List.append_assoc] at hsplit
    obtain ⟨rfl, -, -⟩ := (List.append_cons_inj_of_notMem hmem List.not_mem_nil).mp hsplit
    rw [List.map_append, List.map_cons, hpre, he, hmid]
  · intro hr
    obtain ⟨pre, post, rfl, hpre, hpost⟩ := List.map_eq_append_iff.mp hr
    obtain ⟨e, mid, rfl, he, hmid⟩ := List.map_eq_cons_iff.mp hpost
    exact ⟨pre, e, mid, m, [], by simp, hpre, he, hmid, hm⟩

theorem Term.parse_eq_ok_iff_lexemes {s : String} {t : Term} :
    Term.parse s = .ok t ↔ ∃ ls, Lexeme.ofText s = .ok ls ∧ Term.ofLexemes ls = .ok t := by
  rw [Term.parse]
  cases Lexeme.ofText s with
  | error e => simp
  | ok ls => cases h : Term.ofLexemes ls <;> simp [h, Except.mapError]

theorem Rule.parse_eq_ok_iff_lexemes {s : String} {r : Rule} :
    Rule.parse s = .ok r ↔ ∃ ls, Lexeme.ofText s = .ok ls ∧ Rule.ofLexemes ls = .ok r := by
  rw [Rule.parse]
  cases Lexeme.ofText s with
  | error e => simp
  | ok ls => cases h : Rule.ofLexemes ls <;> simp [h, Except.mapError]

/-- A text is read as the term whose tokens it writes. -/
theorem Term.parse_eq_ok_iff {s : String} {t : Term} :
    Term.parse s = .ok t ↔ Writes s.toList t.tokens := by
  rw [Term.parse_eq_ok_iff_lexemes]
  constructor
  · rintro ⟨ls, hls, ht⟩
    obtain ⟨ms, rfl, hw⟩ := Lexeme.writes_of_ofText hls
    rwa [← (Term.ofLexemes_concat_iff hw.endMarker_not_mem rfl).mp ht]
  · intro hw
    obtain ⟨ms, hls, hts⟩ := Lexeme.ofText_of_writes hw t.tokens_ne_nil
    exact ⟨_, hls, (Term.ofLexemes_concat_iff (hts ▸ hw.endMarker_not_mem) rfl).mpr hts⟩

/-- A text is read as the rule of whose two sides it writes the tokens, with an equals sign between
them. -/
theorem Rule.parse_eq_ok_iff {s : String} {h b : Term} :
    Rule.parse s = .ok ⟨h, b⟩ ↔ Writes s.toList (h.tokens ++ .equals :: b.tokens) := by
  rw [Rule.parse_eq_ok_iff_lexemes]
  constructor
  · rintro ⟨ls, hls, hr⟩
    obtain ⟨ms, rfl, hw⟩ := Lexeme.writes_of_ofText hls
    rwa [← (Rule.ofLexemes_concat_iff hw.endMarker_not_mem rfl).mp hr]
  · intro hw
    obtain ⟨ms, hls, hts⟩ := Lexeme.ofText_of_writes hw (by simp)
    exact ⟨_, hls, (Rule.ofLexemes_concat_iff (hts ▸ hw.endMarker_not_mem) rfl).mpr hts⟩

end TermRewriting
