import Mathlib.Data.List.Chain
import TermRewriting.Proofs.Writing

/-!
# Where the tokens of a text stand

The tokens of a text lie in it one after the other. Each covers its own characters, only blanks are
left between them, and no two names touch, so that a name is never cut into two. There is one list of
tokens like this at most, and the lexer finds it.

A tiling is said about a whole text from some place on. At a blank it is a tiling from the next place
on (`tiling_blank_iff`), and at any other character it begins with a token that stands there and goes
on behind that token (`tiling_cons_iff`). The lexer goes the same way.

Results:
* `Tiling.mem_text`: a character that a token covers is one of the token.
* `tiling_end_iff`, `tiling_blank_iff`, `tiling_cons_iff`: a tiling by what comes next in the text.
* `Lexeme.scan_token`, `Lexeme.exists_token_of_scan`: the lexer in front of a token.
* `Lexeme.scan_eq_ok_iff_tiling`: the lexer gives the tiling of a text, from any place on.
* `ofText_eq_ok_iff_tiling`: what the tokens of a text are.
-/
namespace TermRewriting

open Text

/-! ## Tokens that stand in a text -/

/-- The token can stand in a text: its name, if it has one, can be written. -/
def Token.Writable : Token → Prop
  | .symbol x => IsName x
  | .endMarker => False
  | .leftParen | .rightParen | .comma | .equals => True

theorem Token.writable_of_ofPunctuation? {c : Char} {t : Token}
    (h : Token.ofPunctuation? c = some t) : t.Writable := by
  unfold Token.ofPunctuation? at h
  split at h <;> cases h
  all_goals trivial

namespace Token.Writable

variable {t : Token} (h : t.Writable)
include h

/-- A token is a name or stands for a single character. -/
theorem cases : (∃ x, t = .symbol x ∧ IsName x) ∨
    ∃ c, Token.ofPunctuation? c = some t ∧ t.text.toList = [c] := by
  cases t with
  | symbol x => exact Or.inl ⟨x, rfl, h⟩
  | leftParen => exact Or.inr ⟨'(', rfl, rfl⟩
  | rightParen => exact Or.inr ⟨')', rfl, rfl⟩
  | comma => exact Or.inr ⟨',', rfl, rfl⟩
  | equals => exact Or.inr ⟨'=', rfl, rfl⟩
  | endMarker => exact h.elim

theorem length_pos : 0 < t.text.toList.length := by
  rcases h.cases with ⟨x, rfl, hx⟩ | ⟨c, -, hc⟩
  · obtain ⟨c, cs, hcs⟩ := hx.exists_cons
    simp [Token.text, hcs]
  · simp [hc]

theorem not_blank {c : Char} (hc : c ∈ t.text.toList) : isBlank c = false := by
  rcases h.cases with ⟨x, rfl, hx⟩ | ⟨d, hd, htext⟩
  · exact isBlank_of_isAlphanumeric (hx.2 c hc)
  · rw [htext, List.mem_singleton] at hc
    exact hc ▸ (Token.ofPunctuation?_eq_some hd).1

/-- Names are the tokens of letters and numbers. -/
theorem kind_eq_symbol_iff {c : Char} (hc : c ∈ t.text.toList) :
    t.kind = .symbol ↔ isAlphanumeric c = true := by
  rcases h.cases with ⟨x, rfl, hx⟩ | ⟨d, hd, htext⟩
  · exact ⟨fun _ => hx.2 c hc, fun _ => rfl⟩
  · rw [htext, List.mem_singleton] at hc
    obtain ⟨-, halpha, -, hsym⟩ := Token.ofPunctuation?_eq_some hd
    subst hc
    rw [halpha]
    cases t <;> simp_all [Token.kind]

end Token.Writable

/-! ## Tilings -/

/-- The characters of the text that the span covers. -/
def Span.slice (s : Span) (cs : List Char) : List Char := (cs.drop s.start).take (s.stop - s.start)

/-- The span covers the character at the place `i`. -/
def Span.Covers (s : Span) (i : Nat) : Prop := s.start ≤ i ∧ i < s.stop

/-- Not two names without anything between them. -/
def Lexeme.Apart (l m : Lexeme) : Prop :=
  l.token.kind = .symbol → m.token.kind = .symbol → l.span.stop ≠ m.span.start

/-- From the place `n` on, the text consists of the tokens and of blanks. -/
structure Tiling (cs : List Char) (n : Nat) (ls : List Lexeme) : Prop where
  inside : ∀ l ∈ ls, n ≤ l.span.start ∧ l.span.start < l.span.stop ∧ l.span.stop ≤ cs.length
  ascending : ls.Pairwise fun l m => l.span.stop ≤ m.span.start
  written : ∀ l ∈ ls, l.token.Writable ∧ l.span.slice cs = l.token.text.toList
  blank : ∀ i c, n ≤ i → cs[i]? = some c → (∀ l ∈ ls, ¬ l.span.Covers i) → isBlank c = true
  apart : ls.IsChain Lexeme.Apart

section
variable {cs : List Char} {n : Nat} {ls : List Lexeme}

/-- A character that a token covers is one of the token. -/
theorem Tiling.mem_text (h : Tiling cs n ls) {l : Lexeme} (hl : l ∈ ls) {i : Nat} {c : Char}
    (hc : cs[i]? = some c) (hi : l.span.Covers i) : c ∈ l.token.text.toList := by
  obtain ⟨hstart, hstop⟩ := hi
  rw [← (h.written l hl).2]
  refine List.mem_of_getElem? (i := i - l.span.start) ?_
  rw [Span.slice, List.getElem?_take, List.getElem?_drop, if_pos (by omega),
    Nat.add_sub_cancel' hstart, hc]

theorem tiling_end_iff (hn : cs.length ≤ n) : Tiling cs n ls ↔ ls = [] := by
  constructor
  · intro h
    refine List.eq_nil_iff_forall_not_mem.mpr fun l hl => ?_
    have := h.inside l hl
    omega
  · intro h
    subst h
    refine ⟨by simp, List.Pairwise.nil, by simp, ?_, List.IsChain.nil⟩
    intro i c hi hc
    obtain ⟨hlt, -⟩ := List.getElem?_eq_some_iff.mp hc
    omega

/-- No token begins at a blank. -/
theorem tiling_blank_iff {c : Char} (hc : cs[n]? = some c) (hb : isBlank c = true) :
    Tiling cs n ls ↔ Tiling cs (n + 1) ls := by
  constructor
  · intro h
    refine ⟨fun l hl => ?_, h.ascending, h.written, fun i d hi => h.blank i d (by omega), h.apart⟩
    obtain ⟨h1, h2, h3⟩ := h.inside l hl
    have hne : l.span.start ≠ n := by
      intro e
      have hmem := h.mem_text hl hc ⟨by omega, by omega⟩
      rw [(h.written l hl).1.not_blank hmem] at hb
      cases hb
    omega
  · intro h
    refine ⟨fun l hl => ?_, h.ascending, h.written, fun i d hi hd hout => ?_, h.apart⟩
    · have := h.inside l hl
      omega
    · rcases Nat.eq_or_lt_of_le hi with rfl | hlt
      · cases hc.symm.trans hd
        exact hb
      · exact h.blank i d hlt hd hout

/-- A character that is not a blank begins a token, if it does not belong to one that began before. -/
theorem Tiling.exists_head {c : Char} (h : Tiling cs n ls) (hc : cs[n]? = some c)
    (hb : isBlank c = false) : ∃ l ms, ls = l :: ms ∧ l.span.start = n := by
  have hcov : ∃ l ∈ ls, l.span.Covers n := by
    refine Classical.byContradiction fun hno => ?_
    have hout := h.blank n c (Nat.le_refl n) hc fun l hl hn => hno ⟨l, hl, hn⟩
    rw [hb] at hout
    cases hout
  obtain ⟨l, hl, hstart, hstop⟩ := hcov
  cases ls with
  | nil => cases hl
  | cons m ms =>
    have hm := h.inside m List.mem_cons_self
    refine ⟨m, ms, rfl, ?_⟩
    rcases List.mem_cons.mp hl with rfl | hl
    · omega
    · have := List.rel_of_pairwise_cons h.ascending hl
      omega

/-- There the text goes on with the text of the token. -/
theorem Tiling.exists_token {c : Char} (h : Tiling cs n ls) (hc : cs[n]? = some c)
    (hb : isBlank c = false) : ∃ (t : Token) (rest : List Char) (ms : List Lexeme), t.Writable ∧
      cs.drop n = t.text.toList ++ rest ∧ ls = ⟨t, n, n + t.text.toList.length⟩ :: ms := by
  obtain ⟨⟨t, start, stop⟩, ms, rfl, hstart⟩ := h.exists_head hc hb
  obtain ⟨ht, htext⟩ := h.written _ List.mem_cons_self
  have hin := h.inside _ List.mem_cons_self
  simp only [Span.slice] at hstart htext hin
  subst hstart
  have hlen : t.text.toList.length = stop - start := by
    rw [← htext, List.length_take, List.length_drop]
    omega
  refine ⟨t, cs.drop stop, ms, ht, ?_, ?_⟩
  · rw [← htext, ← Nat.add_sub_cancel' (Nat.le_of_lt hin.2.1), ← List.drop_drop,
      Nat.add_sub_cancel_left, List.take_append_drop]
  · rw [hlen, Nat.add_sub_cancel' (Nat.le_of_lt hin.2.1)]

/-- Behind a place there is no name that begins right there, or the text does not go on with letters
or numbers. -/
theorem Tiling.endsName_iff (h : Tiling cs n ls) :
    EndsName (cs.drop n) ↔ ∀ m ∈ ls.head?, m.token.kind = .symbol → n ≠ m.span.start := by
  rw [EndsName, List.head?_drop]
  constructor
  · intro hend m hm hkind hn
    have hmem : m ∈ ls := List.mem_of_mem_head? hm
    have hin := h.inside m hmem
    have hc : cs[n]? = some cs[n] := List.getElem?_eq_getElem (by omega)
    have htext := h.mem_text hmem hc ⟨by omega, by omega⟩
    have halpha := ((h.written m hmem).1.kind_eq_symbol_iff htext).mp hkind
    rw [hend _ hc] at halpha
    cases halpha
  · intro hhead c hc
    rw [Bool.eq_false_iff]
    intro halpha
    obtain ⟨m, ms, rfl, hm⟩ := h.exists_head hc (isBlank_of_isAlphanumeric halpha)
    have hin := h.inside m List.mem_cons_self
    have htext := h.mem_text List.mem_cons_self hc ⟨by omega, by omega⟩
    have hkind := ((h.written m List.mem_cons_self).1.kind_eq_symbol_iff htext).mpr halpha
    exact hhead m rfl hkind hm.symm

/-- A tiling that begins with a token goes on as one behind the token, and not in the middle of a
name. -/
theorem tiling_cons_iff {t : Token} {ms : List Lexeme} {rest : List Char} (ht : t.Writable)
    (hcs : cs.drop n = t.text.toList ++ rest) :
    Tiling cs n (⟨t, n, n + t.text.toList.length⟩ :: ms) ↔
      Tiling cs (n + t.text.toList.length) ms ∧ (t.kind = .symbol → EndsName rest) := by
  have hpos := ht.length_pos
  have hrest : cs.drop (n + t.text.toList.length) = rest := by
    rw [← List.drop_drop, hcs, List.drop_left]
  have hlen : n + t.text.toList.length ≤ cs.length := by
    have := congrArg List.length hcs
    rw [List.length_drop, List.length_append] at this
    omega
  constructor
  · intro h
    have hbehind := List.pairwise_cons.mp h.ascending
    have happart := List.isChain_cons.mp h.apart
    have htail : Tiling cs (n + t.text.toList.length) ms := by
      refine ⟨fun m hm => ?_, hbehind.2, fun m hm => h.written m (List.mem_cons_of_mem _ hm),
        fun i c hi hc hout => h.blank i c (by omega) hc ?_, happart.2⟩
      · have hm' : n + t.text.toList.length ≤ m.span.start := hbehind.1 m hm
        have := h.inside m (List.mem_cons_of_mem _ hm)
        omega
      · refine List.forall_mem_cons.mpr ⟨fun hcov => ?_, hout⟩
        have hlt : i < n + t.text.toList.length := hcov.2
        omega
    refine ⟨htail, fun hkind => ?_⟩
    rw [← hrest, htail.endsName_iff]
    exact fun m hm => happart.1 m hm hkind
  · intro h
    obtain ⟨htail, hend⟩ := h
    refine ⟨?_, ?_, ?_, fun i c hi hc hout => ?_, ?_⟩
    · refine List.forall_mem_cons.mpr
        ⟨⟨Nat.le_refl n, Nat.lt_add_of_pos_right hpos, hlen⟩, fun m hm => ?_⟩
      have := htail.inside m hm
      omega
    · exact List.pairwise_cons.mpr ⟨fun m hm => (htail.inside m hm).1, htail.ascending⟩
    · refine List.forall_mem_cons.mpr ⟨⟨ht, ?_⟩, htail.written⟩
      rw [Span.slice, hcs, Nat.add_sub_cancel_left, List.take_left]
    · obtain ⟨hfirst, hout⟩ := List.forall_mem_cons.mp hout
      have hi' : ¬ i < n + t.text.toList.length := fun hlt => hfirst ⟨hi, hlt⟩
      exact htail.blank i c (by omega) hc hout
    · refine List.isChain_cons.mpr ⟨fun m hm hkind => ?_, htail.apart⟩
      exact htail.endsName_iff.mp (hrest.symm ▸ hend hkind) m hm

end

/-! ## The lexer -/

namespace Lexeme

/-- In front of a token the lexer takes the token, and goes on behind it. -/
theorem scan_token {t : Token} (ht : t.Writable) {rest : List Char}
    (hend : t.kind = .symbol → EndsName rest) (n : Nat) :
    scan n (t.text.toList ++ rest) =
      andThen ⟨t, n, n + t.text.toList.length⟩ (scan (n + t.text.toList.length) rest) := by
  rcases ht.cases with ⟨x, rfl, hx⟩ | ⟨c, hc, htext⟩
  · exact scan_name hx (hend rfl) n
  · rw [htext, List.singleton_append, scan_punctuation (Token.ofPunctuation?_eq_some hc).1 hc]
    rfl

/-- At a character that is not a blank the lexer finds a token, or nothing. -/
theorem exists_token_of_scan {n : Nat} {c : Char} {cs : List Char} {ls : List Lexeme}
    (hb : isBlank c = false) (h : scan n (c :: cs) = .ok ls) :
    ∃ (t : Token) (rest : List Char) (ms : List Lexeme), t.Writable ∧
      c :: cs = t.text.toList ++ rest ∧ (t.kind = .symbol → EndsName rest) ∧
      ls = ⟨t, n, n + t.text.toList.length⟩ :: ms ∧
      scan (n + t.text.toList.length) rest = .ok ms := by
  cases hp : Token.ofPunctuation? c with
  | some t =>
    rw [scan_punctuation hb hp] at h
    obtain ⟨ms, hms, rfl⟩ := andThen_eq_ok_iff.mp h
    have ht := Token.writable_of_ofPunctuation? hp
    have htext := Token.text_of_ofPunctuation? hp
    refine ⟨t, cs, ms, ht, by rw [htext]; rfl, fun hkind => ?_, by rw [htext]; rfl,
      by rw [htext]; exact hms⟩
    obtain ⟨-, halpha, -⟩ := Token.ofPunctuation?_eq_some hp
    rw [ht.kind_eq_symbol_iff (c := c) (by simp [htext]), halpha] at hkind
    cases hkind
  | none =>
    cases ha : isAlphanumeric c with
    | false =>
      rw [scan_stray hb hp ha] at h
      cases h
    | true =>
      rw [scan_word hb hp ha] at h
      obtain ⟨ms, hms, rfl⟩ := andThen_eq_ok_iff.mp h
      refine ⟨.symbol (String.ofList (c :: cs.takeWhile isAlphanumeric)),
        cs.dropWhile isAlphanumeric, ms, isName_takeWhile ha cs, ?_, fun _ => endsName_dropWhile cs,
        ?_, ?_⟩
      · simp [Token.text]
      · simp [Token.text]
      · simpa [Token.text] using hms

/-- From any place on, the lexer gives the tiling of the text from there on. -/
theorem scan_eq_ok_iff_tiling (cs : List Char) (n : Nat) :
    ∀ ls, scan n (cs.drop n) = .ok ls ↔ Tiling cs n ls := by
  -- A token may cover many characters, so the induction is on how many are left.
  induction hk : cs.length - n using Nat.strongRecOn generalizing n with
  | ind k ih =>
    intro ls
    cases hdrop : cs.drop n with
    | nil =>
      rw [scan_nil, tiling_end_iff (List.drop_eq_nil_iff.mp hdrop), Except.ok.injEq, eq_comm]
    | cons c rest =>
      have hc : cs[n]? = some c := by rw [← List.head?_drop, hdrop, List.head?_cons]
      have hn : n < cs.length := (List.getElem?_eq_some_iff.mp hc).1
      cases hb : isBlank c with
      | true =>
        have hrest : rest = cs.drop (n + 1) := by rw [← List.drop_drop, hdrop, List.drop_one]; rfl
        rw [scan_blank hb, tiling_blank_iff hc hb, hrest]
        exact ih _ (by omega) (n + 1) rfl ls
      | false =>
        have hbehind : ∀ {t : Token} {rest' : List Char} {ms : List Lexeme}, t.Writable →
            cs.drop n = t.text.toList ++ rest' →
            (scan (n + t.text.toList.length) rest' = .ok ms ↔
              Tiling cs (n + t.text.toList.length) ms) := by
          intro t rest' ms ht hcs
          have hpos := ht.length_pos
          have hrest : rest' = cs.drop (n + t.text.toList.length) := by
            rw [← List.drop_drop, hcs, List.drop_left]
          rw [hrest]
          exact ih _ (by omega) _ rfl ms
        constructor
        · intro h
          obtain ⟨t, rest', ms, ht, hsplit, hend, rfl, hms⟩ := exists_token_of_scan hb h
          have hcs := hdrop.trans hsplit
          exact (tiling_cons_iff ht hcs).mpr ⟨(hbehind ht hcs).mp hms, hend⟩
        · intro h
          obtain ⟨t, rest', ms, ht, hcs, rfl⟩ := h.exists_token hc hb
          obtain ⟨htail, hend⟩ := (tiling_cons_iff ht hcs).mp h
          rw [← hdrop, hcs, scan_token ht hend, (hbehind ht hcs).mpr htail]
          rfl

end Lexeme

/-- **The tokens of a text.** The empty text has its end as the only token. In any other text there
is some token before the end. The tokens stand one after the other, each where its own characters
stand, only blanks are left between them, and two names in a row do not touch. Nothing else is
accepted, so there is one such list at most. -/
theorem ofText_eq_ok_iff_tiling (s : String) (ls : List Lexeme) :
    Lexeme.ofText s = .ok ls ↔
      (s = "" ∧ ls = [⟨.endMarker, 0, 0⟩]) ∨
      ∃ ms, ms ≠ [] ∧ ls = ms ++ [⟨.endMarker, s.length, s.length⟩] ∧ Tiling s.toList 0 ms := by
  have hscan : ∀ ms, Lexeme.scan 0 s.toList = .ok ms ↔ Tiling s.toList 0 ms :=
    Lexeme.scan_eq_ok_iff_tiling s.toList 0
  rw [Lexeme.ofText_eq_ok_iff]
  constructor
  · intro h
    obtain ⟨ms, hms, hempty, rfl⟩ := h
    by_cases hne : ms = []
    · subst hne
      have hs := hempty rfl
      subst hs
      exact Or.inl ⟨rfl, rfl⟩
    · exact Or.inr ⟨ms, hne, rfl, (hscan ms).mp hms⟩
  · intro h
    rcases h with ⟨rfl, rfl⟩ | ⟨ms, hne, rfl, htiles⟩
    · exact ⟨[], Lexeme.scan_nil 0, fun _ => rfl, rfl⟩
    · exact ⟨ms, (hscan ms).mpr htiles, fun e => absurd e hne, rfl⟩

example : Lexeme.ofText " é2 (a)\t" =
    .ok [⟨.symbol "é2", 1, 3⟩, ⟨.leftParen, 4, 5⟩, ⟨.symbol "a", 5, 6⟩, ⟨.rightParen, 6, 7⟩,
      ⟨.endMarker, 8, 8⟩] := by decide +kernel

end TermRewriting
