import TermRewriting.Proofs.Spans

/-!
# Texts without tokens

A stray character belongs to no token and is no blank. The lexer breaks off at the first one in the
text: what it has read before is lost, and what comes behind is not read. In a text without stray
characters there is one error left, a text of blanks alone.

A run of characters that are not stray is passed over as a whole (`firstStray_append`), however the
lexer cuts it into blanks and tokens.

Results:
* `stray_iff`: the characters that the lexer has no case for.
* `Lexeme.scan_eq_error_iff`: the lexer breaks off at the first stray character.
* `Lexeme.scan_eq_nil_iff`: the lexer finds no token in blanks alone.
* `ofText_error_iff_stray_or_blank`: the texts that have no tokens, and their errors.
-/
namespace TermRewriting

open Text

/-! ## Stray characters -/

/-- Neither a blank, nor a letter or a number, nor a token by itself. -/
def Stray (c : Char) : Prop :=
  isBlank c = false ∧ isAlphanumeric c = false ∧ c ∉ ['(', ')', ',', '=']

instance (c : Char) : Decidable (Stray c) := inferInstanceAs (Decidable (_ ∧ _ ∧ _))

theorem Token.ofPunctuation?_eq_none_iff {c : Char} :
    Token.ofPunctuation? c = none ↔ c ∉ ['(', ')', ',', '='] := by
  unfold Token.ofPunctuation?
  split <;> simp_all

theorem stray_iff {c : Char} :
    Stray c ↔ isBlank c = false ∧ Token.ofPunctuation? c = none ∧ isAlphanumeric c = false := by
  rw [Stray, Token.ofPunctuation?_eq_none_iff, and_comm (a := isAlphanumeric c = false)]

theorem not_stray_of_isBlank {c : Char} (h : isBlank c = true) : ¬ Stray c := by
  simp [Stray, h]

theorem not_stray_of_isAlphanumeric {c : Char} (h : isAlphanumeric c = true) : ¬ Stray c := by
  simp [Stray, h]

theorem not_stray_of_ofPunctuation? {c : Char} {t : Token} (h : Token.ofPunctuation? c = some t) :
    ¬ Stray c := by
  simp [stray_iff, h]

/-- The error at the first stray character of a text that begins at the place `n`. -/
def FirstStray (n : Nat) (cs : List Char) (e : LexError) : Prop :=
  ∃ before c after, cs = before ++ c :: after ∧ (∀ d ∈ before, ¬ Stray d) ∧ Stray c ∧
    e = ⟨some c, n + before.length⟩

section
variable {n : Nat} {c : Char} {cs ds : List Char} {e : LexError}

theorem not_firstStray_nil : ¬ FirstStray n [] e := by
  rintro ⟨before, c, after, h, -⟩
  simp at h

theorem firstStray_of_stray (h : Stray c) : FirstStray n (c :: cs) e ↔ e = ⟨some c, n⟩ := by
  constructor
  · rintro ⟨before, d, after, hcs, hbefore, -, rfl⟩
    cases before with
    | nil =>
      cases hcs
      rfl
    | cons b before =>
      cases hcs
      exact absurd h (hbefore c List.mem_cons_self)
  · intro he
    exact ⟨[], c, cs, rfl, by simp, h, he⟩

theorem firstStray_cons (h : ¬ Stray c) :
    FirstStray n (c :: cs) e ↔ FirstStray (n + 1) cs e := by
  constructor
  · rintro ⟨before, d, after, hcs, hbefore, hd, rfl⟩
    cases before with
    | nil =>
      cases hcs
      exact absurd hd h
    | cons b before =>
      cases hcs
      refine ⟨before, d, after, rfl, (List.forall_mem_cons.mp hbefore).2, hd, ?_⟩
      rw [List.length_cons, Nat.add_assoc, Nat.add_comm 1]
  · rintro ⟨before, d, after, rfl, hbefore, hd, rfl⟩
    refine ⟨c :: before, d, after, rfl, List.forall_mem_cons.mpr ⟨h, hbefore⟩, hd, ?_⟩
    rw [List.length_cons, Nat.add_assoc, Nat.add_comm 1]

theorem firstStray_append (h : ∀ d ∈ ds, ¬ Stray d) :
    FirstStray n (ds ++ cs) e ↔ FirstStray (n + ds.length) cs e := by
  induction ds generalizing n with
  | nil => rfl
  | cons d ds ih =>
    obtain ⟨hd, hds⟩ := List.forall_mem_cons.mp h
    rw [List.cons_append, firstStray_cons hd, ih hds, List.length_cons, Nat.add_assoc,
      Nat.add_comm 1]

theorem exists_firstStray_iff : (∃ e, FirstStray n cs e) ↔ ∃ c ∈ cs, Stray c := by
  induction cs generalizing n with
  | nil => simp [not_firstStray_nil]
  | cons c cs ih =>
    by_cases h : Stray c
    · simp [firstStray_of_stray h, h]
    · simp [firstStray_cons h, ih, h]

end

/-! ## The lexer -/

namespace Lexeme

theorem andThen_eq_error_iff {l : Lexeme} {rest : Except LexError (List Lexeme)} {e : LexError} :
    andThen l rest = .error e ↔ rest = .error e := by
  cases rest <;> simp [andThen, Except.map]

theorem scan_eq_error_iff (n : Nat) (cs : List Char) (e : LexError) :
    scan n cs = .error e ↔ FirstStray n cs e := by
  induction n, cs using scan.induct with
  | case1 n => simp [scan_nil, not_firstStray_nil]
  | case2 n c cs hb ih => rw [scan_blank hb, ih, firstStray_cons (not_stray_of_isBlank hb)]
  | case3 n c cs hb t hp ih =>
    rw [scan_punctuation (by simpa using hb) hp, andThen_eq_error_iff, ih,
      firstStray_cons (not_stray_of_ofPunctuation? hp)]
  | case4 n c cs hb hp ha name next ih =>
    -- The whole name is passed over, as the lexer does.
    have hname : ∀ d ∈ name, ¬ Stray d := by
      intro d hd
      have hall := (isName_takeWhile ha cs).2
      rw [String.toList_ofList] at hall
      exact not_stray_of_isAlphanumeric (hall d hd)
    have hsplit : c :: cs = name ++ cs.dropWhile isAlphanumeric := by
      rw [List.cons_append, List.takeWhile_append_dropWhile]
    rw [scan_word (by simpa using hb) hp ha, andThen_eq_error_iff, ih, hsplit,
      firstStray_append hname]
  | case5 n c cs hb hp ha =>
    have hb : isBlank c = false := by simpa using hb
    have ha : isAlphanumeric c = false := by simpa using ha
    rw [scan_stray hb hp ha, firstStray_of_stray (stray_iff.mpr ⟨hb, hp, ha⟩), Except.error.injEq,
      eq_comm]

theorem scan_eq_nil_iff (cs : List Char) : scan 0 cs = .ok [] ↔ ∀ c ∈ cs, isBlank c = true := by
  rw [← List.drop_zero (l := cs), scan_eq_ok_iff_tiling, List.drop_zero]
  constructor
  · intro h c hc
    obtain ⟨i, hi⟩ := List.mem_iff_getElem?.mp hc
    exact h.blank i c (Nat.zero_le i) hi (by simp)
  · intro h
    exact ⟨by simp, .nil, by simp, fun i c _ hc _ => h c (List.mem_of_getElem? hc), .nil⟩

theorem ofText_eq_error_iff {s : String} {e : LexError} :
    ofText s = .error e ↔
      scan 0 s.toList = .error e ∨
      scan 0 s.toList = .ok [] ∧ s ≠ "" ∧ e = ⟨none, s.length⟩ := by
  rw [ofText]
  cases hscan : scan 0 s.toList with
  | error e' => simp
  | ok ls =>
    cases ls with
    | cons l ls => simp
    | nil =>
      by_cases hs : s = ""
      · simp [hs]
      · simp [hs, eq_comm (a := e)]

end Lexeme

/-- **The texts that the lexer refuses.** They are those with a stray character, and those that are
not empty and consist of blanks only. A text with stray characters is refused at the first one. The
error names it, and the number of the characters before it; what these are, and what comes behind,
has no part in it. A text of blanks is refused at its end. -/
theorem ofText_error_iff_stray_or_blank (s : String) :
    ((∃ e, Lexeme.ofText s = .error e) ↔
      (∃ c ∈ s.toList, Stray c) ∨ s ≠ "" ∧ ∀ c ∈ s.toList, isBlank c = true) ∧
    ∀ e, Lexeme.ofText s = .error e ↔
      (∃ before c after, s.toList = before ++ c :: after ∧ (∀ d ∈ before, ¬ Stray d) ∧ Stray c ∧
        e = ⟨some c, before.length⟩) ∨
      s ≠ "" ∧ (∀ c ∈ s.toList, isBlank c = true) ∧ e = ⟨none, s.length⟩ := by
  have herror : ∀ e, Lexeme.ofText s = .error e ↔ FirstStray 0 s.toList e ∨
      s ≠ "" ∧ (∀ c ∈ s.toList, isBlank c = true) ∧ e = ⟨none, s.length⟩ := by
    intro e
    rw [Lexeme.ofText_eq_error_iff, Lexeme.scan_eq_error_iff, Lexeme.scan_eq_nil_iff,
      and_left_comm]
  constructor
  · rw [← exists_firstStray_iff (n := 0)]
    simp [herror, exists_or]
  · intro e
    simpa [FirstStray] using herror e

example : Lexeme.ofText "é(\u3000aß, b) = a_b" = .error ⟨some '_', 13⟩ := by decide +kernel

example : Lexeme.ofText " \t\u2003" = .error ⟨none, 3⟩ := by decide +kernel

end TermRewriting
