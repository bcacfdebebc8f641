import TermRewriting.Error

/-!
# What was expected

A mismatch lists the tokens that could have been used, in any order and with any names, and the end
in two ways, by its marker or by no token at all. Its error tells them by kinds, in order and each
once. For that the kinds are sorted, and then of neighbours that are equal one is left. In the
order of the list equal kinds need not be neighbours, but once it is sorted they are.

An ascending list is determined by what is in it. So the error depends on which kinds are listed,
and on nothing else in the list.

Results:
* `mem_eraseReps`, `eraseReps_pairwise`: dropping repetitions, in any list and in a sorted one.
* `TokenKind.eq_arranged_iff`: the arranged list is the only ascending one with its kinds.
* `TokenKind.arranged_eq_filter`: arranging reads the kinds off the table of all kinds.
* `ParseError.mem_ofMismatch`, `Mismatch.expects_iff`: which kinds the error of a mismatch expects.
* `ParseError.ofMismatch_depends_on_kinds`: what the error of a mismatch depends on.
-/
namespace TermRewriting

/-! ## Dropping repetitions -/

theorem eraseRepsBy_loop {α : Type} (r : α → α → Bool) (a : α) (l acc : List α) :
    List.eraseRepsBy.loop r a l acc = acc.reverse ++ List.eraseRepsBy.loop r a l [] := by
  induction l generalizing a acc with
  | nil => simp [List.eraseRepsBy.loop]
  | cons b l ih =>
    rw [List.eraseRepsBy.loop, List.eraseRepsBy.loop]
    cases r a b with
    | true => exact ih a acc
    | false =>
      simp only
      rw [ih b (a :: acc), ih b [a]]
      simp

section Runs

variable {α : Type} [DecidableEq α]

theorem eraseReps_cons_cons (a b : α) (l : List α) :
    (a :: b :: l).eraseReps = if a = b then (b :: l).eraseReps else a :: (b :: l).eraseReps := by
  by_cases h : a = b
  · subst h
    simp [List.eraseReps, List.eraseRepsBy, List.eraseRepsBy.loop]
  · rw [if_neg h]
    simp only [List.eraseReps, List.eraseRepsBy, List.eraseRepsBy.loop, beq_eq_false_iff_ne.mpr h]
    rw [eraseRepsBy_loop]
    simp

@[simp] theorem mem_eraseReps {a : α} {l : List α} : a ∈ l.eraseReps ↔ a ∈ l := by
  induction l with
  | nil => exact Iff.rfl
  | cons b l ih =>
    cases l with
    | nil => exact Iff.rfl
    | cons c l =>
      rw [eraseReps_cons_cons]
      split
      · rename_i h
        subst h
        rw [ih]
        simp
      · rw [List.mem_cons, ih]
        exact List.mem_cons.symm

/-- In a sorted list what is equal stands together, so without repetitions nothing is there twice. -/
theorem eraseReps_pairwise {r : α → α → Prop} (antisymm : ∀ a b, r a b → r b a → a = b)
    {l : List α} (h : l.Pairwise r) : l.eraseReps.Pairwise fun a b => r a b ∧ a ≠ b := by
  induction l with
  | nil => exact .nil
  | cons b l ih =>
    cases l with
    | nil => exact List.pairwise_singleton _ _
    | cons c l =>
      rw [eraseReps_cons_cons]
      split
      · exact ih h.of_cons
      · rename_i hbc
        refine List.pairwise_cons.mpr ⟨fun d hd => ?_, ih h.of_cons⟩
        have hmem : d ∈ c :: l := mem_eraseReps.mp hd
        refine ⟨List.rel_of_pairwise_cons h hmem, fun hbd => ?_⟩
        subst hbd
        rcases List.mem_cons.mp hmem with hc | hl
        · exact hbc hc
        · -- `c` stands between two occurrences of `b`.
          exact hbc (antisymm b c (List.rel_of_pairwise_cons h List.mem_cons_self)
            (List.rel_of_pairwise_cons h.of_cons hl))

end Runs

/-! ## Kinds in order -/

namespace TokenKind

theorem rank_injective {a b : TokenKind} (h : a.rank = b.rank) : a = b := by
  cases a <;> cases b <;> cases h <;> rfl

theorem ne_of_lt {a b : TokenKind} (h : a < b) : a ≠ b := by
  intro hab
  subst hab
  exact Nat.lt_irrefl _ h

@[simp] theorem mem_arranged {k : TokenKind} {ks : List TokenKind} : k ∈ arranged ks ↔ k ∈ ks := by
  rw [arranged, mem_eraseReps, List.mem_mergeSort]

theorem arranged_ascending (ks : List TokenKind) : (arranged ks).Pairwise (· < ·) := by
  have hsorted : (ks.mergeSort fun a b => a.rank ≤ b.rank).Pairwise fun a b => a.rank ≤ b.rank := by
    have hle : (ks.mergeSort fun a b => a.rank ≤ b.rank).Pairwise
        fun a b => decide (a.rank ≤ b.rank) = true :=
      List.pairwise_mergeSort (fun a b c => by simpa using Nat.le_trans)
        (fun a b => by simpa using Nat.le_total a.rank b.rank) ks
    simpa only [decide_eq_true_eq] using hle
  have hdistinct := eraseReps_pairwise
    (fun a b hab hba => rank_injective (Nat.le_antisymm hab hba)) hsorted
  exact hdistinct.imp fun ⟨hle, hne⟩ => Nat.lt_of_le_of_ne hle fun h => hne (rank_injective h)

/-- There is one ascending list with the kinds of a list. -/
theorem eq_arranged_iff {ks ls : List TokenKind} :
    ls = arranged ks ↔ ls.Pairwise (· < ·) ∧ ∀ k, k ∈ ls ↔ k ∈ ks := by
  constructor
  · intro h
    rw [h]
    exact ⟨arranged_ascending ks, fun k => mem_arranged⟩
  · intro ⟨hls, hmem⟩
    have hks := arranged_ascending ks
    have hperm : ls.Perm (arranged ks) :=
      (List.perm_ext_iff_of_nodup (hls.imp ne_of_lt) (hks.imp ne_of_lt)).mpr fun k => by
        rw [hmem, mem_arranged]
    exact hperm.eq_of_pairwise (fun a b _ _ hab hba => absurd hba (Nat.lt_asymm hab)) hls hks

theorem arranged_eq_filter (ks : List TokenKind) : arranged ks = all.filter (· ∈ ks) := by
  symm
  rw [eq_arranged_iff]
  refine ⟨all_ascending.filter _, fun k => ?_⟩
  simp [mem_all]

end TokenKind

/-! ## The error of a mismatch -/

/-- The kind is that of a token that could have been used, or the end could have been. -/
def Mismatch.Expects (m : Mismatch) (k : TokenKind) : Prop :=
  ∃ t ∈ m.expected, Token.kindOrEnd t = k

/-- What is expected of a mismatch is what tokens it lists, and the end if it lists no token. -/
theorem Mismatch.expects_iff {m : Mismatch} {k : TokenKind} :
    m.Expects k ↔
      (∃ t, some t ∈ m.expected ∧ t.kind = k) ∨ (none ∈ m.expected ∧ k = .endMarker) := by
  constructor
  · intro h
    obtain ⟨t, hmem, ht⟩ := h
    cases t with
    | some t => exact Or.inl ⟨t, hmem, ht⟩
    | none => exact Or.inr ⟨hmem, ht.symm⟩
  · intro h
    rcases h with ⟨t, hmem, ht⟩ | ⟨hmem, rfl⟩
    · exact ⟨some t, hmem, ht⟩
    · exact ⟨none, hmem, rfl⟩

namespace ParseError

theorem found_ofMismatch (m : Mismatch) :
    (ofMismatch m).found = (m.found.map Token.kind).getD .endMarker := by
  show Token.kindOrEnd m.found = _
  cases m.found <;> rfl

theorem mem_ofMismatch {m : Mismatch} {k : TokenKind} :
    k ∈ (ofMismatch m).expected ↔ m.Expects k := by
  rw [ofMismatch, TokenKind.mem_arranged, List.mem_map]
  rfl

theorem ofMismatch_ascending (m : Mismatch) : (ofMismatch m).expected.Pairwise (· < ·) :=
  TokenKind.arranged_ascending _

theorem ofMismatch_expected_eq_iff {m n : Mismatch} :
    (ofMismatch m).expected = (ofMismatch n).expected ↔ ∀ k, m.Expects k ↔ n.Expects k := by
  constructor
  · intro h k
    rw [← mem_ofMismatch, ← mem_ofMismatch, h]
  · intro h
    refine TokenKind.eq_arranged_iff.mpr ⟨ofMismatch_ascending m, fun k => ?_⟩
    rw [mem_ofMismatch, h, List.mem_map]
    rfl

/-- **What an error is made of.** The error of a mismatch has its place, and the kind of the token
that was found; no token counts as the end. The expected kinds are in ascending order, and are those
of the tokens that could have been used; the end is one of them if its marker or no token could have
been. Two mismatches have the same error exactly if they have the same place and found the same
kind, and their lists have the same kinds in them, in whatever order, how often, and with whatever
names. -/
theorem ofMismatch_depends_on_kinds :
    (∀ m : Mismatch, (ofMismatch m).span = m.span ∧
      (ofMismatch m).found = (m.found.map Token.kind).getD .endMarker ∧
      (ofMismatch m).expected.Pairwise (· < ·) ∧
      (∀ k, k ∈ (ofMismatch m).expected ↔ ∃ t ∈ m.expected, Token.kindOrEnd t = k) ∧
      ∀ k, k ∈ (ofMismatch m).expected ↔
        (∃ t, some t ∈ m.expected ∧ t.kind = k) ∨ (none ∈ m.expected ∧ k = .endMarker)) ∧
    ∀ m n : Mismatch, ofMismatch m = ofMismatch n ↔
      m.span = n.span ∧ Token.kindOrEnd m.found = Token.kindOrEnd n.found ∧
        ∀ k, (∃ t ∈ m.expected, Token.kindOrEnd t = k) ↔ ∃ t ∈ n.expected, Token.kindOrEnd t = k := by
  refine ⟨fun m => ⟨rfl, found_ofMismatch m, ofMismatch_ascending m, fun k => mem_ofMismatch,
    fun k => mem_ofMismatch.trans Mismatch.expects_iff⟩, fun m n => ?_⟩
  constructor
  · intro h
    refine ⟨congrArg span h, congrArg found h, ?_⟩
    exact ofMismatch_expected_eq_iff.mp (congrArg expected h)
  · intro ⟨hspan, hfound, hkinds⟩
    have hexpected := ofMismatch_expected_eq_iff.mpr hkinds
    rw [ParseError.mk.injEq]
    exact ⟨hspan, hexpected, hfound⟩

/-- Two names are one kind, and so are the end marker and no token. -/
example : ofMismatch ⟨⟨2, 3⟩, [some .endMarker, some (.symbol "x"), none, some (.symbol "y")], none⟩ =
    ⟨⟨2, 3⟩, [.symbol, .endMarker], .endMarker⟩ := by cbv

end ParseError

end TermRewriting
