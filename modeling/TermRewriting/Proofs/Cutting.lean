import Mathlib.Logic.ExistsUnique
import TermRewriting.Console.Command

/-!
# Where a line is cut

A line that names a command is cut twice. The blanks behind the colon are cut off, and there every
blank of Unicode counts. What is left is cut at its first space, and there only the space U+0020
counts, so a tab or a line break stays in the word. The blanks and that space are put back between
the colon, the word and the text to get the line again; nothing else is lost.

A cut is said here without the functions that make it, by what the pieces are and how the line is
made of them. A line has no other cut than the one that is made, so this says what the pieces are.

Results:
* `Cut.splitCommand_eq`, `Cut.blanks_unique`: a line has at most one cut.
* `exists_cut`: a line that begins with a colon has one.
* `splitCommand_loses_nothing`: what becomes of every line.
-/
namespace TermRewriting

open Text

/-- The line is a colon, blanks and a rest; the rest is a word, or a word, a space and a text. -/
structure Cut (line blanks rest word text : String) : Prop where
  line_eq : line = ":" ++ blanks ++ rest
  allBlank_blanks : allBlank blanks = true
  /-- There are no more blanks behind the colon. -/
  unblank : ∀ c ∈ rest.toList.head?, isBlank c = false
  /-- The word ends at the first space. -/
  spaceless : ' ' ∉ word.toList
  rest_eq : rest = word ∧ text = "" ∨ rest = word ++ " " ++ text

namespace Cut

variable {line blanks rest word text blanks' rest' word' text' : String}

theorem toList_line (h : Cut line blanks rest word text) :
    line.toList = ':' :: (blanks.toList ++ rest.toList) := by
  rw [h.line_eq]
  simp

theorem takeWhile_dropWhile (h : Cut line blanks rest word text) :
    (blanks.toList ++ rest.toList).takeWhile isBlank = blanks.toList ∧
      (blanks.toList ++ rest.toList).dropWhile isBlank = rest.toList :=
  takeWhile_dropWhile_iff.mpr ⟨rfl, List.all_eq_true.mp h.allBlank_blanks, h.unblank⟩

theorem cutAtSpace_eq (h : Cut line blanks rest word text) :
    cutAtSpace rest.toList = (word.toList, text.toList) := by
  refine cutAtSpace_eq_iff.mpr ⟨h.spaceless, ?_⟩
  rcases h.rest_eq with ⟨hrest, htext⟩ | hrest
  · exact Or.inl ⟨by rw [hrest], by rw [htext]; rfl⟩
  · exact Or.inr (by rw [hrest]; simp)

/-- The pieces of a cut are what the line is cut into. -/
theorem splitCommand_eq (h : Cut line blanks rest word text) : splitCommand line = (word, text) := by
  have hrest : dropBlanks (blanks.toList ++ rest.toList) = rest.toList := h.takeWhile_dropWhile.2
  rw [splitCommand_colon h.toList_line, hrest, h.cutAtSpace_eq, String.ofList_toList,
    String.ofList_toList]

theorem blanks_unique (h : Cut line blanks rest word text)
    (h' : Cut line blanks' rest' word' text') : blanks = blanks' := by
  have hline := h.toList_line.symm.trans h'.toList_line
  have hblanks := h.takeWhile_dropWhile.1
  rw [(List.cons.inj hline).2, h'.takeWhile_dropWhile.1] at hblanks
  exact String.toList_inj.mp hblanks.symm

end Cut

theorem exists_cut {line : String} (h : line.toList.head? = some ':') :
    ∃ blanks rest word text, Cut line blanks rest word text := by
  obtain ⟨cs, hline⟩ := List.head?_eq_some_iff.mp h
  obtain ⟨blanks, rest, hrun⟩ :
      ∃ blanks rest, cs.takeWhile isBlank = blanks ∧ cs.dropWhile isBlank = rest :=
    ⟨_, _, rfl, rfl⟩
  obtain ⟨word, text, hword⟩ : ∃ word text, cutAtSpace rest = (word, text) := ⟨_, _, rfl⟩
  obtain ⟨hcs, hblanks, hunblank⟩ := takeWhile_dropWhile_iff.mp hrun
  obtain ⟨hspace, hrest⟩ := cutAtSpace_eq_iff.mp hword
  refine ⟨String.ofList blanks, String.ofList rest, String.ofList word, String.ofList text,
    ?_, ?_, ?_, ?_, ?_⟩
  · rw [← String.toList_inj, hline, hcs]
    simp
  · rw [allBlank, String.toList_ofList]
    exact List.all_eq_true.mpr hblanks
  · rw [String.toList_ofList]
    exact hunblank
  · rw [String.toList_ofList]
    exact hspace
  · rcases hrest with ⟨hrest, htext⟩ | hrest
    · exact Or.inl ⟨by rw [hrest], by rw [htext]⟩
    · refine Or.inr (String.toList_inj.mp ?_)
      rw [hrest]
      simp

/-- **Where lines are cut.** A line that does not begin with a colon is left whole, and names no
command. Any other line is a colon, blanks, and a word without spaces, with nothing more or with one
space and the text behind it, and only one stretch of blanks makes it so; there is no other way to
cut it like that. So a line that is put together from a word and a text is cut into them, with any
blanks in front of the word and whatever the text is. -/
theorem splitCommand_loses_nothing :
    (∀ line : String, line.toList.head? ≠ some ':' → splitCommand line = ("", line)) ∧
    (∀ line : String, line.toList.head? = some ':' →
      (∃! blanks, ∃ rest, Cut line blanks rest (splitCommand line).1 (splitCommand line).2) ∧
      ∀ blanks rest word text, Cut line blanks rest word text → splitCommand line = (word, text)) ∧
    ∀ blanks word text : String, allBlank blanks = true → word ≠ "" → ' ' ∉ word.toList →
      (∀ c ∈ word.toList.head?, isBlank c = false) →
      splitCommand (":" ++ blanks ++ word ++ " " ++ text) = (word, text) := by
  refine ⟨fun line h => splitCommand_of_no_colon h, fun line h => ⟨?_, ?_⟩, ?_⟩
  · obtain ⟨blanks, rest, word, text, hcut⟩ := exists_cut h
    rw [hcut.splitCommand_eq]
    exact ⟨blanks, ⟨rest, hcut⟩, fun blanks' ⟨rest', hcut'⟩ => hcut'.blanks_unique hcut⟩
  · exact fun blanks rest word text hcut => hcut.splitCommand_eq
  · intro blanks word text hblanks hne hspace hunblank
    cases hword : word.toList with
    | nil => exact absurd (String.toList_eq_nil_iff.mp hword) hne
    | cons c cs =>
      have hc := hunblank c (by rw [hword]; rfl)
      exact splitCommand_word (List.all_eq_true.mp hblanks) hword hc hspace text

/-- The no-break space and the tab in front of the word are cut off, the tab in it is not, and of the
two spaces behind it the second belongs to the text. A colon alone has an empty word. -/
theorem splitCommand_loses_nothing_tabs :
    let line := ":\u00a0\tp\tq  r"
    splitCommand "p: q" = ("", "p: q") ∧ splitCommand line = ("p\tq", " r") ∧
      (∃! blanks, ∃ rest, Cut line blanks rest (splitCommand line).1 (splitCommand line).2) ∧
      splitCommand ":" = ("", "") ∧
      splitCommand (":" ++ "\u00a0\t" ++ "p\tq" ++ " " ++ " r") = ("p\tq", " r") := by
  intro line
  obtain ⟨hwhole, hcolon, hword⟩ := splitCommand_loses_nothing
  have hcut : Cut line "\u00a0\t" "p\tq  r" "p\tq" " r" := by
    refine ⟨by decide, by decide, ?_, by decide, Or.inr (by decide)⟩
    intro c hc
    cases hc
    decide
  have hempty : Cut ":" "" "" "" "" := by
    refine ⟨by decide, by decide, ?_, by decide, Or.inl ⟨rfl, rfl⟩⟩
    intro c hc
    cases hc
  obtain ⟨hblanks, hpieces⟩ := hcolon line (by decide)
  refine ⟨hwhole _ (by decide), hpieces _ _ _ _ hcut, hblanks, ?_, ?_⟩
  · exact (hcolon ":" (by decide)).2 _ _ _ _ hempty
  · refine hword _ _ _ (by decide) (by decide) (by decide) ?_
    intro c hc
    cases hc
    decide

end TermRewriting
