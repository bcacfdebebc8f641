import TermRewriting.Text.Blank

/-!
# Commands

A line that begins with a colon names a command: blanks behind the colon are skipped, the word goes
up to the first space, and what comes behind that space is handed to the command as it is. Any other
line is handed over as a whole, with an empty command word.

Results:
* `cutAtSpace_eq_iff`: where a text is cut at its first space.
* `splitCommand_of_no_colon`: a line without a colon at its start has no command word.
* `splitCommand_colon`: of a line with a colon, only the blanks behind it and one space are lost.
* `splitCommand_word`: a line made of a word and a text is cut into them again.
* `head?_ne_colon_of_allBlank`: a line of blanks names no command.
-/
namespace TermRewriting

open Text

/-- Cuts a text at the first space; the space is lost. -/
def cutAtSpace (cs : List Char) : List Char × List Char :=
  (cs.takeWhile (· ≠ ' '), (cs.dropWhile (· ≠ ' ')).drop 1)

/-- A text is cut at its first space, which is lost; a text without a space is left whole. -/
theorem cutAtSpace_eq_iff {cs word text : List Char} : cutAtSpace cs = (word, text) ↔
    ' ' ∉ word ∧ (cs = word ∧ text = [] ∨ cs = word ++ ' ' :: text) := by
  have hclass : (∀ c ∈ word, decide (c ≠ ' ') = true) ↔ ' ' ∉ word := by
    simp only [decide_eq_true_eq]
    exact ⟨fun h hmem => h ' ' hmem rfl, fun h c hc hspace => h (hspace ▸ hc)⟩
  rw [cutAtSpace, Prod.mk.injEq]
  constructor
  · intro h
    obtain ⟨hword, htext⟩ := h
    obtain ⟨hcs, hfront, hback⟩ := takeWhile_dropWhile_iff.mp ⟨hword, rfl⟩
    refine ⟨hclass.mp hfront, ?_⟩
    cases hrest : cs.dropWhile (· ≠ ' ') with
    | nil =>
      rw [hrest] at hcs htext
      exact Or.inl ⟨by rw [hcs, List.append_nil], htext.symm⟩
    | cons c back =>
      rw [hrest] at hcs htext hback
      have hc : c = ' ' := by simpa using hback c rfl
      have hbehind : back = text := htext
      exact Or.inr (by rw [hcs, hc, hbehind])
  · intro h
    obtain ⟨hspace, hcs⟩ := h
    have hfront := hclass.mpr hspace
    rcases hcs with ⟨hcs, htext⟩ | hcs
    · obtain ⟨hword, hback⟩ := takeWhile_dropWhile_iff.mpr
        ⟨show cs = word ++ [] by rw [hcs, List.append_nil], hfront, by simp⟩
      rw [hword, hback, htext]
      exact ⟨rfl, rfl⟩
    · obtain ⟨hword, hback⟩ := takeWhile_dropWhile_iff.mpr ⟨hcs, hfront, by simp⟩
      rw [hword, hback]
      exact ⟨rfl, rfl⟩

/-- The command word of a line, and what is handed to the command. -/
def splitCommand (line : String) : String × String :=
  match line.toList with
  | ':' :: cs =>
    let (word, rest) := cutAtSpace (dropBlanks cs)
    (String.ofList word, String.ofList rest)
  | _ => ("", line)

theorem splitCommand_of_no_colon {line : String} (h : line.toList.head? ≠ some ':') :
    splitCommand line = ("", line) := by
  unfold splitCommand
  split
  · rename_i cs heq
    simp [heq] at h
  · rfl

theorem splitCommand_colon {line : String} {cs : List Char} (h : line.toList = ':' :: cs) :
    splitCommand line =
      (String.ofList (cutAtSpace (dropBlanks cs)).1, String.ofList (cutAtSpace (dropBlanks cs)).2) := by
  simp [splitCommand, h]

theorem splitCommand_word {blanks word : String} {c : Char} {cs : List Char}
    (hblanks : ∀ d ∈ blanks.toList, isBlank d = true) (hword : word.toList = c :: cs)
    (hc : isBlank c = false) (hspace : ' ' ∉ word.toList) (rest : String) :
    splitCommand (":" ++ blanks ++ word ++ " " ++ rest) = (word, rest) := by
  have hline : (":" ++ blanks ++ word ++ " " ++ rest).toList =
      ':' :: (blanks.toList ++ (word.toList ++ ' ' :: rest.toList)) := by simp
  have hdrop : dropBlanks (blanks.toList ++ (word.toList ++ ' ' :: rest.toList)) =
      word.toList ++ ' ' :: rest.toList :=
    (takeWhile_dropWhile_iff.mpr ⟨rfl, hblanks, by simp [hword, hc]⟩).2
  have hcut : cutAtSpace (word.toList ++ ' ' :: rest.toList) = (word.toList, rest.toList) :=
    cutAtSpace_eq_iff.mpr ⟨hspace, Or.inr rfl⟩
  rw [splitCommand_colon hline, hdrop, hcut, String.ofList_toList, String.ofList_toList]

theorem head?_ne_colon_of_allBlank {line : String} (h : allBlank line = true) :
    line.toList.head? ≠ some ':' := by
  intro hc
  have hblank := List.all_eq_true.mp h ':' (List.mem_of_head? hc)
  revert hblank
  decide

inductive Command where
  /-- Show the tokens of a text. -/
  | tokenize
  /-- Show a term. -/
  | parse
  /-- Set the rule. -/
  | rule
  /-- Match the right side of `pattern = term` against the left one. -/
  | matchTerms
  /-- Rewrite a term. -/
  | apply
  /-- Show the list of commands. -/
  | help
  /-- There is no such command. -/
  | unknown (word : String)
  deriving DecidableEq, Repr

/-- The command that a word names. The common ones have short names, and help may be cut short. -/
def Command.ofWord : String → Command
  | "to" | "tokenize" => .tokenize
  | "p" | "parse" => .parse
  | "r" | "rule" => .rule
  | "m" | "match" => .matchTerms
  | "" | "a" | "apply" => .apply
  | "h" | "he" | "hel" | "help" => .help
  | word => .unknown word

def helpLines : List String :=
  ["term                    -- same as :apply term",
    ":tokenize   text        -- show tokenized text",
    ":parse      term        -- show parsed term",
    ":rule       head = body -- set the rule used by :apply",
    ":match      pattern = term",
    "                        -- show the bindings of term against pattern",
    ":apply      term        -- rewrite every match of the rule in term, once",
    ":help                   -- show this message"]

def helpText : String := "\n".intercalate helpLines

end TermRewriting
