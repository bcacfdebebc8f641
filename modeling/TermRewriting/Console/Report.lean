import TermRewriting.Error
import TermRewriting.Text.Lines

/-!
# Drawing an error

A report shows the line that an error is about, with an arrow from the place in question to a label
that says what stands there. Characters of the place are red, the others grey, and so is the frame.

The place is counted in the text that was read, and the report is drawn over a source; that they
belong together is up to the caller. So the place may go over several lines of the source. Then the
line where it starts and the one where it ends are shown, with the arrow in front of them and the
label below; one row stands for all lines between.

A tab is drawn as blanks up to the next multiple of four columns, and the arrow is made longer by as
much.

Results:
* `Report.ofError?_isSome`: every error but a failed substitution is drawn.
* `Report.lineAt_holds`: the line at a position of the source is the one that the position lies in.
-/
namespace TermRewriting

open Text

structure Report where
  span : Span
  message : String
  /-- What stands at the span, in words. -/
  found : String
  deriving DecidableEq, Repr

namespace Report

/-- The report of an error in a text; an error of a substitution has no place. -/
def ofError? : Error → Option Report
  | .lex e =>
    some ⟨e.span, e.message, match e.found with | some c => c.toString | none => "end of the input"⟩
  | .parse e => some ⟨e.span, e.message, e.found.text⟩
  | .substitution _ => none

theorem ofError?_isSome (e : Error) :
    (ofError? e).isSome = true ↔ ∀ s, e ≠ .substitution s := by
  cases e <;> simp [ofError?]

/-! ## Colours -/

/-- A text in a colour of the terminal. -/
def coloured (colour text : String) : String := "\x1b[" ++ colour ++ "m" ++ text ++ "\x1b[0m"

/-- The grey of the frame. -/
def framed (text : String) : String := coloured "38;5;246" text

/-- The lighter grey of what is not in question. -/
def faint (text : String) : String := coloured "38;5;249" text

/-- The red of the place in question. -/
def marked (text : String) : String := coloured "31" text

def repeated (n : Nat) (text : String) : String := String.join (List.replicate n text)

/-! ## The line in question -/

structure SourceLine where
  index : Nat
  /-- The offset of its first character. -/
  offset : Nat
  /-- How many characters it has, with the newline. -/
  length : Nat
  /-- Its characters without the blanks at the end. -/
  text : List Char
  deriving Repr

def sourceLines (index offset : Nat) : List (List Char) → List SourceLine
  | [] => []
  | raw :: rest =>
    ⟨index, offset, raw.length, dropTrailingBlanks raw⟩ ::
      sourceLines (index + 1) (offset + raw.length) rest

/-- The last line of some that begins at `position` or before. -/
def lastBefore (position : Nat) (lines : List SourceLine) : Option SourceLine :=
  (lines.filter (·.offset ≤ position)).getLast?

/-- The line of a position; behind the end it is the last line. -/
def lineAt (source : String) (position : Nat) : SourceLine :=
  (lastBefore position (sourceLines 0 0 (rawLines source.toList))).getD ⟨0, 0, 0, []⟩

theorem offset_le_of_mem_sourceLines {line : SourceLine} : ∀ {raws : List (List Char)}
    {index offset : Nat}, line ∈ sourceLines index offset raws → offset ≤ line.offset
  | [], _, _, h => nomatch h
  | raw :: rest, index, offset, h => by
    rcases List.mem_cons.mp h with rfl | h
    · exact Nat.le_refl _
    · exact Nat.le_trans (Nat.le_add_right _ _) (offset_le_of_mem_sourceLines h)

theorem lastBefore_sourceLines {position : Nat} : ∀ {raws : List (List Char)} {index offset : Nat},
    offset ≤ position → position < offset + raws.flatten.length →
    ∃ line, lastBefore position (sourceLines index offset raws) = some line ∧
      line.offset ≤ position ∧ position < line.offset + line.length
  | [], _, _, hle, hlt => by
    simp at hlt
    omega
  | raw :: rest, index, offset, hle, hlt => by
    rw [List.flatten_cons, List.length_append] at hlt
    rw [sourceLines, lastBefore, List.filter_cons_of_pos (by simpa using hle)]
    by_cases hraw : position < offset + raw.length
    · -- All later lines begin behind the position.
      have hlater : (sourceLines (index + 1) (offset + raw.length) rest).filter
          (·.offset ≤ position) = [] := by
        refine List.filter_eq_nil_iff.mpr fun line hline => ?_
        have hbehind := offset_le_of_mem_sourceLines hline
        simp only [decide_eq_true_eq]
        omega
      rw [hlater]
      exact ⟨_, rfl, hle, hraw⟩
    · have ih : ∃ line, lastBefore position (sourceLines (index + 1) (offset + raw.length) rest) =
          some line ∧ line.offset ≤ position ∧ position < line.offset + line.length :=
        lastBefore_sourceLines (by omega) (by omega)
      obtain ⟨line, hline, hholds⟩ := ih
      rw [lastBefore] at hline
      exact ⟨line, by rw [List.getLast?_cons, hline]; rfl, hholds⟩

theorem lineAt_holds {source : String} {position : Nat} (h : position < source.length) :
    (lineAt source position).offset ≤ position ∧
      position < (lineAt source position).offset + (lineAt source position).length := by
  have hlength : position < 0 + (rawLines source.toList).flatten.length := by
    rw [flatten_rawLines, String.length_toList, Nat.zero_add]
    exact h
  obtain ⟨line, hline, hholds⟩ := lastBefore_sourceLines (Nat.zero_le position) hlength
  rw [lineAt, hline]
  exact hholds

/-- How many cells the character of a column takes. -/
def SourceLine.width (line : SourceLine) (column : Nat) : Nat :=
  match line.text[column]? with
  | some '\t' => (column / 4 + 1) * 4 - column
  | _ => 1

/-- Whether the place in question holds the character of a column. -/
def covers (r : Report) (line : SourceLine) (column : Nat) : Bool :=
  r.span.start ≤ line.offset + column && line.offset + column < r.span.stop

/-! ## Rows -/

/-- The characters of the line, each in its colour. -/
def sourceCells (r : Report) (line : SourceLine) : List String :=
  line.text.mapIdx fun column c =>
    let ink := if r.covers line column then marked else faint
    if isBlank c then repeated (line.width column) (ink " ") else ink c.toString

/-- The column that the arrow comes from. -/
def middle (r : Report) (line : SourceLine) : Nat :=
  (r.span.start + r.span.stop) / 2 - line.offset

/-- A cell, and what fills the rest of a tab. -/
def cell (line : SourceLine) (column : Nat) (first filler : String) : String :=
  first ++ repeated (line.width column - 1) filler

/-- The number of columns that the arrow has cells for. -/
def columns (r : Report) (line : SourceLine) : Nat := r.span.stop - line.offset + 2

/-- The row under the line: a bar under the place, with the start of the arrow. -/
def barCells (r : Report) (line : SourceLine) : List String :=
  (List.range (r.columns line)).map fun column =>
    if column = r.middle line then
      if r.covers line column then cell line column (marked "┬") (marked "─")
      else cell line column (marked "│") (marked " ")
    else if r.covers line column then cell line column (marked "─") (marked "─")
    else cell line column " " " "

/-- The row below: the arrow to the label. -/
def arrowCells (r : Report) (line : SourceLine) : List String :=
  (List.range (r.columns line)).map fun column =>
    if column < r.middle line then cell line column " " " "
    else if column = r.middle line then cell line column (marked "╰") (marked "─")
    else cell line column (marked "─") (marked "─")

/-- The row under the last of several lines, in one ink: up to two columns behind the line. -/
def underCells (line : SourceLine) (ink : String) : List String :=
  (List.range (line.length + 2)).map fun column => cell line column ink ink

/-- The margin of a row that shows a line: the number of the line, flush right. -/
def numberMargin (width : Nat) (line : SourceLine) : String :=
  let number := toString (line.index + 1)
  " " ++ framed (repeated (width - number.length) " " ++ number ++ " │") ++ " "

/-- The margin of any other row. -/
def gapMargin (width : Nat) (mark : String) : String :=
  " " ++ framed (repeated (width + 1) " " ++ mark) ++ " "

def heading (r : Report) (width : Nat) (line : SourceLine) : List String :=
  let indent := repeated (width + 2) " "
  let column := toString (r.span.start - line.offset + 1)
  [marked "Error:" ++ " " ++ r.message,
    indent ++ framed "╭" ++ framed "─" ++ framed "[" ++ "<unknown>:" ++ toString (line.index + 1) ++
      ":" ++ column ++ framed "]",
    indent ++ framed "│"]

def label (r : Report) : String := " Unexpected " ++ marked r.found

def inlineRows (r : Report) (width : Nat) (line : SourceLine) : List String :=
  [numberMargin width line ++ String.join (r.sourceCells line),
    gapMargin width "·" ++ String.join (r.barCells line),
    gapMargin width "·" ++ String.join (r.arrowCells line) ++ r.label]

/-- The rows of a place that starts in one line and ends in another. -/
def acrossRows (r : Report) (width : Nat) (first last : SourceLine) : List String :=
  let arrow (corner : String) := marked corner ++ marked "─" ++ marked "▶" ++ marked " "
  let between :=
    if first.index + 1 < last.index then [gapMargin width "⋮" ++ marked "⋮" ++ "   "] else []
  [numberMargin width first ++ arrow "╭" ++ String.join (r.sourceCells first)] ++ between ++
    [numberMargin width last ++ arrow "├" ++ String.join (r.sourceCells last),
      gapMargin width "·" ++ marked "│" ++ "   " ++ String.join (underCells last " "),
      gapMargin width "·" ++ marked "╰" ++ marked "─" ++ marked "─" ++ marked "─" ++
        String.join (underCells last (marked "─")) ++ r.label]

/-- The offset of the last character of the place; its start, if it has none. -/
def lastOffset (r : Report) : Nat := max r.span.start (r.span.stop - 1)

def rows (r : Report) (source : String) : List String :=
  let first := lineAt source r.span.start
  let last := lineAt source r.lastOffset
  let width := (toString (last.index + 1)).length
  r.heading width first ++
    (if first.index = last.index then r.inlineRows width first
      else r.acrossRows width first last) ++
    [framed (repeated (width + 2) "─" ++ "╯")]

/-- The drawing over a source, each row with its newline. -/
def draw (r : Report) (source : String) : String :=
  String.join ((r.rows source).map (· ++ "\n"))

end Report

end TermRewriting
