import TermRewriting.Text.Lines

/-!
# The line history

A history holds the lines that were entered, the oldest first and the last hundred at most. An empty
line, and a line equal to the one before it, is not added. The history can be written to a file and
read back: a first line with the version of the format, then one line for each entry, in which a
newline is written as `\n` and a backslash twice. A file without the version line holds its entries
as they are.

Results:
* `History.decodeEntry_encodeEntry`: an entry is read back as it was written.
* `History.newline_not_mem_encodeEntry`: a written entry is one line.
* `History.entries_add`: what the entries are after adding one.
-/
namespace TermRewriting

open Text

/-- The lines entered, the oldest first, and whether some of them are not in the file yet. -/
structure History where
  entries : List String
  unsaved : Bool
  length_le : entries.length ≤ 100

namespace History

def empty : History := ⟨[], false, by simp⟩

def limit : Nat := 100

/-- Whether a line gets an entry of its own. -/
def accepts (h : History) (line : String) : Bool :=
  !line.isEmpty && h.entries.getLast? ≠ some line

/-- Adds a line; the oldest entry makes room for it. -/
def add (h : History) (line : String) : History :=
  if h.accepts line then
    { entries := (h.entries ++ [line]).drop (h.entries.length + 1 - limit)
      unsaved := true
      length_le := by simp [limit]; omega }
  else h

theorem entries_add (h : History) (line : String) : (h.add line).entries =
    if h.accepts line then (h.entries ++ [line]).drop (h.entries.length + 1 - limit)
    else h.entries := by
  unfold add
  split <;> rfl

/-- The same history, with all entries in the file. -/
def saved (h : History) : History := { h with unsaved := false }

/-! ## The file -/

def versionLine : String := "#V2"

def encodeEntry : List Char → List Char
  | [] => []
  | '\n' :: cs => '\\' :: 'n' :: encodeEntry cs
  | '\\' :: cs => '\\' :: '\\' :: encodeEntry cs
  | c :: cs => c :: encodeEntry cs

/-- The entry that a line was written for; `none` if a backslash stands before anything else. -/
def decodeEntry : List Char → Option (List Char)
  | [] => some []
  | '\\' :: 'n' :: cs => (decodeEntry cs).map ('\n' :: ·)
  | '\\' :: '\\' :: cs => (decodeEntry cs).map ('\\' :: ·)
  | c :: cs => if c = '\\' then none else (decodeEntry cs).map (c :: ·)

theorem decodeEntry_encodeEntry (cs : List Char) : decodeEntry (encodeEntry cs) = some cs := by
  fun_induction encodeEntry cs with
  | case1 => rfl
  | case2 cs ih => simp [decodeEntry, ih]
  | case3 cs ih => simp [decodeEntry, ih]
  | case4 c cs hn hb ih => simp_all [decodeEntry]

theorem newline_not_mem_encodeEntry (cs : List Char) : '\n' ∉ encodeEntry cs := by
  fun_induction encodeEntry cs with
  | case1 => simp
  | case2 cs ih => simp [ih]
  | case3 cs ih => simp [ih]
  | case4 c cs hn hb ih =>
    rw [List.mem_cons, not_or]
    exact ⟨fun e => hn e.symm, ih⟩

def fileText (h : History) : String :=
  versionLine ++ "\n" ++
    String.join (h.entries.map fun e => String.ofList (encodeEntry e.toList) ++ "\n")

/-- The entry of a line in a file with a version line. A line that cannot have been written there is
taken as it is. -/
def entryOfLine (line : List Char) : List Char := (decodeEntry line).getD line

def entriesOfLines : List (List Char) → List (List Char)
  | [] => []
  | first :: rest =>
    if first = versionLine.toList then rest.map entryOfLine else first :: rest

def ofFile (text : String) : History :=
  let entries := entriesOfLines ((rawLines text.toList).map withoutNewline)
  (entries.foldl (fun h e => h.add (String.ofList e)) empty).saved

/-- The text to write, if there is anything new in it. -/
def textToSave (h : History) : Option String := if h.unsaved then some h.fileText else none

end History

end TermRewriting
