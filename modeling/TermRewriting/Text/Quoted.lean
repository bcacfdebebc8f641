import TermRewriting.Text.Extending

/-!
# Quoted text

A text between double quotes. A quote or a backslash inside gets a backslash in front, and a
character that leaves no trace of its own is written by its number in lower case hexadecimal digits,
so that what is quoted can be told apart on paper.

Results:
* `escaped_of_plain`: every other character is written as it is.
* `isTraceless_of_lt`: every ASCII character leaves a trace.
-/
namespace TermRewriting.Text

def hexadecimal (n : Nat) : String := String.ofList (Nat.toDigits 16 n)

/-- A character written by its number. -/
def numbered (c : Char) : String := "\\u\x7b" ++ hexadecimal c.toNat ++ "\x7d"

/-- The letters that fill the place of a missing part of a Hangul syllable; they are not drawn. -/
def hangulFillers : List Char := ['\u115f', '\u1160', '\u3164', '\uffa0']

/-- The sound marks of half width. They join the character before them, but take a place of their
own in the line. -/
def halfWidthMarks : List Char := ['\uff9e', '\uff9f']

/-- Whether a character is not drawn, or only drawn onto the one before it. -/
def isTraceless (c : Char) : Bool :=
  hangulFillers.contains c || (isExtending c && !halfWidthMarks.contains c)

/-- A character as it is written between quotes. -/
def escaped (c : Char) : String :=
  if c = '"' then "\\\""
  else if c = '\\' then "\\\\"
  else if isTraceless c then numbered c
  else c.toString

def quoted (s : String) : String := "\"" ++ String.join (s.toList.map escaped) ++ "\""

/-- Whether a character is written as it is. -/
def isPlain (c : Char) : Bool := !(c == '"' || c == '\\' || isTraceless c)

theorem escaped_of_plain {c : Char} (h : isPlain c = true) : escaped c = c.toString := by
  simp only [isPlain, Bool.not_eq_true', Bool.or_eq_false_iff, beq_eq_false_iff_ne] at h
  simp [escaped, h.1.1, h.1.2, h.2]

theorem isTraceless_of_lt {c : Char} (h : c.toNat < 0x300) : isTraceless c = false := by
  have hf : c ∉ hangulFillers := by
    intro hc
    simp only [hangulFillers, List.mem_cons, List.not_mem_nil, or_false] at hc
    rcases hc with rfl | rfl | rfl | rfl <;> exact absurd h (by decide)
  simp [isTraceless, isExtending_of_lt h, hf]

end TermRewriting.Text
