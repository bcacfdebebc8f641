import TermRewriting.Text.Ranges

/-!
# Blanks

The characters with the Unicode property `White_Space`. They separate tokens and mean nothing else.
The control characters U+001C to U+001F and the zero width space are not among them.

Results:
* `ascending_blank`: the table is in ascending order.
* `isBlank_of_isWhitespace`: the ASCII blanks are in the class.
-/
namespace TermRewriting.Text

def blankRanges : List Range :=
  [(0x9, 0xD), (0x20, 0x20), (0x85, 0x85), (0xA0, 0xA0), (0x1680, 0x1680), (0x2000, 0x200A),
    (0x2028, 0x2029), (0x202F, 0x202F), (0x205F, 0x205F), (0x3000, 0x3000)]

def isBlank (c : Char) : Bool := inRanges blankRanges c.toNat

theorem ascending_blank : ascendingFrom 0 blankRanges = true := by decide +kernel

theorem isBlank_of_isWhitespace {c : Char} (h : c.isWhitespace = true) : isBlank c = true := by
  simp only [Char.isWhitespace, Bool.or_eq_true, decide_eq_true_eq] at h
  rcases h with ((rfl | rfl) | rfl) | rfl <;> decide

def allBlank (s : String) : Bool := s.toList.all isBlank

/-- The text without the blanks at its start. -/
def dropBlanks (cs : List Char) : List Char := cs.dropWhile isBlank

/-- The text without the blanks at its end. -/
def dropTrailingBlanks (cs : List Char) : List Char := (dropBlanks cs.reverse).reverse

end TermRewriting.Text
