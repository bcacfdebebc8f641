import TermRewriting.Text.Cluster.Tables
import TermRewriting.Text.Extending

/-!
# How a character goes together with its neighbours

Every character has one class, and the classes of two neighbours mostly decide whether a reader
takes them for one character.

Results:
* `ClusterClass.glue_control_left`, `ClusterClass.glue_control_right`: nothing goes together with a
  control.
* `ClusterClass.glue_extending`: a mark goes together with anything else before it.
-/
namespace TermRewriting.Text

/-- The part that a character plays in a cluster. -/
inductive ClusterClass where
  | carriageReturn
  | lineFeed
  | control
  /-- A mark that is drawn onto the character before it. -/
  | extending
  | joiner
  /-- A mark with a place of its own. -/
  | spacing
  /-- A character that belongs to the one behind it. -/
  | leading
  /-- Half of a flag. -/
  | regional
  | pictograph
  | consonant
  /-- A Hangul letter that begins a syllable. -/
  | initialJamo
  /-- A Hangul letter in the middle of a syllable. -/
  | medialJamo
  /-- A Hangul letter that ends a syllable. -/
  | finalJamo
  /-- A Hangul syllable without a final letter. -/
  | openSyllable
  /-- A Hangul syllable with a final letter. -/
  | closedSyllable
  | other
  deriving DecidableEq, Repr

namespace ClusterClass

/-- Letters that begin a Hangul syllable. -/
def initialRanges : List Range := [(0x1100, 0x115F), (0xA960, 0xA97C)]

/-- Letters in the middle of a Hangul syllable, and vowels that behave like them. -/
def medialRanges : List Range :=
  [(0x1160, 0x11A7), (0xD7B0, 0xD7C6), (0x16D63, 0x16D63), (0x16D67, 0x16D6A)]

/-- Letters that end a Hangul syllable. -/
def finalRanges : List Range := [(0x11A8, 0x11FF), (0xD7CB, 0xD7FB)]

/-- The Hangul syllables; every 28th has no final letter. -/
def syllableRange : Range := (0xAC00, 0xD7A3)

/-- The letters that flags are made of. -/
def regionalRange : Range := (0x1F1E6, 0x1F1FF)

/-- The skin tones, which are drawn into the pictograph before them. -/
def skinToneRange : Range := (0x1F3FB, 0x1F3FF)

def zeroWidthJoiner : Nat := 0x200D

/-- The class of a Hangul letter or syllable. -/
def ofHangul? (n : Nat) : Option ClusterClass :=
  if inRanges initialRanges n then some initialJamo
  else if inRanges medialRanges n then some medialJamo
  else if inRanges finalRanges n then some finalJamo
  else if inRanges [syllableRange] n then
    some (if (n - syllableRange.1) % 28 = 0 then openSyllable else closedSyllable)
  else none

def ofChar (c : Char) : ClusterClass :=
  if c = '\r' then carriageReturn
  else if c = '\n' then lineFeed
  else if inRanges Cluster.controlRanges c.toNat then control
  else if c.toNat = zeroWidthJoiner then joiner
  else if isExtending c || inRanges [skinToneRange] c.toNat then extending
  else if inRanges Cluster.spacingRanges c.toNat then spacing
  else if inRanges Cluster.leadingRanges c.toNat then leading
  else if inRanges [regionalRange] c.toNat then regional
  else if inRanges Cluster.pictographRanges c.toNat then pictograph
  else if inRanges Cluster.consonantRanges c.toNat then consonant
  else (ofHangul? c.toNat).getD other

/-- Whether the class is that of a control or of a line end. -/
def isControl : ClusterClass → Bool
  | carriageReturn | lineFeed | control => true
  | _ => false

/-- What the classes of two neighbours say about them. -/
inductive Glue where
  /-- They go together. -/
  | whole
  /-- They are two. -/
  | parted
  /-- They are a flag if the first does not end one. -/
  | flag
  /-- They go together if the first ends a chain of joined pictographs. -/
  | joined
  /-- They go together if the first ends a conjunct letter that goes on. -/
  | conjunct
  deriving DecidableEq, Repr

/-- Whether two neighbours of Hangul classes stand in the order of a syllable. -/
def isSyllable : (before after : ClusterClass) → Bool
  | initialJamo, initialJamo => true
  | initialJamo, medialJamo => true
  | initialJamo, openSyllable => true
  | initialJamo, closedSyllable => true
  | openSyllable, medialJamo => true
  | openSyllable, finalJamo => true
  | medialJamo, medialJamo => true
  | medialJamo, finalJamo => true
  | closedSyllable, finalJamo => true
  | finalJamo, finalJamo => true
  | _, _ => false

/-- What the classes of two neighbours say about them. -/
def glue (before after : ClusterClass) : Glue :=
  if before = carriageReturn ∧ after = lineFeed then .whole
  else if before.isControl || after.isControl then .parted
  else if isSyllable before after then .whole
  else if after = extending ∨ after = joiner ∨ after = spacing ∨ before = leading then .whole
  else if after = consonant then .conjunct
  else if before = joiner ∧ after = pictograph then .joined
  else if before = regional ∧ after = regional then .flag
  else .parted

theorem glue_control_left (after : ClusterClass) : glue control after = .parted := by
  cases after <;> rfl

theorem glue_control_right (before : ClusterClass) : glue before control = .parted := by
  cases before <;> rfl

theorem glue_extending {before : ClusterClass} (h : before.isControl = false) :
    glue before extending = .whole := by
  cases before with
  | carriageReturn | lineFeed | control => cases h
  | _ => rfl

end ClusterClass

end TermRewriting.Text
