/-!
# Control sequences of a terminal

A text from outside may hold control characters and the sequences that they begin, which a terminal
obeys instead of drawing them. What is left without them is what a reader is meant to see.

A line break or a tab inside a sequence is drawn. Drawing then goes on, and the sequence is taken up
again at the next control character.

Results:
* `visible_of_drawn`: a text without control characters stays as it is.
* `drawn_of_mem_visible`: nothing that is left is obeyed by a terminal.
-/
namespace TermRewriting.Text

/-- What a character belongs to. -/
inductive SequencePart where
  /-- Plain text. -/
  | text
  /-- The part behind an escape character. -/
  | escape
  /-- The same, once an intermediate character has come. -/
  | escapeIntermediate
  /-- The parameters of a control sequence; a letter ends it. -/
  | control
  /-- The part behind the introducer of a device control string. -/
  | device
  /-- The parameters of a device control string. -/
  | deviceParameters
  /-- The intermediate characters of a device control string. -/
  | deviceIntermediate
  /-- A string for the device; a terminator ends it. -/
  | string
  /-- A command to the operating system; a bell ends it. -/
  | command
  deriving DecidableEq, Repr

/-- Whether a character moves the place of drawing: a tab, or a break of line or page. -/
def isLayout (c : Char) : Bool := c == '\t' || c == '\n' || c == '\x0c' || c == '\r'

/-- Whether a character of a plain text is drawn. -/
def isDrawn (c : Char) : Bool :=
  0x80 ≤ c.toNat || (0x20 ≤ c.toNat && c.toNat < 0x7F) || isLayout c

namespace SequencePart

def within (low high code : Nat) : Bool := low ≤ code && code ≤ high

/-- What follows the escape character. -/
def afterEscape (code : Nat) : SequencePart :=
  if within 0x20 0x2F code then escapeIntermediate
  else if code = '['.toNat then control
  else if code = ']'.toNat then command
  else if code = 'P'.toNat then device
  else if code = 'X'.toNat ∨ code = '^'.toNat ∨ code = '_'.toNat then string
  else if within 0x30 0x7E code then text
  else escape

/-- What follows an ASCII character that neither cancels a sequence nor begins one. -/
def afterPlain (code : Nat) : SequencePart → SequencePart
  | text => text
  | escape => afterEscape code
  | escapeIntermediate => if within 0x30 0x7E code then text else escapeIntermediate
  | control => if within 0x40 0x7E code then text else control
  | device =>
    if within 0x20 0x2F code then deviceIntermediate
    else if within 0x30 0x3F code then deviceParameters
    else if within 0x40 0x7E code then string
    else device
  | deviceParameters =>
    if within 0x20 0x2F code then deviceIntermediate
    else if within 0x3C 0x7E code then string
    else deviceParameters
  | deviceIntermediate => if within 0x30 0x7E code then string else deviceIntermediate
  | string => string
  | command => if code = 0x07 then text else command

/-- What follows a character that is not drawn. Two characters cancel every sequence, and the escape
character begins a new one. The terminator of a string counts wherever its byte stands. -/
def after (part : SequencePart) (c : Char) : SequencePart :=
  if c.toNat = 0x18 ∨ c.toNat = 0x1A then text
  else if c = '\x1b' then escape
  else if c.toNat < 0x80 then part.afterPlain c.toNat
  else if part = string ∧ 0x9C ∈ String.utf8EncodeChar c then text
  else part

/-- Whether a character is drawn where it stands; `drawing` says that the one before it was. -/
def draws (part : SequencePart) (drawing : Bool) (c : Char) : Bool :=
  if drawing then isDrawn c
  else match part with
    | text => isDrawn c
    | escape | escapeIntermediate | control => isLayout c
    | _ => false

end SequencePart

/-- The drawn characters of a text that stands in a part of a sequence. -/
def drawnFrom : (part : SequencePart) → (drawing : Bool) → List Char → List Char
  | _, _, [] => []
  | part, drawing, c :: cs =>
    if part.draws drawing c then
      c :: drawnFrom (if c.toNat < 0x80 then part else .text) true cs
    else drawnFrom (part.after c) false cs

/-- The text that a terminal draws. -/
def visible (s : String) : String := String.ofList (drawnFrom .text true s.toList)

theorem isDrawn_of_isLayout {c : Char} (h : isLayout c = true) : isDrawn c = true := by
  simp [isDrawn, h]

theorem isDrawn_of_draws {part : SequencePart} {drawing : Bool} {c : Char}
    (h : part.draws drawing c = true) : isDrawn c = true := by
  cases drawing with
  | true => exact h
  | false =>
    cases part with
    | text => exact h
    | escape | escapeIntermediate | control => exact isDrawn_of_isLayout h
    | device | deviceParameters | deviceIntermediate | string | command =>
      exact absurd h Bool.false_ne_true

theorem drawn_of_mem_drawnFrom : ∀ {part : SequencePart} {drawing : Bool} {cs : List Char} {c : Char},
    c ∈ drawnFrom part drawing cs → isDrawn c = true
  | _, _, [], _, h => by simp [drawnFrom] at h
  | part, drawing, d :: cs, c, h => by
    unfold drawnFrom at h
    split at h
    · rename_i hd
      rcases List.mem_cons.mp h with rfl | h
      · exact isDrawn_of_draws hd
      · exact drawn_of_mem_drawnFrom h
    · exact drawn_of_mem_drawnFrom h

theorem drawnFrom_of_drawn : ∀ {part : SequencePart} {cs : List Char},
    (∀ c ∈ cs, isDrawn c = true) → drawnFrom part true cs = cs
  | _, [], _ => rfl
  | part, c :: cs, h => by
    have hc : part.draws true c = true := h c (by simp)
    rw [drawnFrom, if_pos hc, drawnFrom_of_drawn fun d hd => h d (by simp [hd])]

theorem visible_of_drawn {s : String} (h : ∀ c ∈ s.toList, isDrawn c = true) : visible s = s := by
  rw [visible, drawnFrom_of_drawn h, String.ofList_toList]

theorem drawn_of_mem_visible {s : String} {c : Char} (h : c ∈ (visible s).toList) :
    isDrawn c = true := by
  rw [visible, String.toList_ofList] at h
  exact drawn_of_mem_drawnFrom h

end TermRewriting.Text
