import TermRewriting.Text.Cluster
import TermRewriting.Text.Lines

/-!
# Lines as they are typed

A line of the input becomes a typed line by taking off its newline and by carrying out the rubouts
in it. A typed line that ends in a backslash goes on with the next one; the backslash stands for the
newline between them.

Results:
* `rubOut_of_no_rubout`: a line without rubouts stays as it is.
* `joinLine_of_not_continued`: a line that is not continued completes the text.
-/
namespace TermRewriting

open Text

/-- The control character that rubs out what a reader would call the character before it. -/
def rubout : Char := '\x08'

/-- A line on the way, with the latest characters first: the characters, and the lengths of the
clusters they form. -/
structure Typed where
  chars : List Char
  lengths : List Nat
  deriving DecidableEq, Repr

namespace Typed

def nothing : Typed := ⟨[], []⟩

/-- The length of a cluster in bytes, as it is kept: in eight bits. -/
def keptLength (cluster : List Char) : Nat := (String.ofList cluster).utf8ByteSize % 256

/-- Drops characters until so many bytes are gone. -/
def dropBytes : (bytes : Nat) → List Char → List Char
  | 0, cs => cs
  | _ + 1, [] => []
  | n + 1, c :: cs => dropBytes (n + 1 - c.utf8Size) cs

def rubLast (t : Typed) : Typed :=
  match t.lengths with
  | [] => t
  | n :: rest => ⟨dropBytes n t.chars, rest⟩

def next (t : Typed) (cluster : List Char) : Typed :=
  if cluster = [rubout] then t.rubLast
  else ⟨cluster.reverse ++ t.chars, keptLength cluster :: t.lengths⟩

def text (t : Typed) : List Char := t.chars.reverse

theorem text_next {cluster : List Char} (h : cluster ≠ [rubout]) (t : Typed) :
    (t.next cluster).text = t.text ++ cluster := by
  simp [next, h, text]

theorem text_foldl_next : ∀ {kept : List (List Char)} (t : Typed),
    [rubout] ∉ kept → (kept.foldl next t).text = t.text ++ kept.flatten
  | [], t, _ => by simp
  | k :: kept, t, h => by
    have hk : k ≠ [rubout] := fun e => h (by simp [e])
    have hkept : [rubout] ∉ kept := fun e => h (List.mem_cons_of_mem k e)
    rw [List.foldl_cons, text_foldl_next _ hkept, text_next hk, List.flatten_cons,
      List.append_assoc]

end Typed

/-- What is left of a line when each rubout has removed itself and the cluster before it. A cluster
of 256 bytes or more is removed only in part, because its length is kept in eight bits. -/
def rubOut (cs : List Char) : List Char := ((clusters cs).foldl Typed.next .nothing).text

theorem rubOut_of_no_rubout {cs : List Char} (h : rubout ∉ cs) : rubOut cs = cs := by
  have hmem : [rubout] ∉ clusters cs := fun e =>
    h (flatten_clusters cs ▸ List.mem_flatten.mpr ⟨[rubout], e, by simp⟩)
  rw [rubOut, Typed.text_foldl_next _ hmem, flatten_clusters]
  rfl

/-- A line of the input as it was meant. -/
def typedLine (raw : List Char) : String := String.ofList (rubOut (withoutNewline raw))

def typedLines (input : String) : List String := (rawLines input.toList).map typedLine

/-- What becomes of a line: the text that waits for more, or the complete text. -/
inductive Joined where
  | waiting (text : String)
  | complete (text : String)
  deriving DecidableEq, Repr

/-- Puts a line behind the text that waited for it. -/
def joinLine (waiting line : String) : Joined :=
  if line.toList.getLast? = some '\\' then
    .waiting (waiting ++ String.ofList line.toList.dropLast ++ "\n")
  else .complete (waiting ++ line)

theorem joinLine_of_not_continued {waiting line : String} (h : line.toList.getLast? ≠ some '\\') :
    joinLine waiting line = .complete (waiting ++ line) := by
  simp [joinLine, h]

end TermRewriting
