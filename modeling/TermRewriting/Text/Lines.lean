import TermRewriting.Text.Blank

/-!
# Lines of a text

A line ends with a newline, which belongs to it; the last line may lack one. An empty text has no
lines.

Results:
* `flatten_rawLines`: the lines put together are the text.
* `withoutNewline_append`: of a line that ends with a newline, what comes before it is left.
-/
namespace TermRewriting.Text

theorem length_of_dropWhile_eq_cons {p : Char → Bool} {cs rest : List Char} {c : Char}
    (h : cs.dropWhile p = c :: rest) : rest.length < cs.length := by
  have := (List.dropWhile_sublist p : (cs.dropWhile p).Sublist cs).length_le
  rw [h] at this
  exact this

/-- The lines of a text, each with its newline. -/
def rawLines (cs : List Char) : List (List Char) :=
  match _h : cs.dropWhile (· ≠ '\n') with
  | [] => if cs.isEmpty then [] else [cs]
  | newline :: rest => (cs.takeWhile (· ≠ '\n') ++ [newline]) :: rawLines rest
termination_by cs.length
decreasing_by exact length_of_dropWhile_eq_cons _h

theorem flatten_rawLines (cs : List Char) : (rawLines cs).flatten = cs := by
  fun_induction rawLines cs with
  | case1 cs h hnil => simp_all
  | case2 cs h hne => simp
  | case3 cs newline rest h ih =>
    rw [List.flatten_cons, ih, List.append_assoc, List.singleton_append, ← h,
      List.takeWhile_append_dropWhile]

/-- A line without the newline at its end, and without a carriage return right before that. -/
def withoutNewline (line : List Char) : List Char :=
  match line.reverse with
  | '\n' :: '\r' :: rest => rest.reverse
  | '\n' :: rest => rest.reverse
  | _ => line

theorem withoutNewline_append {cs : List Char} (h : cs.getLast? ≠ some '\r') :
    withoutNewline (cs ++ ['\n']) = cs := by
  unfold withoutNewline
  rw [List.reverse_append]
  simp only [List.reverse_cons, List.reverse_nil, List.nil_append, List.singleton_append]
  split
  · rename_i rest heq
    have hr : cs.reverse = '\r' :: rest := by simpa using heq
    rw [← List.head?_reverse, hr] at h
    simp at h
  · rename_i rest _ heq
    have hr : cs.reverse = rest := by simpa using heq
    rw [← hr, List.reverse_reverse]
  · rename_i hne
    simp at hne

end TermRewriting.Text
