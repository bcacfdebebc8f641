/-!
# Classes of characters as ranges of code points

A class is listed as ascending, disjoint ranges, both ends included. Looking a code point up stops
at the first range that begins after it, so the common characters at the start of a list are found
at once.

Results:
* `inRanges_of_mem`: on an ascending list, every code point of a listed range is found.
* `mem_of_inRanges`: only code points of listed ranges are found.
* `takeWhile_dropWhile_iff`: a class cuts a text in one place.
-/
namespace TermRewriting.Text

/-- A range of code points: the first and the last one. -/
abbrev Range := Nat × Nat

/-- Whether one of the ascending ranges holds the code point. -/
def inRanges : (ranges : List Range) → (n : Nat) → Bool
  | [], _ => false
  | (first, last) :: rest, n =>
    if n < first then false else if n ≤ last then true else inRanges rest n

/-- Whether the ranges lie one after the other, the first beginning at `n` or later. -/
def ascendingFrom : (n : Nat) → (ranges : List Range) → Bool
  | _, [] => true
  | n, (first, last) :: rest =>
    decide (n ≤ first) && decide (first ≤ last) && ascendingFrom (last + 1) rest

theorem le_of_ascendingFrom {r : Range} : ∀ {n : Nat} {ranges : List Range},
    ascendingFrom n ranges = true → r ∈ ranges → n ≤ r.1
  | n, (first, last) :: rest, h, hr => by
    simp only [ascendingFrom, Bool.and_eq_true, decide_eq_true_eq] at h
    rcases List.mem_cons.mp hr with rfl | hr
    · exact h.1.1
    · have := le_of_ascendingFrom h.2 hr
      omega

theorem inRanges_of_mem {n : Nat} {r : Range} : ∀ {m : Nat} {ranges : List Range},
    ascendingFrom m ranges = true → r ∈ ranges → r.1 ≤ n → n ≤ r.2 → inRanges ranges n = true
  | m, (first, last) :: rest, h, hr, h1, h2 => by
    simp only [ascendingFrom, Bool.and_eq_true, decide_eq_true_eq] at h
    unfold inRanges
    rcases List.mem_cons.mp hr with rfl | hr
    · rw [if_neg (Nat.not_lt.mpr h1), if_pos h2]
    · have := le_of_ascendingFrom h.2 hr
      rw [if_neg (by omega), if_neg (by omega)]
      exact inRanges_of_mem h.2 hr h1 h2

theorem mem_of_inRanges {n : Nat} : ∀ {ranges : List Range}, inRanges ranges n = true →
    ∃ r ∈ ranges, r.1 ≤ n ∧ n ≤ r.2
  | (first, last) :: rest, h => by
    unfold inRanges at h
    split at h
    · cases h
    · rename_i hlt
      split at h
      · rename_i hle
        exact ⟨(first, last), List.mem_cons_self, Nat.not_lt.mp hlt, hle⟩
      · obtain ⟨r, hr, hn⟩ := mem_of_inRanges h
        exact ⟨r, List.mem_cons_of_mem _ hr, hn⟩

/-- A text is cut behind the characters of a class that it begins with. There is one place for this:
all characters in front of it are in the class, and the one behind it is not. -/
theorem takeWhile_dropWhile_iff {p : Char → Bool} {cs front back : List Char} :
    cs.takeWhile p = front ∧ cs.dropWhile p = back ↔
      cs = front ++ back ∧ (∀ c ∈ front, p c = true) ∧ ∀ c ∈ back.head?, p c = false := by
  constructor
  · intro h
    obtain ⟨hfront, hback⟩ := h
    have hclass : (cs.takeWhile p).all p = true := List.all_takeWhile
    have hhead := List.head?_dropWhile_not p cs
    rw [hfront] at hclass
    rw [hback] at hhead
    refine ⟨?_, List.all_eq_true.mp hclass, fun c hc => ?_⟩
    · rw [← hfront, ← hback, List.takeWhile_append_dropWhile]
    · simpa [Option.mem_def.mp hc] using hhead
  · intro h
    obtain ⟨hcs, hfront, hback⟩ := h
    rw [hcs, List.takeWhile_append_of_pos hfront, List.dropWhile_append_of_pos hfront]
    cases back with
    | nil => simp
    | cons c back => simp [hback c rfl]

end TermRewriting.Text
