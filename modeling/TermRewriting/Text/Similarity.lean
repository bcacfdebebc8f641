/-!
# How alike two texts are

The likeness of two texts is a number from 0 to 1. A character of the first text is partnered with
the first free equal character of the second text that stands at about the same place. The more
characters have partners, and the fewer partners stand in another order, the more alike the texts are.

Results:
* `le_of_mem_partners`: a partner stands close by, and is the same character.
* `partners_disjoint`, `nodup_partners`: nobody has two partners.
* `partners_length_le`: there are no more partners than characters.
-/
namespace TermRewriting.Text

/-- How far apart partners may stand in texts of these lengths. -/
def partnerRange (n k : Nat) : Nat := max n k / 2 - 1

/-- The first free position of a text that holds a character and is near a place. -/
def partner? (range : Nat) (text : List Char) (taken : List Nat) (place : Nat) (c : Char) :
    Option Nat :=
  (List.range text.length).find? fun j =>
    place ≤ j + range && j ≤ place + range && text[j]? == some c && !taken.contains j

/-- The positions of the partners that the characters of a text find in another text, in the order
of the first one, whose first character stands at `place`. -/
def partners (range : Nat) (text : List Char) :
    (taken : List Nat) → (place : Nat) → (cs : List Char) → List Nat
  | _, _, [] => []
  | taken, place, c :: cs =>
    match partner? range text taken place c with
    | none => partners range text taken (place + 1) cs
    | some j => j :: partners range text (j :: taken) (place + 1) cs

/-- How many pairs of partners are out of order: half of the places at which the characters differ
when both sides are read from left to right. -/
def swaps (text : List Char) (positions : List Nat) : Nat :=
  (positions.zip positions.mergeSort).countP (fun p => text[p.1]? != text[p.2]?) / 2

def similarity (a b : List Char) : Float :=
  let positions := partners (partnerRange a.length b.length) b [] 0 a
  if a.isEmpty && b.isEmpty then 1
  else if positions.isEmpty then 0
  else
    let n := Float.ofNat positions.length
    (n / Float.ofNat a.length + n / Float.ofNat b.length +
      Float.ofNat (positions.length - swaps b positions) / n) / 3

theorem partner?_eq_some {range : Nat} {text : List Char} {taken : List Nat} {place : Nat} {c : Char}
    {j : Nat} (h : partner? range text taken place c = some j) :
    place ≤ j + range ∧ j ≤ place + range ∧ text[j]? = some c ∧ j ∉ taken := by
  have := List.find?_some h
  simpa [and_assoc] using this

theorem partners_disjoint {range : Nat} {text : List Char} : ∀ {taken : List Nat} {place : Nat}
    {cs : List Char} {j : Nat}, j ∈ partners range text taken place cs → j ∉ taken
  | _, _, [], _, h => by simp [partners] at h
  | taken, place, c :: cs, j, h => by
    unfold partners at h
    split at h
    · exact partners_disjoint h
    · rename_i k hk
      rcases List.mem_cons.mp h with rfl | h
      · exact (partner?_eq_some hk).2.2.2
      · exact fun ht => partners_disjoint h (List.mem_cons_of_mem k ht)

theorem nodup_partners {range : Nat} {text : List Char} : ∀ {taken : List Nat} {place : Nat}
    {cs : List Char}, (partners range text taken place cs).Nodup
  | _, _, [] => by simp [partners]
  | taken, place, c :: cs => by
    unfold partners
    split
    · exact nodup_partners
    · exact List.nodup_cons.mpr ⟨fun h => partners_disjoint h (by simp), nodup_partners⟩

theorem le_of_mem_partners {range : Nat} {text : List Char} : ∀ {taken : List Nat} {place : Nat}
    {cs : List Char} {j : Nat}, j ∈ partners range text taken place cs →
      ∃ i, ∃ c, cs[i]? = some c ∧ text[j]? = some c ∧ place + i ≤ j + range ∧ j ≤ place + i + range
  | _, _, [], _, h => by simp [partners] at h
  | taken, place, c :: cs, j, h => by
    unfold partners at h
    split at h
    · obtain ⟨i, d, hi, hd, h₁, h₂⟩ := le_of_mem_partners h
      exact ⟨i + 1, d, by simpa using hi, hd, by omega, by omega⟩
    · rename_i k hk
      rcases List.mem_cons.mp h with rfl | h
      · obtain ⟨h₁, h₂, hc, -⟩ := partner?_eq_some hk
        exact ⟨0, c, by simp, hc, by omega, by omega⟩
      · obtain ⟨i, d, hi, hd, h₁, h₂⟩ := le_of_mem_partners h
        exact ⟨i + 1, d, by simpa using hi, hd, by omega, by omega⟩

theorem partners_length_le {range : Nat} {text : List Char} : ∀ {taken : List Nat} {place : Nat}
    {cs : List Char}, (partners range text taken place cs).length ≤ cs.length
  | _, _, [] => by simp [partners]
  | taken, place, c :: cs => by
    unfold partners
    split
    · exact Nat.le_succ_of_le partners_length_le
    · exact Nat.succ_le_succ partners_length_le

end TermRewriting.Text
