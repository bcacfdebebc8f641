import TermRewriting.Term

/-!
# Binding sets

A binding set gives terms to finitely many names. The entries are kept in ascending order of their
names, each name once, so that two sets with the same entries are the same value and a set has one
printed form.

Results:
* `Bindings.get?_bind`: binding a name answers for that name and changes no other.
* `Bindings.get?_eq_some_iff`: the entries of a set are what it answers.
* `Bindings.ext_get?`: a set is determined by what it answers.
* `Bindings.isEmpty_iff`: a set is empty exactly if it has no entries.
* `Bindings.text_eq`: the printed form has the entries in the order in which they are kept.
-/
namespace TermRewriting

/-- An entry of a binding set: a name and the term it stands for. -/
abbrev Binding := String × Term

/-- Names in strictly ascending code point order. -/
abbrev Ascending (entries : List Binding) : Prop := entries.Pairwise (·.1 < ·.1)

/-- A finite map from names to terms. -/
structure Bindings where
  entries : List Binding
  ascending : Ascending entries
  deriving DecidableEq, Repr

namespace Bindings

def empty : Bindings := ⟨[], .nil⟩

instance : Inhabited Bindings := ⟨empty⟩
instance : EmptyCollection Bindings := ⟨empty⟩

/-- The first value under a name. -/
def lookup (name : String) : List Binding → Option Term
  | [] => none
  | (n, value) :: rest => if n = name then some value else lookup name rest

def get? (b : Bindings) (name : String) : Option Term := lookup name b.entries

/-! ## Adding a binding -/

/-- Puts an entry where its name belongs, in place of an entry of the same name. -/
def insert (name : String) (value : Term) : List Binding → List Binding
  | [] => [(name, value)]
  | (n, v) :: rest =>
    if name < n then (name, value) :: (n, v) :: rest
    else if n = name then (name, value) :: rest
    else (n, v) :: insert name value rest

theorem mem_insert {name : String} {value : Term} {e : Binding} :
    ∀ {entries : List Binding}, e ∈ insert name value entries → e = (name, value) ∨ e ∈ entries
  | [], h => by simpa [insert] using h
  | (n, v) :: rest, h => by
    unfold insert at h
    split at h
    · simpa using h
    · split at h
      · rcases List.mem_cons.mp h with h | h
        · exact Or.inl h
        · exact Or.inr (List.mem_cons_of_mem _ h)
      · rcases List.mem_cons.mp h with h | h
        · exact Or.inr (h ▸ List.mem_cons_self)
        · rcases mem_insert h with h | h
          · exact Or.inl h
          · exact Or.inr (List.mem_cons_of_mem _ h)

theorem insert_ascending (name : String) (value : Term) :
    ∀ {entries : List Binding}, Ascending entries → Ascending (insert name value entries)
  | [], _ => by simp [insert, Ascending]
  | (n, v) :: rest, h => by
    obtain ⟨hn, hrest⟩ := List.pairwise_cons.mp h
    unfold insert
    split
    · rename_i hlt
      refine List.pairwise_cons.mpr ⟨fun e he => ?_, h⟩
      rcases List.mem_cons.mp he with rfl | he
      · exact hlt
      · exact String.lt_trans hlt (hn e he)
    · rename_i hnlt
      split
      · rename_i heq
        subst heq
        exact List.pairwise_cons.mpr ⟨hn, hrest⟩
      · rename_i hne
        refine List.pairwise_cons.mpr ⟨fun e he => ?_, insert_ascending name value hrest⟩
        rcases mem_insert he with rfl | he
        · exact Std.lt_of_le_of_ne (Std.not_lt.mp hnlt) hne
        · exact hn e he

/-- The set with `name` bound to `value`, whatever `name` was bound to before. -/
def bind (b : Bindings) (name : String) (value : Term) : Bindings :=
  ⟨insert name value b.entries, insert_ascending name value b.ascending⟩

theorem lookup_insert (name other : String) (value : Term) : ∀ entries : List Binding,
    lookup other (insert name value entries) =
      if name = other then some value else lookup other entries
  | [] => rfl
  | (n, v) :: rest => by
    unfold insert
    split
    · rfl
    · split
      · rename_i heq
        subst heq
        by_cases h : n = other <;> simp [lookup, h]
      · rename_i hne
        rw [lookup, lookup_insert name other value rest, lookup]
        by_cases h : n = other
        · subst h
          simp [Ne.symm hne]
        · simp [h]

/-! ## Reading a set -/

@[simp] theorem get?_empty (name : String) : empty.get? name = none := rfl

theorem get?_bind (b : Bindings) (name other : String) (value : Term) :
    (b.bind name value).get? other = if name = other then some value else b.get? other :=
  lookup_insert name other value b.entries

theorem lookup_eq_none {name : String} : ∀ {entries : List Binding},
    (∀ e ∈ entries, name < e.1) → lookup name entries = none
  | [], _ => rfl
  | (n, v) :: rest, h => by
    have hn : name < n := h (n, v) List.mem_cons_self
    have hne : n ≠ name := fun e => String.lt_irrefl n (by rw [e] at hn ⊢; exact hn)
    rw [lookup, if_neg hne, lookup_eq_none fun e he => h e (List.mem_cons_of_mem _ he)]

/-- A name below the first entry's name is not bound. -/
theorem lookup_below {name n : String} {v : Term} {rest : List Binding}
    (h : Ascending ((n, v) :: rest)) (hlt : name < n) : lookup name ((n, v) :: rest) = none := by
  refine lookup_eq_none fun e he => ?_
  rcases List.mem_cons.mp he with rfl | he
  · exact hlt
  · exact String.lt_trans hlt ((List.pairwise_cons.mp h).1 e he)

theorem lookup_eq_some_iff {name : String} {value : Term} : ∀ {entries : List Binding},
    Ascending entries → (lookup name entries = some value ↔ (name, value) ∈ entries)
  | [], _ => by simp [lookup]
  | (n, v) :: rest, h => by
    obtain ⟨hn, hrest⟩ := List.pairwise_cons.mp h
    rw [lookup, List.mem_cons]
    by_cases hname : n = name
    · subst hname
      have hnot : (n, value) ∉ rest := fun hmem => String.lt_irrefl n (hn _ hmem)
      simp [hnot, eq_comm]
    · simp [hname, Ne.symm hname, lookup_eq_some_iff hrest]

/-- The entries are what the set answers. -/
theorem get?_eq_some_iff {b : Bindings} {name : String} {value : Term} :
    b.get? name = some value ↔ (name, value) ∈ b.entries :=
  lookup_eq_some_iff b.ascending

theorem entries_eq_of_lookup : ∀ {es fs : List Binding}, Ascending es → Ascending fs →
    (∀ name, lookup name es = lookup name fs) → es = fs
  | [], [], _, _, _ => rfl
  | [], (n, v) :: fs, _, _, h => by simpa [lookup] using h n
  | (n, v) :: es, [], _, _, h => by simpa [lookup] using h n
  | (m, v) :: es, (n, w) :: fs, hes, hfs, h => by
    obtain ⟨hm, hes'⟩ := List.pairwise_cons.mp hes
    obtain ⟨hn, hfs'⟩ := List.pairwise_cons.mp hfs
    have hmn : m = n := by
      rcases Std.lt_trichotomy m n with hlt | heq | hgt
      · have hm := h m
        rw [lookup_below hfs hlt] at hm
        simp [lookup] at hm
      · exact heq
      · have hn := h n
        rw [lookup_below hes hgt] at hn
        simp [lookup] at hn
    subst hmn
    have hvw : v = w := by simpa [lookup] using h m
    subst hvw
    rw [entries_eq_of_lookup hes' hfs' fun name => ?_]
    by_cases hname : m = name
    · subst hname
      rw [lookup_eq_none hm, lookup_eq_none hn]
    · simpa [lookup, hname] using h name

/-- Two sets that answer alike are the same set. -/
theorem ext_get? {b c : Bindings} (h : ∀ name, b.get? name = c.get? name) : b = c := by
  obtain ⟨es, hes⟩ := b
  obtain ⟨fs, hfs⟩ := c
  have : es = fs := entries_eq_of_lookup hes hfs h
  subst this
  rfl

def size (b : Bindings) : Nat := b.entries.length

def isEmpty (b : Bindings) : Bool := b.entries.isEmpty

theorem isEmpty_iff (b : Bindings) : b.isEmpty = true ↔ b.size = 0 := by
  simp [isEmpty, size]

/-- The set made by binding the given pairs one after the other; a later pair wins. -/
def ofList (pairs : List Binding) : Bindings :=
  pairs.foldl (fun b pair => b.bind pair.1 pair.2) empty

/-! ## Printing a set -/

/-- The printed form of one entry, `name: term`. -/
def entryText (e : Binding) : String := e.1 ++ ": " ++ e.2.text

/-- The entries between braces, in the given order. -/
def listed (es : List Binding) : String :=
  "\x7b" ++ ", ".intercalate (es.map entryText) ++ "\x7d"

def sorted (es : List Binding) : List Binding := es.mergeSort fun e f => e.1 ≤ f.1

/-- The printed form: the entries between braces in the order of their names. -/
def text (b : Bindings) : String := listed (sorted b.entries)

theorem sorted_of_ascending {es : List Binding} (h : Ascending es) : sorted es = es :=
  List.mergeSort_of_pairwise (h.imp fun hlt => decide_eq_true (Std.le_of_lt hlt))

/-- Sorting leaves the entries of a set in the order in which they are kept. -/
theorem text_eq (b : Bindings) : b.text = listed b.entries := by
  rw [text, sorted_of_ascending b.ascending]

instance : ToString Bindings := ⟨text⟩

end Bindings

end TermRewriting
