import Mathlib.Logic.Equiv.Basic
import TermRewriting.Proofs.Composition
import TermRewriting.Proofs.Renaming

/-!
# One pattern more general than another

A pattern is at least as general as a term that it matches. Every pattern matches itself, and a
pattern matches what is matched by a term that it matches: the second assignment is put into what the
first one gives. So matching is a preorder.

Two terms that match each other are the same up to the names of their symbols. Going there and back
is an instance of the first term that is the term itself, and so every symbol comes back to itself.
It can do so only from a symbol, since an instance of a functor is a functor, and no two symbols come
back from the same one.

Results:
* `Term.match?_self`, `Term.match?_trans`: matching is reflexive and transitive.
* `Term.exists_relabel_of_match?`, `Term.match?_of_relabel`: terms that match each other.
* `exists_perm_of_injOn`: a renaming of some names is part of a permutation of all names.
* `Term.match?_preorder`: matching as a preorder, and its equivalence.
-/
namespace TermRewriting

namespace Term

variable {p q r : Term} {b d : Bindings}

/-! ## Reflexive and transitive -/

theorem instantiate_self (p : Term) : p.instantiate symbol = p := by
  rw [← fill_id, fill_id_symbol]

theorem instantiate_instantiate (p : Term) (s r : String → Term) :
    (p.instantiate s).instantiate r = p.instantiate fun x => (s x).instantiate r := by
  simp only [← fill_id, fill_fill]
  rfl

theorem match?_self (p : Term) : ∃ b, p.match? p = some b ∧ b.Restricts symbol p.symbols :=
  match?_restricts p.instantiate_self

/-- What the second match found is put into what the first one found. -/
theorem match?_trans (hb : p.match? q = some b) (hd : q.match? r = some d) :
    ∃ c, p.match? r = some c ∧
      c.Restricts (fun x => (b.assignment x).instantiate d.assignment) p.symbols := by
  refine match?_restricts ?_
  rw [← instantiate_instantiate, instantiate_assignment_of_match? hb,
    instantiate_assignment_of_match? hd]

/-- The symbols of what a match finds are symbols of the term. -/
theorem mem_symbols_of_found (hb : p.match? q = some b) {x y : String} {v : Term}
    (hv : b.get? x = some v) (hy : y ∈ v.symbols) : y ∈ q.symbols := by
  have hx : x ∈ p.symbols := mem_symbols_of_match? hb hv
  have hxv : b.assignment x = v := b.agrees_assignment x v hv
  rw [← instantiate_assignment_of_match? hb]
  clear hb hv
  induction p with
  | symbol z =>
    rw [symbols_symbol, List.mem_singleton] at hx
    rwa [instantiate_symbol, ← hx, hxv]
  | functor f args ih =>
    rw [symbols_functor, List.mem_flatMap] at hx
    obtain ⟨a, ha, hxa⟩ := hx
    rw [instantiate_functor, symbols_functor, List.mem_flatMap]
    exact ⟨_, List.mem_map_of_mem ha, ih a ha hxa⟩

/-! ## There and back -/

theorem instantiate_eq_symbol_iff {t : Term} {s : String → Term} {x : String} :
    t.instantiate s = .symbol x ↔ ∃ y, t = .symbol y ∧ s y = .symbol x := by
  cases t <;> simp

/-- Every symbol of the one term stands for a symbol of the other that stands for it. -/
theorem assignment_of_match?_both (hb : p.match? q = some b) (hd : q.match? p = some d) {x : String}
    (hx : x ∈ p.symbols) :
    b.assignment x = .symbol (b.newName x) ∧ d.assignment (b.newName x) = .symbol x := by
  have hround : p.instantiate (fun x => (b.assignment x).instantiate d.assignment) =
      p.instantiate symbol := by
    rw [← instantiate_instantiate, instantiate_assignment_of_match? hb,
      instantiate_assignment_of_match? hd, instantiate_self]
  have hback := (instantiate_eq_instantiate_iff p).mp hround x hx
  obtain ⟨y, hy, hdy⟩ := instantiate_eq_symbol_iff.mp hback
  have hname := (Bindings.assignment_eq_symbol_iff.mp hy).2
  rw [hname]
  exact ⟨hy, hdy⟩

theorem exists_relabel_of_match? (hb : p.match? q = some b) (hd : q.match? p = some d) :
    Set.InjOn b.newName {x | x ∈ p.symbols} ∧ q = p.relabel id b.newName := by
  have hboth := fun x hx => assignment_of_match?_both hb hd (x := x) hx
  constructor
  · intro x hx y hy hxy
    have hdx := (hboth x hx).2
    rw [hxy, (hboth y hy).2] at hdx
    exact (symbol.inj hdx).symm
  · rw [← fill_id_of_match? hb, relabel, fill_eq_fill_iff]
    exact ⟨fun _ _ => rfl, fun x hx => (hboth x hx).1⟩

theorem match?_of_relabel {k : String → String} (hk : Set.InjOn k {x | x ∈ p.symbols}) :
    (∃ b, p.match? (p.relabel id k) = some b) ∧ ∃ d, (p.relabel id k).match? p = some d := by
  constructor
  · obtain ⟨b, hb, -⟩ := match?_restricts (fill_id p (s := fun x => symbol (k x))).symm
    exact ⟨b, hb⟩
  · obtain ⟨b, hb, -⟩ := p.match?_self
    obtain ⟨d, hd, -⟩ := match?_relabel_of_some hk (g := id) (fun _ _ => rfl) hb
    rw [rename_id] at hd
    exact ⟨d, hd⟩

end Term

/-! ## Renamings of some names -/

/-- A renaming of some names that keeps them apart is part of a permutation of all names. -/
theorem exists_perm_of_injOn {k : String → String} : ∀ xs : List String,
    Set.InjOn k {x | x ∈ xs} → ∃ σ : Equiv.Perm String, ∀ x ∈ xs, σ x = k x
  | [], _ => ⟨Equiv.refl String, by simp⟩
  | x :: xs, hk => by
    obtain ⟨σ, hσ⟩ := exists_perm_of_injOn xs (hk.mono fun y hy => List.mem_cons_of_mem x hy)
    by_cases hx : x ∈ xs
    · exact ⟨σ, List.forall_mem_cons.mpr ⟨hσ x hx, hσ⟩⟩
    · -- The new name of `x` trades places with what `σ` has there; no other name notices.
      refine ⟨σ.trans (Equiv.swap (σ x) (k x)), List.forall_mem_cons.mpr ⟨by simp, fun y hy => ?_⟩⟩
      have hyx : y ≠ x := fun e => hx (e ▸ hy)
      have hσne : σ y ≠ σ x := fun e => hyx (σ.injective e)
      have hkne : k y ≠ k x := fun e => hyx (hk (List.mem_cons_of_mem x hy) List.mem_cons_self e)
      rw [hσ y hy] at hσne
      rw [Equiv.trans_apply, hσ y hy, Equiv.swap_apply_of_ne_of_ne hσne hkne]

namespace Term

/-- **Matching is a preorder.** Every pattern matches itself, and each of its symbols finds itself. If
`p` matches `q` and `q` matches `r`, then `p` matches `r`; a symbol of `p` finds what it found in `q`,
with each symbol replaced by what it found in `r`. Two terms match each other exactly if the one is
the other with its symbols renamed, different symbols differently; the renaming may be taken to be a
permutation of all names. -/
theorem match?_preorder :
    (∀ p : Term, ∃ b, p.match? p = some b ∧
      ∀ x, b.get? x = if x ∈ p.symbols then some (.symbol x) else none) ∧
    (∀ (p q r : Term) (b d : Bindings), p.match? q = some b → q.match? r = some d →
      ∃ c, p.match? r = some c ∧ (∀ x, (c.get? x).isSome ↔ x ∈ p.symbols) ∧
        ∀ x ∈ p.symbols, ∃ v, b.get? x = some v ∧ (∀ y ∈ v.symbols, (d.get? y).isSome) ∧
          c.get? x = some (v.instantiate d.assignment)) ∧
    ∀ p q : Term,
      ((∃ b, p.match? q = some b) ∧ (∃ d, q.match? p = some d) ↔
        ∃ k : String → String, Set.InjOn k {x | x ∈ p.symbols} ∧ q = p.relabel id k) ∧
      ∀ k : String → String, Set.InjOn k {x | x ∈ p.symbols} →
        ∃ σ : Equiv.Perm String, p.relabel id σ = p.relabel id k := by
  refine ⟨match?_self, ?_, fun p q => ⟨⟨?_, ?_⟩, ?_⟩⟩
  · intro p q r b d hb hd
    obtain ⟨c, hc, hr⟩ := match?_trans hb hd
    refine ⟨c, hc, isSome_get?_match? hc, fun x hx => ?_⟩
    obtain ⟨v, hv⟩ := Option.isSome_iff_exists.mp ((isSome_get?_match? hb x).mpr hx)
    refine ⟨v, hv, fun y hy => ?_, ?_⟩
    · exact (isSome_get?_match? hd y).mpr (mem_symbols_of_found hb hv hy)
    · rw [hr x, if_pos hx]
      exact congrArg (fun u => some (u.instantiate d.assignment)) (b.agrees_assignment x v hv)
  · rintro ⟨⟨b, hb⟩, d, hd⟩
    exact ⟨b.newName, exists_relabel_of_match? hb hd⟩
  · rintro ⟨k, hk, rfl⟩
    exact match?_of_relabel hk
  · intro k hk
    obtain ⟨σ, hσ⟩ := exists_perm_of_injOn p.symbols hk
    refine ⟨σ, (fill_eq_fill_iff p).mpr ⟨fun _ _ => rfl, fun x hx => ?_⟩⟩
    exact congrArg symbol (hσ x hx)

/-- A repeated symbol finds a functor in the second term, whose symbol is replaced by a name that the
second term also has for another. In the pair below each symbol takes the name of the other, also as a
part of a permutation. -/
theorem match?_preorder_exchanged :
    let p : Term := .functor "f" [.symbol "x", .functor "g" [.symbol "x", .symbol "y"]]
    let q : Term := .functor "f" [.functor "h" [.symbol "u"],
      .functor "g" [.functor "h" [.symbol "u"], .symbol "v"]]
    let r : Term := .functor "f" [.functor "h" [.symbol "v"],
      .functor "g" [.functor "h" [.symbol "v"], .functor "k" []]]
    let pair : Term := .functor "pair" [.symbol "x", .symbol "y"]
    let exchanged : Term := .functor "pair" [.symbol "y", .symbol "x"]
    let k : String → String := fun x => if x = "x" then "y" else "x"
    (∃ b d, p.match? q = some b ∧ q.match? r = some d ∧ ∃ c, p.match? r = some c ∧
      ∃ v, b.get? "x" = some v ∧ c.get? "x" = some (v.instantiate d.assignment)) ∧
    Set.InjOn k {x | x ∈ pair.symbols} ∧ exchanged = pair.relabel id k ∧
      (∃ b, pair.match? exchanged = some b) ∧ (∃ d, exchanged.match? pair = some d) ∧
      ∃ σ : Equiv.Perm String, pair.relabel id σ = exchanged := by
  intro p q r pair exchanged k
  obtain ⟨-, htrans, hboth⟩ := match?_preorder
  obtain ⟨b, hb⟩ : ∃ b, p.match? q = some b := ⟨_, rfl⟩
  obtain ⟨d, hd⟩ : ∃ d, q.match? r = some d := ⟨_, rfl⟩
  obtain ⟨c, hc, -, hx⟩ := htrans p q r b d hb hd
  obtain ⟨v, hv, -, hcv⟩ := hx "x" (by decide)
  have hk : Set.InjOn k {x | x ∈ pair.symbols} := by
    have hsymbols : pair.symbols = ["x", "y"] := rfl
    rw [hsymbols]
    intro x hx y hy hxy
    simp only [k, Set.mem_ofPred_eq, List.mem_cons, List.not_mem_nil, or_false] at hx hy hxy
    grind
  have hrename : exchanged = pair.relabel id k := rfl
  obtain ⟨hpair, hback⟩ := (hboth pair exchanged).1.mpr ⟨k, hk, hrename⟩
  exact ⟨⟨b, d, hb, hd, c, hc, v, hv, hcv⟩, hk, hrename, hpair, hback,
    (hboth pair exchanged).2 k hk⟩

end Term

end TermRewriting
