import Mathlib.Data.List.OfFn
import Mathlib.Logic.Equiv.Defs
import TermRewriting.Proofs.Instance

/-!
# The order of the arguments

A match goes through the arguments from the left. The first occurrence of a variable binds it and
the others are compared with that one, so in another order another occurrence binds, and a match
that fails does so at another argument. What comes out is the same: the instances of the pattern and
its symbols decide it, and neither depends on where a pair of arguments stands.

Results:
* `Term.match?_eq_of_instances`: two matches that have the same instances and the same symbols have
  the same outcome.
* `Term.match?_functor_eq_of_mem_iff`: a match of two functors depends only on which pairs of
  arguments there are.
* `Term.match?_functor_reordered`: the same reordering on both sides leaves the outcome as it is.
-/
namespace TermRewriting.Term

/-- Two matches come out the same if the same assignments solve them and the same symbols occur in
their patterns. -/
theorem match?_eq_of_instances {p q t u : Term}
    (hsolve : ∀ s, p.instantiate s = t ↔ q.instantiate s = u)
    (hsymbols : ∀ x, x ∈ p.symbols ↔ x ∈ q.symbols) : p.match? t = q.match? u := by
  cases hb : p.match? t with
  | none =>
    symm
    rw [match?_eq_none_iff] at hb ⊢
    exact fun s hs => hb s ((hsolve s).mpr hs)
  | some b =>
    have hr := b.agrees_assignment.restricts (isSome_get?_match? hb)
    have hs := (hsolve b.assignment).mp (instantiate_assignment_of_match? hb)
    obtain ⟨c, hc, hr'⟩ := match?_restricts hs
    have hbc : b = c := by
      refine Bindings.ext_get? fun x => ?_
      rw [hr x, hr' x]
      simp only [hsymbols x]
    rw [hc, hbc]

/-! ## Arguments in pairs -/

/-- An assignment solves the match of two functors if it solves each pair of arguments, wherever the
pair stands. -/
theorem instantiate_functor_pairs_iff (f : String) (args : List (Term × Term))
    (s : String → Term) :
    (functor f (args.map Prod.fst)).instantiate s = functor f (args.map Prod.snd) ↔
      ∀ a ∈ args, a.1.instantiate s = a.2 := by
  rw [instantiate_functor, List.map_map, functor.injEq, and_iff_right rfl, List.map_inj_left]
  rfl

theorem mem_symbols_functor_pairs (f : String) (args : List (Term × Term)) (x : String) :
    x ∈ (functor f (args.map Prod.fst)).symbols ↔ ∃ a ∈ args, x ∈ a.1.symbols := by
  rw [symbols_functor, List.flatMap_map, List.mem_flatMap]

/-- Neither the place of a pair nor how often it occurs matters to a match. -/
theorem match?_functor_eq_of_mem_iff (f : String) {args args' : List (Term × Term)}
    (h : ∀ a, a ∈ args ↔ a ∈ args') :
    (functor f (args.map Prod.fst)).match? (functor f (args.map Prod.snd)) =
      (functor f (args'.map Prod.fst)).match? (functor f (args'.map Prod.snd)) := by
  refine match?_eq_of_instances (fun s => ?_) fun x => ?_
  · rw [instantiate_functor_pairs_iff, instantiate_functor_pairs_iff]
    simp only [h]
  · rw [mem_symbols_functor_pairs, mem_symbols_functor_pairs]
    simp only [h]

/-- **The order of the arguments does not matter.** If the arguments of a pattern and those of a
term are put in another order, the same one on both sides, either both matches fail or both find the
same set. -/
theorem match?_functor_reordered (f : String) {n : Nat} (ps ts : Fin n → Term)
    (σ : Equiv.Perm (Fin n)) :
    (functor f (List.ofFn fun i => ps (σ i))).match? (functor f (List.ofFn fun i => ts (σ i))) =
      (functor f (List.ofFn ps)).match? (functor f (List.ofFn ts)) := by
  have hmem : ∀ a, a ∈ List.ofFn (fun i => (ps (σ i), ts (σ i))) ↔
      a ∈ List.ofFn fun i => (ps i, ts i) := by
    intro a
    rw [List.mem_ofFn', List.mem_ofFn']
    exact Set.ext_iff.mp (σ.surjective.range_comp fun i => (ps i, ts i)) a
  have hmatch := match?_functor_eq_of_mem_iff f hmem
  simpa only [List.map_ofFn, Function.comp_def] using hmatch

end TermRewriting.Term
