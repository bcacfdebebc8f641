import Mathlib.Data.List.Forall2
import Mathlib.Logic.Relation
import TermRewriting.Proofs.Filling
import TermRewriting.Rewriting

/-!
# Rules read as equations

A rule says that every instance of its head equals the body with the same bindings plugged in. A
relation on terms is a model of the rule if it has these pairs, relates every term to itself, and
goes through functors. A pass only ever replaces equals by equals: in every model the result is
related to the term, and in a transitive model so is what comes out of any number of passes.

An equation can also be read from right to left. That gives the term back if both sides have the same
symbols and plugging in renames no functor on either side.

Results:
* `Rule.forall₂_of_applyEach`: a pass over a list is a pass over each of its terms.
* `Rule.Model.of_match`: a node that matches is related to what takes its place.
* `Rule.Model.of_applyAll`: the term is related to the result of a pass.
* `Rule.applyAll_sound`: one pass, and any number of them, in a model of the rule.
* `Rule.Reversible.match?_body`: what the head has bound is found again in the instance of the body.
* `Rule.applyAll_flip_undoes`: the flipped rule undoes a rewriting at the root.
-/
namespace TermRewriting.Rule

/-- The relation has the rule as an equation, from left to right: a binding set for the symbols of
the head relates the instance of the head to the body with the bindings plugged in. -/
structure Model (r : Rule) (R : Term → Term → Prop) : Prop where
  refl : ∀ t, R t t
  functor : ∀ f ss ts, List.Forall₂ R ss ts → R (.functor f ss) (.functor f ts)
  equation : ∀ (b : Bindings) (u : Term), (∀ x, (b.get? x).isSome ↔ x ∈ r.head.symbols) →
    r.body.substitute b = .ok u → R (r.head.instantiate b.assignment) u

/-- A pass over `t` gives `u`. -/
def Rewrites (r : Rule) (t u : Term) : Prop := r.applyAll t = .ok u

theorem forall₂_of_applyEach {r : Rule} : ∀ {ts us : List Term},
    r.applyEach ts = .ok us → List.Forall₂ r.Rewrites ts us
  | [], us, h => by
    rw [applyEach_nil] at h
    cases h
    exact .nil
  | t :: ts, us, h => by
    obtain ⟨v, vs, hv, hvs, rfl⟩ := applyEach_cons_eq_ok.mp h
    exact .cons hv (forall₂_of_applyEach hvs)

namespace Model

variable {r : Rule} {R : Term → Term → Prop} (hR : r.Model R)
include hR

/-- A node that matches is an instance of the head, and its bindings are for the symbols of the head
only. -/
theorem of_match {t u : Term} {b : Bindings} (h : r.head.match? t = some b)
    (hu : r.body.substitute b = .ok u) : R t u := by
  have hpair := hR.equation b u (Term.isSome_get?_match? h) hu
  rwa [Term.instantiate_assignment_of_match? h] at hpair

theorem of_applyAll (t : Term) : ∀ u, r.Rewrites t u → R t u := by
  induction t using r.pass_induction with
  | matched t b h =>
    intro u hu
    rw [Rewrites, applyAll_of_match h] at hu
    exact hR.of_match h hu
  | symbol x h =>
    intro u hu
    rw [Rewrites, applyAll_symbol h] at hu
    cases hu
    exact hR.refl _
  | functor f args h ih =>
    intro u hu
    obtain ⟨us, hus, rfl⟩ := (applyAll_functor_eq_ok h).mp hu
    have hargs := (List.forall₂_and_left args us).mpr ⟨ih, forall₂_of_applyEach hus⟩
    exact hR.functor f args us (hargs.imp fun a v hav => hav.1 v hav.2)

theorem of_reflTransGen (htrans : ∀ s t u, R s t → R t u → R s u) {t u : Term}
    (h : Relation.ReflTransGen r.Rewrites t u) : R t u := by
  induction h with
  | refl => exact hR.refl t
  | tail _ hlast ih => exact htrans _ _ _ ih (hR.of_applyAll _ _ hlast)

end Model

/-- **A pass replaces equals by equals.** In every relation that has the rule as an equation, is
reflexive and goes through functors, a term is related to the result of a pass over it. If the
relation is transitive, the term is related to the result of any number of passes one after the
other. -/
theorem applyAll_sound {r : Rule} {R : Term → Term → Prop} (hR : r.Model R) :
    (∀ t u, r.applyAll t = .ok u → R t u) ∧
    ((∀ s t u, R s t → R t u → R s u) →
      ∀ t u, Relation.ReflTransGen r.Rewrites t u → R t u) :=
  ⟨hR.of_applyAll, fun htrans _ _ h => hR.of_reflTransGen htrans h⟩

/-- A rule that exchanges the parts of a pair neither adds nor loses a symbol, nor does a second pass,
over a call that the first one left in the pair. -/
theorem applyAll_sound_swap :
    let pair : Term → Term → Term := fun s t => .functor "pair" [s, t]
    let swap : Term → Term := fun t => .functor "swap" [t]
    let r : Rule := ⟨swap (pair (.symbol "a") (.symbol "b")), pair (.symbol "b") (.symbol "a")⟩
    let R : Term → Term → Prop := fun s t => ∀ x, x ∈ s.symbols ↔ x ∈ t.symbols
    let inner : Term := swap (pair (.symbol "x") (.symbol "y"))
    let t : Term := .functor "f" [swap (pair inner (.symbol "z"))]
    let u : Term := .functor "f" [pair (.symbol "z") inner]
    let v : Term := .functor "f" [pair (.symbol "z") (pair (.symbol "y") (.symbol "x"))]
    r.Model R ∧ (∀ s t u, R s t → R t u → R s u) ∧ r.applyAll t = .ok u ∧ R t u ∧
      Relation.ReflTransGen r.Rewrites t v ∧ R t v := by
  intro pair swap r R inner t u v
  have hfunctor : ∀ f ss ts, List.Forall₂ R ss ts → R (.functor f ss) (.functor f ts) := by
    intro f ss ts h x
    rw [Term.symbols_functor, Term.symbols_functor]
    induction h with
    | nil => rfl
    | cons hst _ ih =>
      rw [List.flatMap_cons, List.flatMap_cons, List.mem_append, List.mem_append, hst x, ih]
  have hequation : ∀ (b : Bindings) (u : Term), r.body.substitute b = .ok u →
      R (r.head.instantiate b.assignment) u := by
    intro b u hu x
    obtain ⟨-, rfl⟩ := Term.substitute_eq_ok_iff.mp hu
    simp [r, pair, swap, or_comm]
  have hR : r.Model R := ⟨fun t x => Iff.rfl, hfunctor, fun b u _ => hequation b u⟩
  have htrans : ∀ s t u, R s t → R t u → R s u := fun s t u hst htu x => (hst x).trans (htu x)
  have hu : r.Rewrites t u := rfl
  have hv : r.Rewrites u v := rfl
  have hreach : Relation.ReflTransGen r.Rewrites t v := (Relation.ReflTransGen.single hu).tail hv
  exact ⟨hR, htrans, hu, (applyAll_sound hR).1 t u hu, hreach,
    (applyAll_sound hR).2 htrans t v hreach⟩

/-! ## Rules read from right to left -/

/-- The sides have the same symbols, and none of these is the name of a functor on either side. -/
structure Reversible (r : Rule) : Prop where
  mem_symbols_iff : ∀ x, x ∈ r.head.symbols ↔ x ∈ r.body.symbols
  head_apart : ∀ f ∈ r.head.functorNames, f ∉ r.head.symbols
  body_apart : ∀ f ∈ r.body.functorNames, f ∉ r.head.symbols

namespace Reversible

variable {r : Rule} (hr : r.Reversible) {t : Term} {b : Bindings} (h : r.head.match? t = some b)
include hr h

/-- The body renames nothing. -/
theorem substitute_body : r.body.substitute b = .ok (r.body.instantiate b.assignment) := by
  refine Term.substitute_of_free fun f hf => ?_
  rw [Term.get?_eq_none_iff_of_match? h]
  exact hr.body_apart f hf

/-- In both matches the symbols that are bound are those of the head, and they stand for the same
terms, however often they occur. -/
theorem match?_body : r.body.match? (r.body.instantiate b.assignment) = some b := by
  obtain ⟨c, hc, hbody⟩ := Term.match?_restricts (p := r.body) (s := b.assignment) rfl
  have hhead : b.Restricts b.assignment r.head.symbols :=
    b.agrees_assignment.restricts (Term.isSome_get?_match? h)
  have hbody' : c.Restricts b.assignment r.head.symbols := by
    intro x
    rw [hbody x]
    simp only [hr.mem_symbols_iff]
  rw [hc, hbody'.unique hhead]

end Reversible

/-- **A flipped rule undoes the rule at the root.** If a rule is reversible and its head matches a
term, a pass over the term succeeds. The body then matches the result with the same bindings, and a
pass of the flipped rule over the result gives the term back. -/
theorem applyAll_flip_undoes {r : Rule} (hr : r.Reversible) {t : Term} {b : Bindings}
    (h : r.head.match? t = some b) :
    ∃ u, r.applyAll t = .ok u ∧ r.body.match? u = some b ∧ r.flip.applyAll u = .ok t := by
  have hbody := hr.match?_body h
  refine ⟨r.body.instantiate b.assignment, ?_, hbody, ?_⟩
  · rw [applyAll_of_match h, hr.substitute_body h]
  · have hflip : r.flip.head.match? (r.body.instantiate b.assignment) = some b := hbody
    rw [applyAll_of_match hflip]
    exact Term.substitute_of_match?_of_apart h hr.head_apart

/-- One variable occurs twice in the head and once in the body, the other the other way round. One
stands for a term that the head matches too, and the other for a functor with a variable's name. -/
theorem applyAll_flip_undoes_repeated :
    let r : Rule := ⟨.functor "f" [.symbol "x", .functor "g" [.symbol "y", .symbol "x"]],
      .functor "h" [.symbol "y", .symbol "y", .symbol "x"]⟩
    let inner : Term := .functor "f" [.symbol "y", .functor "g" [.symbol "x", .symbol "y"]]
    let t : Term := .functor "f" [inner, .functor "g" [.functor "x" [], inner]]
    let u : Term := .functor "h" [.functor "x" [], .functor "x" [], inner]
    r.Reversible ∧ ∃ b, r.head.match? t = some b ∧
      r.applyAll t = .ok u ∧ r.body.match? u = some b ∧ r.flip.applyAll u = .ok t := by
  intro r inner t u
  have hr : r.Reversible := by
    refine ⟨fun x => ?_, ?_, ?_⟩
    · have hhead : r.head.symbols = ["x", "y", "x"] := rfl
      have hbody : r.body.symbols = ["y", "y", "x"] := rfl
      rw [hhead, hbody]
      grind
    · decide
    · decide
  obtain ⟨b, hb⟩ : ∃ b, r.head.match? t = some b := ⟨_, rfl⟩
  obtain ⟨v, hv, hbody, hflip⟩ := applyAll_flip_undoes hr hb
  have hu : r.applyAll t = .ok u := rfl
  cases hv.symm.trans hu
  exact ⟨hr, b, hb, hu, hbody, hflip⟩

end TermRewriting.Rule
