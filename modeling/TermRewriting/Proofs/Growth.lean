import Mathlib.Algebra.Group.Nat.Defs
import TermRewriting.Proofs.Equation

/-!
# How much a term can grow

A pass takes a term to one that has at most as many times its nodes as the body of the rule has, and
that is deeper by the depth of the body at most. A body is filled with terms that were found in the
node that it replaces, so none of them is larger or deeper than the node; the nodes that are replaced
lie beside each other, and all others stay.

Being larger and deeper by no more than this is a relation that has the rule as an equation
(`Rule.model_within`), and so what a pass does follows from what it does at a single node. Passes one
after the other multiply the factors and add the depths.

Results:
* `Term.Within.functor`: the bounds for the arguments are bounds for the functor.
* `Term.within_fill`: a filled template from bounds for what it is filled with.
* `Term.found_le`: what a symbol of a pattern stands for is part of the instance.
* `Rule.within_applyAll`, `Rule.within_applyTimes`: one pass, and any number of them.
* `Rule.applyTimes_growth`: the growth of a term in nodes and in depth.
-/
namespace TermRewriting

namespace Term

/-! ## Size and depth -/

def size (t : Term) : Nat := t.nodes.length

def sizeAll (ts : List Term) : Nat := (nodesList ts).length

mutual

/-- How many functors lie one inside the other: none in a symbol, and in a functor one more than in
the deepest argument. -/
def depth : Term → Nat
  | .symbol _ => 0
  | .functor _ args => 1 + depthAll args

def depthAll : List Term → Nat
  | [] => 0
  | t :: ts => max t.depth (depthAll ts)

end

@[simp] theorem size_symbol (x : String) : (symbol x).size = 1 := rfl

@[simp] theorem size_functor (f : String) (args : List Term) :
    (functor f args).size = sizeAll args + 1 := by
  simp [size, sizeAll, nodes]

@[simp] theorem sizeAll_nil : sizeAll [] = 0 := rfl

@[simp] theorem sizeAll_cons (t : Term) (ts : List Term) :
    sizeAll (t :: ts) = t.size + sizeAll ts := by
  simp [size, sizeAll, nodesList]

theorem size_pos (t : Term) : 0 < t.size := by
  cases t <;> simp

theorem le_all_of_mem {t : Term} : ∀ {ts : List Term}, t ∈ ts →
    t.size ≤ sizeAll ts ∧ t.depth ≤ depthAll ts
  | u :: ts, h => by
    rw [sizeAll_cons, depthAll]
    rcases List.mem_cons.mp h with rfl | h
    · omega
    · have := le_all_of_mem h
      omega

/-! ## Terms within bounds of each other -/

/-- `u` has at most `m` times as many nodes as `t`, and is deeper by `d` at most. -/
structure Within (m d : Nat) (t u : Term) : Prop where
  size : u.size ≤ t.size * m
  depth : u.depth ≤ t.depth + d

section
variable {m d : Nat}

theorem Within.refl (hm : 0 < m) (t : Term) : Within m d t t :=
  ⟨Nat.le_mul_of_pos_right _ hm, Nat.le_add_right _ _⟩

theorem Within.trans {m' d' : Nat} {s t u : Term} (h : Within m d s t) (h' : Within m' d' t u) :
    Within (m * m') (d + d') s u := by
  refine ⟨?_, ?_⟩
  · calc u.size ≤ t.size * m' := h'.size
      _ ≤ s.size * m * m' := Nat.mul_le_mul_right m' h.size
      _ = s.size * (m * m') := Nat.mul_assoc _ _ _
  · have h1 := h.depth
    have h2 := h'.depth
    omega

theorem all_le_of_within {ss ts : List Term} (h : List.Forall₂ (Within m d) ss ts) :
    sizeAll ts ≤ sizeAll ss * m ∧ depthAll ts ≤ depthAll ss + d := by
  induction h with
  | nil => simp [depthAll]
  | cons hst _ ih =>
    obtain ⟨hsize, hdepth⟩ := hst
    rw [sizeAll_cons, sizeAll_cons, depthAll, depthAll, Nat.add_mul]
    omega

theorem Within.functor (hm : 0 < m) (f g : String) {ss ts : List Term}
    (h : List.Forall₂ (Within m d) ss ts) : Within m d (.functor f ss) (.functor g ts) := by
  obtain ⟨hsize, hdepth⟩ := all_le_of_within h
  refine ⟨?_, ?_⟩
  · rw [size_functor, size_functor, Nat.add_mul]
    omega
  · rw [Term.depth, Term.depth]
    omega

/-- A filled template is larger than the template by no more than what it is filled with. -/
theorem within_fill {g : String → String} {s : String → Term} (hm : 0 < m)
    (hs : ∀ x, (s x).size ≤ m ∧ (s x).depth ≤ d) (t : Term) : Within m d t (t.fill g s) := by
  induction t with
  | symbol x =>
    have hx := hs x
    refine ⟨?_, ?_⟩
    · rw [fill_symbol, size_symbol]
      omega
    · rw [fill_symbol, Term.depth]
      omega
  | functor f args ih =>
    rw [fill_functor]
    refine Within.functor hm _ _ ?_
    rw [List.forall₂_map_right_iff, List.forall₂_same]
    exact ih

end

/-- A symbol of a pattern stands for a part of the instance. -/
theorem found_le (s : String → Term) {x : String} (p : Term) : x ∈ p.symbols →
    (s x).size ≤ (p.instantiate s).size ∧ (s x).depth ≤ (p.instantiate s).depth := by
  induction p with
  | symbol y =>
    intro hx
    rw [symbols_symbol, List.mem_singleton] at hx
    rw [hx, instantiate_symbol]
    exact ⟨Nat.le_refl _, Nat.le_refl _⟩
  | functor f args ih =>
    intro hx
    rw [symbols_functor, List.mem_flatMap] at hx
    obtain ⟨a, ha, hxa⟩ := hx
    have hmem : a.instantiate s ∈ args.map (instantiate s) := List.mem_map_of_mem ha
    have hargs := le_all_of_mem hmem
    have hfound := ih a ha hxa
    rw [instantiate_functor, size_functor, depth]
    omega

end Term

namespace Rule

/-! ## One pass -/

/-- What the bindings put in is no larger and no deeper than the instance that they are from; a name
that is not bound stays a symbol. -/
theorem assignment_le {p : Term} {b : Bindings} (hb : ∀ x, (b.get? x).isSome ↔ x ∈ p.symbols)
    (x : String) : (b.assignment x).size ≤ (p.instantiate b.assignment).size ∧
      (b.assignment x).depth ≤ (p.instantiate b.assignment).depth := by
  by_cases hx : x ∈ p.symbols
  · exact Term.found_le b.assignment p hx
  · have hfree : b.get? x = none := by rwa [← Option.not_isSome_iff_eq_none, hb]
    rw [Bindings.assignment, hfree, Option.getD_none, Term.size_symbol, Term.depth]
    exact ⟨Term.size_pos _, Nat.zero_le _⟩

/-- The bounds that the body sets have the rule as an equation. -/
theorem model_within (r : Rule) : r.Model (Term.Within r.body.size r.body.depth) where
  refl := Term.Within.refl r.body.size_pos
  functor f _ _ := Term.Within.functor r.body.size_pos f f
  equation b u hb hu := by
    obtain ⟨-, rfl⟩ := Term.substitute_eq_ok_iff.mp hu
    have h := Term.within_fill (g := b.newName) (Term.size_pos _) (assignment_le hb) r.body
    refine ⟨?_, ?_⟩
    · rw [Nat.mul_comm]
      exact h.size
    · rw [Nat.add_comm]
      exact h.depth

theorem within_applyAll {r : Rule} {t u : Term} (h : r.applyAll t = .ok u) :
    Term.Within r.body.size r.body.depth t u :=
  r.model_within.of_applyAll t u h

/-! ## Several passes -/

/-- The term after a number of passes one after the other, or the first error. -/
def applyTimes (r : Rule) : (times : Nat) → Term → Except SubstitutionError Term
  | 0, t => .ok t
  | k + 1, t =>
    match r.applyAll t with
    | .error e => .error e
    | .ok u => r.applyTimes k u

theorem applyTimes_succ_eq_ok {r : Rule} {k : Nat} {t u : Term} :
    r.applyTimes (k + 1) t = .ok u ↔ ∃ v, r.applyAll t = .ok v ∧ r.applyTimes k v = .ok u := by
  rw [applyTimes]
  cases r.applyAll t <;> simp

theorem within_applyTimes {r : Rule} {u : Term} : ∀ {k : Nat} {t : Term},
    r.applyTimes k t = .ok u → Term.Within (r.body.size ^ k) (k * r.body.depth) t u
  | 0, t, h => by
    cases h
    exact Term.Within.refl (by simp) u
  | k + 1, t, h => by
    obtain ⟨v, hv, hu⟩ := applyTimes_succ_eq_ok.mp h
    have hboth := (within_applyAll hv).trans (within_applyTimes hu)
    rwa [Nat.pow_succ', Nat.succ_mul, Nat.add_comm]

/-- **Growth is bounded.** After any number of passes that all succeed, a term has at most as many
nodes as before, times the number of nodes of the rule's body for each pass. It is deeper by the depth
of the body for each pass at most. -/
theorem applyTimes_growth {r : Rule} {k : Nat} {t u : Term} (h : r.applyTimes k t = .ok u) :
    u.size ≤ t.size * r.body.size ^ k ∧ u.depth ≤ t.depth + k * r.body.depth :=
  ⟨(within_applyTimes h).size, (within_applyTimes h).depth⟩

/-- A call is kept beside a copy of its argument. The first pass leaves two calls for the second one,
one from the rule's body and one from the argument. -/
theorem applyTimes_growth_doubled :
    let f : Term → Term := fun t => .functor "f" [t]
    let pair : Term → Term → Term := fun s t => .functor "pair" [s, t]
    let r : Rule := ⟨f (.symbol "x"), pair (f (.symbol "x")) (.symbol "x")⟩
    let a : Term := .functor "a" []
    let t : Term := .functor "g" [f (f a)]
    let u : Term := .functor "g" [pair (pair (f (f a)) (f a)) (pair (f a) a)]
    r.applyTimes 2 t = .ok u ∧
      (u.size ≤ t.size * r.body.size ^ 2 ∧ u.depth ≤ t.depth + 2 * r.body.depth) ∧
      (t.size, r.body.size, u.size) = (4, 4, 12) ∧ (t.depth, r.body.depth, u.depth) = (4, 2, 6) := by
  intro f pair r a t u
  have hu : r.applyTimes 2 t = .ok u := rfl
  exact ⟨hu, applyTimes_growth hu, rfl, rfl⟩

end Rule

end TermRewriting
