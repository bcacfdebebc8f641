import TermRewriting.Term

/-!
# Positions in a term

A position leads from the top of a term to one of its nodes: it lists which argument to enter at
each functor on the way, counted from zero. Positions are ordered like the words of a dictionary, so
a node comes before the nodes below it, and an argument with all of its nodes before the arguments
to its right: the order in which a term is read.

Results:
* `Term.at?_append`: walking on from a node that was reached.
* `Term.ext_nodeAt?`: a term is determined by its nodes.
* `Term.Replaced.unique`: so is a term with some of its subterms replaced.
-/
namespace TermRewriting

/-- The way from the top of a term to a node. -/
abbrev Position := List Nat

namespace Term

/-! ## Walking down -/

/-- The subterm at a position; `none` if the way leaves the term. -/
def at? : Term → Position → Option Term
  | t, [] => some t
  | .symbol _, _ :: _ => none
  | .functor _ args, i :: p => args[i]?.bind fun a => a.at? p

@[simp] theorem at?_nil (t : Term) : t.at? [] = some t := by
  cases t <;> rfl

@[simp] theorem at?_symbol (x : String) (i : Nat) (p : Position) :
    (symbol x).at? (i :: p) = none := rfl

@[simp] theorem at?_functor (f : String) (args : List Term) (i : Nat) (p : Position) :
    (functor f args).at? (i :: p) = args[i]?.bind fun a => a.at? p := rfl

/-- Below a functor the way goes on in one of its arguments. -/
theorem at?_arg {f : String} {args : List Term} {i : Nat} {a : Term} (h : args[i]? = some a)
    (p : Position) : (functor f args).at? (i :: p) = a.at? p := by
  rw [at?_functor, h, Option.bind_some]

theorem exists_arg_of_at? {f : String} {args : List Term} {i : Nat} {p : Position} {s : Term}
    (h : (functor f args).at? (i :: p) = some s) : ∃ a, args[i]? = some a ∧ a.at? p = some s :=
  Option.bind_eq_some_iff.mp h

theorem at?_append (q : Position) : ∀ (p : Position) (t : Term),
    t.at? (p ++ q) = (t.at? p).bind fun s => s.at? q
  | [], t => by simp
  | i :: p, .symbol x => rfl
  | i :: p, .functor f args => by
    rw [List.cons_append, at?_functor, at?_functor]
    cases args[i]? with
    | none => rfl
    | some a => exact at?_append q p a

def root : Term → Node
  | .symbol x => ⟨x, none⟩
  | .functor f args => ⟨f, some args.length⟩

def nodeAt? (t : Term) (p : Position) : Option Node := (t.at? p).map root

@[simp] theorem nodeAt?_nil (t : Term) : t.nodeAt? [] = some t.root := by
  rw [nodeAt?, at?_nil, Option.map_some]

@[simp] theorem nodeAt?_symbol (x : String) (i : Nat) (p : Position) :
    (symbol x).nodeAt? (i :: p) = none := rfl

@[simp] theorem nodeAt?_functor (f : String) (args : List Term) (i : Nat) (p : Position) :
    (functor f args).nodeAt? (i :: p) = args[i]?.bind fun a => a.nodeAt? p := by
  rw [nodeAt?, at?_functor, Option.map_bind]
  rfl

/-- Two terms with the same node at every position are equal. -/
theorem ext_nodeAt? (s : Term) : ∀ t : Term, (∀ p, s.nodeAt? p = t.nodeAt? p) → s = t := by
  induction s with
  | symbol x =>
    intro t h
    have h0 := h []
    cases t with
    | symbol y =>
      simp only [nodeAt?_nil, root, Option.some.injEq, Node.mk.injEq] at h0
      rw [h0.1]
    | functor g ts => simp [root] at h0
  | functor f ss ih =>
    intro t h
    have h0 := h []
    cases t with
    | symbol y => simp [root] at h0
    | functor g ts =>
      simp only [nodeAt?_nil, root, Option.some.injEq, Node.mk.injEq] at h0
      obtain ⟨rfl, hlen⟩ := h0
      congr 1
      refine List.ext_getElem hlen fun i hs ht => ?_
      refine ih _ (List.getElem_mem hs) _ fun p => ?_
      have hp := h (i :: p)
      simpa only [nodeAt?_functor, List.getElem?_eq_getElem hs, List.getElem?_eq_getElem ht,
        Option.bind_some] using hp

/-! ## Replacing subterms -/

/-- `w` is `t` with the subterm at every position of `places` replaced by what `new` gives for it: at
the places stand the new terms, and every node that is neither at nor below a place is as before. -/
structure Replaced (t : Term) (places : Position → Prop) (new : Position → Term) (w : Term) :
    Prop where
  replaced : ∀ q, places q → w.at? q = some (new q)
  kept : ∀ p, (∀ q, places q → ¬ q <+: p) → w.nodeAt? p = t.nodeAt? p

theorem Replaced.unique {t v w : Term} {places : Position → Prop} {new : Position → Term}
    (hv : t.Replaced places new v) (hw : t.Replaced places new w) : v = w := by
  refine ext_nodeAt? v w fun p => ?_
  by_cases h : ∃ q, places q ∧ q <+: p
  · obtain ⟨q, hq, r, rfl⟩ := h
    rw [nodeAt?, nodeAt?, at?_append, at?_append, hv.replaced q hq, hw.replaced q hq]
  · rw [hv.kept p fun q hq hp => h ⟨q, hq, hp⟩, hw.kept p fun q hq hp => h ⟨q, hq, hp⟩]

end Term

end TermRewriting
