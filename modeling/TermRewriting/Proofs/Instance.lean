import TermRewriting.Matching

/-!
# Instances of a pattern

An assignment gives a term to every name. The instance of a pattern under an assignment has the
assigned terms in place of the symbols, and the functors as they are. A binding set stands for all
assignments that agree with it on the names it binds; every step of a match keeps of them those that
also make the pattern the term.

Results:
* `Term.matchFrom_agrees`, `Term.matchAllFrom_agrees`: the assignments that agree with the outcome
  of a match are those that agree with its start and make the pattern the term.
* `Term.isSome_get?_matchFrom`: a match adds the symbols of the pattern to the bound names, and no
  others.
* `Term.matchFrom_eq_some_iff_extension`: what a match makes of the set it starts with.
* `Term.match?_eq_some_iff_instance`: a term matches a pattern exactly if it is an instance of it,
  and what is found is the assignment on the symbols of the pattern.
-/
namespace TermRewriting

namespace Term

/-! ## Symbols and functor names -/

def Node.symbol? : Node → Option String
  | ⟨name, none⟩ => some name
  | ⟨_, some _⟩ => none

/-- The names of the symbols of a term, from the left, each as often as it occurs. -/
def symbols (t : Term) : List String := t.nodes.filterMap Node.symbol?

@[simp] theorem symbols_symbol (x : String) : (symbol x).symbols = [x] := rfl

@[simp] theorem symbols_functor (f : String) (args : List Term) :
    (functor f args).symbols = args.flatMap symbols := by
  rw [symbols, nodes, nodesList_eq, List.filterMap_cons_none rfl, List.filterMap_flatMap]
  rfl

/-! ## Instances -/

mutual

/-- The pattern with every symbol replaced by the term assigned to it. -/
def instantiate (s : String → Term) : (pattern : Term) → Term
  | .symbol x => s x
  | .functor f ps => .functor f (instantiateAll s ps)

def instantiateAll (s : String → Term) : (patterns : List Term) → List Term
  | [] => []
  | p :: ps => p.instantiate s :: instantiateAll s ps

end

theorem instantiateAll_eq (s : String → Term) (ps : List Term) :
    instantiateAll s ps = ps.map (instantiate s) := by
  induction ps with
  | nil => rfl
  | cons p ps ih => rw [instantiateAll, ih, List.map_cons]

@[simp] theorem instantiate_symbol (s : String → Term) (x : String) :
    (symbol x).instantiate s = s x := rfl

@[simp] theorem instantiate_functor (s : String → Term) (f : String) (ps : List Term) :
    (functor f ps).instantiate s = .functor f (ps.map (instantiate s)) := by
  rw [instantiate, instantiateAll_eq]

end Term

/-! ## Assignments that agree with a binding set -/

namespace Bindings

/-- The assignment gives every bound name the term it is bound to. -/
def Agrees (b : Bindings) (s : String → Term) : Prop := ∀ x u, b.get? x = some u → s x = u

theorem agrees_empty (s : String → Term) : empty.Agrees s := by
  intro x u h
  cases h

theorem agrees_bind {b : Bindings} {x : String} (hx : b.get? x = none) (t : Term)
    (s : String → Term) : (b.bind x t).Agrees s ↔ b.Agrees s ∧ s x = t := by
  constructor
  · intro h
    refine ⟨fun y u hy => h y u ?_, h x t (by rw [get?_bind, if_pos rfl])⟩
    have hne : x ≠ y := by
      intro e
      rw [← e, hx] at hy
      cases hy
    rw [get?_bind, if_neg hne, hy]
  · rintro ⟨h, hst⟩ y u hy
    rw [get?_bind] at hy
    split at hy
    · rename_i e
      cases hy
      rw [← e, hst]
    · exact h y u hy

/-- The assignment that a set gives by itself: a name without a binding stands for its symbol. -/
def assignment (b : Bindings) (x : String) : Term := (b.get? x).getD (.symbol x)

theorem agrees_assignment (b : Bindings) : b.Agrees b.assignment := by
  intro x u h
  rw [assignment, h, Option.getD_some]

/-- The set binds exactly the given names, each to the term assigned to it. -/
def Restricts (b : Bindings) (s : String → Term) (names : List String) : Prop :=
  ∀ x, b.get? x = if x ∈ names then some (s x) else none

theorem Restricts.unique {b c : Bindings} {s : String → Term} {names : List String}
    (hb : b.Restricts s names) (hc : c.Restricts s names) : b = c :=
  ext_get? fun x => (hb x).trans (hc x).symm

theorem Agrees.restricts {b : Bindings} {s : String → Term} {names : List String}
    (h : b.Agrees s) (hdom : ∀ x, (b.get? x).isSome ↔ x ∈ names) : b.Restricts s names := by
  intro x
  cases hx : b.get? x with
  | none =>
    have hn : x ∉ names := by rw [← hdom, hx]; simp
    rw [if_neg hn]
  | some u =>
    have hn : x ∈ names := by rw [← hdom, hx]; rfl
    rw [if_pos hn, h x u hx]

theorem agrees_assignment_of_kept {b c : Bindings}
    (h : ∀ x u, b.get? x = some u → c.get? x = some u) : b.Agrees c.assignment :=
  fun x u hx => c.agrees_assignment x u (h x u hx)

/-- What a set gives to a name it binds is settled by an assignment that agrees with it. -/
theorem Agrees.eq {b c : Bindings} {s : String → Term} (hb : b.Agrees s) (hc : c.Agrees s)
    (hdom : ∀ x, (b.get? x).isSome ↔ (c.get? x).isSome) : b = c := by
  refine ext_get? fun x => ?_
  cases hx : b.get? x with
  | none =>
    have hnone : ¬ (c.get? x).isSome := by rw [← hdom, hx]; simp
    exact (Option.not_isSome_iff_eq_none.mp hnone).symm
  | some u =>
    have hsome : (c.get? x).isSome := by rw [← hdom, hx]; rfl
    obtain ⟨v, hv⟩ := Option.isSome_iff_exists.mp hsome
    rw [hv, ← hb x u hx, hc x v hv]

end Bindings

/-! ## What a match does to the assignments -/

namespace Term

/-- A match of lists, given what a match of each pattern does. -/
theorem matchAllFrom_agrees (s : String → Term) : ∀ (ps ts : List Term) (b : Bindings),
    (∀ p ∈ ps, ∀ t b, (∃ c, matchFrom p t b = some c ∧ c.Agrees s) ↔
      b.Agrees s ∧ p.instantiate s = t) →
    ((∃ c, matchAllFrom ps ts b = some c ∧ c.Agrees s) ↔
      b.Agrees s ∧ ps.map (instantiate s) = ts)
  | [], [], b, _ => by simp [matchAllFrom]
  | [], _ :: _, b, _ => by simp [matchAllFrom]
  | _ :: _, [], b, _ => by simp [matchAllFrom]
  | p :: ps, t :: ts, b, h => by
    have hp := h p List.mem_cons_self t b
    have hps := fun d => matchAllFrom_agrees s ps ts d fun q hq => h q (List.mem_cons_of_mem _ hq)
    rw [matchAllFrom, List.map_cons, List.cons.injEq, ← and_assoc, ← hp]
    cases hm : matchFrom p t b with
    | none => simp
    | some d => simp [hps]

theorem matchFrom_agrees (s : String → Term) (p : Term) : ∀ (t : Term) (b : Bindings),
    (∃ c, matchFrom p t b = some c ∧ c.Agrees s) ↔ b.Agrees s ∧ p.instantiate s = t := by
  induction p with
  | symbol x =>
    intro t b
    cases hx : b.get? x with
    | none =>
      rw [matchFrom_symbol_of_free hx]
      simp [Bindings.agrees_bind hx]
    | some u =>
      rw [matchFrom_symbol_of_bound hx, instantiate_symbol]
      constructor
      · rintro ⟨c, hc, hs⟩
        split at hc
        · rename_i hut
          cases hc
          exact ⟨hs, (hs x u hx).trans hut⟩
        · cases hc
      · rintro ⟨hs, hst⟩
        have hut : u = t := (hs x u hx).symm.trans hst
        exact ⟨b, if_pos hut, hs⟩
  | functor f ps ih =>
    intro t b
    cases t with
    | symbol y => simp [matchFrom]
    | functor g ts =>
      have hall := matchAllFrom_agrees s ps ts b ih
      by_cases hfg : f = g <;> simp [matchFrom, hfg, hall]

/-- The names bound by a match of lists, given those bound by a match of each pattern. -/
theorem isSome_get?_matchAllFrom (x : String) : ∀ (ps ts : List Term) (b c : Bindings),
    (∀ p ∈ ps, ∀ t b c, matchFrom p t b = some c →
      ((c.get? x).isSome ↔ (b.get? x).isSome ∨ x ∈ p.symbols)) →
    matchAllFrom ps ts b = some c →
    ((c.get? x).isSome ↔ (b.get? x).isSome ∨ x ∈ ps.flatMap symbols)
  | [], [], b, c, _, h => by cases h; simp
  | [], _ :: _, b, c, _, h => by simp [matchAllFrom] at h
  | _ :: _, [], b, c, _, h => by simp [matchAllFrom] at h
  | p :: ps, t :: ts, b, c, hp, h => by
    rw [matchAllFrom] at h
    split at h
    · cases h
    · rename_i d hd
      have h1 := hp p List.mem_cons_self t b d hd
      have h2 := isSome_get?_matchAllFrom x ps ts d c
        (fun q hq => hp q (List.mem_cons_of_mem _ hq)) h
      rw [h2, h1, List.flatMap_cons, List.mem_append, or_assoc]

theorem isSome_get?_matchFrom (x : String) (p : Term) : ∀ (t : Term) (b c : Bindings),
    matchFrom p t b = some c → ((c.get? x).isSome ↔ (b.get? x).isSome ∨ x ∈ p.symbols) := by
  induction p with
  | symbol y =>
    intro t b c h
    cases hy : b.get? y with
    | none =>
      rw [matchFrom_symbol_of_free hy] at h
      cases h
      rw [Bindings.get?_bind, symbols_symbol, List.mem_singleton]
      by_cases hyx : y = x
      · simp [hyx]
      · simp [hyx, Ne.symm hyx]
    | some u =>
      rw [matchFrom_symbol_of_bound hy] at h
      split at h
      · cases h
        rw [symbols_symbol, List.mem_singleton]
        constructor
        · exact Or.inl
        · rintro (h | rfl)
          · exact h
          · rw [hy]; rfl
      · cases h
  | functor f ps ih =>
    intro t b c h
    cases t with
    | symbol y => cases h
    | functor g ts =>
      rw [matchFrom] at h
      split at h
      · rw [symbols_functor]
        exact isSome_get?_matchAllFrom x ps ts b c ih h
      · cases h

/-! ## What a match makes of the set it starts with -/

/-- The set `c` extends `b` by what makes the pattern the term. -/
structure Extension (p t : Term) (b c : Bindings) : Prop where
  /-- What is bound stays bound, to the same term. -/
  kept : ∀ x u, b.get? x = some u → c.get? x = some u
  /-- Besides, the symbols of the pattern are bound, and no other name is. -/
  bound : ∀ x, (c.get? x).isSome ↔ (b.get? x).isSome ∨ x ∈ p.symbols
  /-- The pattern is the term if every symbol is replaced by what it is bound to. -/
  instance_eq : p.instantiate c.assignment = t

theorem extension_of_matchFrom {p t : Term} {b c : Bindings} (h : p.matchFrom t b = some c) :
    Extension p t b c := by
  have hbound := fun x => isSome_get?_matchFrom x p t b c h
  obtain ⟨hb, hinst⟩ := (matchFrom_agrees c.assignment p t b).mp ⟨c, h, c.agrees_assignment⟩
  refine ⟨fun x u hx => ?_, hbound, hinst⟩
  have hsome : (c.get? x).isSome := (hbound x).mpr (Or.inl (by rw [hx]; rfl))
  obtain ⟨v, hv⟩ := Option.isSome_iff_exists.mp hsome
  rw [hv, ← hb x u hx, c.agrees_assignment x v hv]

/-- The assignment of an extension makes the pattern the term, so the match finds a set that agrees
with it, and there is only one that binds the same names. -/
theorem Extension.matchFrom_eq {p t : Term} {b c : Bindings} (h : Extension p t b c) :
    p.matchFrom t b = some c := by
  obtain ⟨d, hd, hs⟩ := (matchFrom_agrees c.assignment p t b).mpr
    ⟨Bindings.agrees_assignment_of_kept h.kept, h.instance_eq⟩
  have hdc : d = c := hs.eq c.agrees_assignment fun x =>
    (isSome_get?_matchFrom x p t b d hd).trans (h.bound x).symm
  rw [hd, hdc]

/-- **A match extends the set it starts with.** Whatever is bound already, and whether or not it fits
the term, a match finds the set that keeps those bindings, binds the symbols of the pattern besides
and nothing else, and makes the pattern the term. It finds none exactly if there is no such set. -/
theorem matchFrom_eq_some_iff_extension (p t : Term) (b : Bindings) :
    (∀ c, p.matchFrom t b = some c ↔ Extension p t b c) ∧
      (p.matchFrom t b = none ↔ ¬ ∃ c, Extension p t b c) := by
  have hsome : ∀ c, p.matchFrom t b = some c ↔ Extension p t b c :=
    fun c => ⟨extension_of_matchFrom, Extension.matchFrom_eq⟩
  refine ⟨hsome, ?_⟩
  rw [Option.eq_none_iff_forall_ne_some, not_exists]
  exact forall_congr' fun c => not_congr (hsome c)

/-! ## Matching finds the instances -/

theorem match?_agrees (s : String → Term) (p t : Term) :
    (∃ b, p.match? t = some b ∧ b.Agrees s) ↔ p.instantiate s = t := by
  rw [match?, matchFrom_agrees]
  exact and_iff_right (Bindings.agrees_empty s)

theorem isSome_get?_match? {p t : Term} {b : Bindings} (h : p.match? t = some b) (x : String) :
    (b.get? x).isSome ↔ x ∈ p.symbols := by
  rw [isSome_get?_matchFrom x p t .empty b h]
  simp

theorem get?_eq_none_iff_of_match? {p t : Term} {b : Bindings} (h : p.match? t = some b)
    {x : String} : b.get? x = none ↔ x ∉ p.symbols := by
  rw [← Option.not_isSome_iff_eq_none, isSome_get?_match? h]

theorem mem_symbols_of_match? {p t u : Term} {b : Bindings} (h : p.match? t = some b) {x : String}
    (hu : b.get? x = some u) : x ∈ p.symbols := by
  rw [← isSome_get?_match? h, hu]
  rfl

/-- What is found is the assignment that makes the pattern the term. -/
theorem match?_restricts {p t : Term} {s : String → Term} (h : p.instantiate s = t) :
    ∃ b, p.match? t = some b ∧ b.Restricts s p.symbols := by
  obtain ⟨b, hb, hs⟩ := (match?_agrees s p t).mpr h
  exact ⟨b, hb, hs.restricts (isSome_get?_match? hb)⟩

theorem instantiate_assignment_of_match? {p t : Term} {b : Bindings} (h : p.match? t = some b) :
    p.instantiate b.assignment = t :=
  (match?_agrees _ p t).mp ⟨b, h, b.agrees_assignment⟩

theorem match?_eq_none_iff (p t : Term) : p.match? t = none ↔ ∀ s, p.instantiate s ≠ t := by
  constructor
  · intro h s hs
    obtain ⟨b, hb, -⟩ := match?_restricts hs
    rw [h] at hb
    cases hb
  · intro h
    cases hb : p.match? t with
    | none => rfl
    | some b => exact absurd (instantiate_assignment_of_match? hb) (h _)

/-- **Matching is instance finding.** A term matches a pattern exactly if it is the pattern's
instance under some assignment; the set that is found then binds the symbols of the pattern to what
the assignment gives them and nothing else, and no other set does. -/
theorem match?_eq_some_iff_instance (p t : Term) :
    ((∃ b, p.match? t = some b) ↔ ∃ s, p.instantiate s = t) ∧
    (∀ b s, p.match? t = some b → p.instantiate s = t →
      (∀ x, b.get? x = if x ∈ p.symbols then some (s x) else none) ∧
      ∀ c : Bindings, (∀ x, c.get? x = if x ∈ p.symbols then some (s x) else none) → c = b) ∧
    (p.match? t = none ↔ ∀ s, p.instantiate s ≠ t) := by
  refine ⟨⟨?_, ?_⟩, ?_, match?_eq_none_iff p t⟩
  · rintro ⟨b, hb⟩
    exact ⟨b.assignment, instantiate_assignment_of_match? hb⟩
  · rintro ⟨s, hs⟩
    obtain ⟨b, hb, -⟩ := match?_restricts hs
    exact ⟨b, hb⟩
  · intro b s hb hs
    obtain ⟨c, hc, hr⟩ := match?_restricts hs
    rw [hb] at hc
    cases hc
    exact ⟨hr, fun d hd => Bindings.Restricts.unique hd hr⟩

/-- The two places of a repeated variable hold the same term. -/
theorem match?_eq_some_iff_instance_repeated :
    let p : Term := .functor "f" [.symbol "x", .functor "g" [.symbol "x", .symbol "y"]]
    let t : Term := .functor "f" [.functor "k" [], .functor "g" [.functor "k" [], .symbol "x"]]
    let s : String → Term := fun x => if x = "x" then .functor "k" [] else .symbol "x"
    p.instantiate s = t ∧ ∃ b, p.match? t = some b ∧
      ∀ x, b.get? x = if x ∈ p.symbols then some (s x) else none := by
  intro p t s
  have hs : p.instantiate s = t := rfl
  obtain ⟨b, hb⟩ := (match?_eq_some_iff_instance p t).1.mpr ⟨s, hs⟩
  exact ⟨hs, b, hb, ((match?_eq_some_iff_instance p t).2.1 b s hb hs).1⟩

end Term

end TermRewriting
