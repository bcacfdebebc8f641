import TermRewriting.Proofs.Position
import TermRewriting.Rewriting

/-!
# Where a pass rewrites

An outermost redex of a term is a node that matches the head of the rule while no node above it
does. A pass rewrites exactly these nodes: it leaves every node outside of them as it is, puts the
body with the node's bindings in place of each, and if some of the bodies have no value, it fails
with the error of the first redex, in the order of positions, whose body has none.

Results:
* `Rule.exposed_cons_iff`, `Rule.redex_iff`: the nodes that no match covers, and the redexes among
  them.
* `Rule.redex_of_match`, `Rule.redex_functor_iff`: the redexes of a term from those of its arguments.
* `Rule.applyEach_eq_ok`, `Rule.applyEach_eq_error`: a pass over a list, argument by argument.
* `Rule.rewritten_of_applyAll`, `Rule.firstFailure_of_applyAll`: what a result, and what an error, of
  a pass says about the redexes.
* `Rule.applyAll_outermost`: a pass replaces the outermost redexes, or reports the first failure.
-/
namespace TermRewriting.Rule

/-! ## Nodes that no match covers -/

/-- There is a node at `p`, and no node above it matches the head of the rule. -/
structure Exposed (r : Rule) (t : Term) (p : Position) : Prop where
  node : ∃ s, t.at? p = some s
  above : ∀ q s, q <+: p → q ≠ p → t.at? q = some s → r.head.match? s = none

theorem exposed_nil (r : Rule) (t : Term) : r.Exposed t [] := by
  refine ⟨⟨t, t.at?_nil⟩, ?_⟩
  intro q s hq hne
  exact absurd (List.prefix_nil.mp hq) hne

theorem not_exposed_cons_of_match {r : Rule} {t : Term} {b : Bindings}
    (h : r.head.match? t = some b) (i : Nat) (p : Position) : ¬ r.Exposed t (i :: p) := by
  intro hp
  have ht := hp.above [] t List.nil_prefix (by simp) t.at?_nil
  rw [h] at ht
  cases ht

theorem not_exposed_cons_symbol (r : Rule) (x : String) (i : Nat) (p : Position) :
    ¬ r.Exposed (.symbol x) (i :: p) := by
  intro hp
  obtain ⟨s, hs⟩ := hp.node
  cases hs

/-- Below a functor that does not match, the nodes of an argument are exposed as they are in the
argument alone. -/
theorem exposed_cons_iff {r : Rule} {f : String} {args : List Term}
    (h : r.head.match? (.functor f args) = none) {i : Nat} {p : Position} :
    r.Exposed (.functor f args) (i :: p) ↔ ∃ a, args[i]? = some a ∧ r.Exposed a p := by
  constructor
  · intro hp
    obtain ⟨s, hs⟩ := hp.node
    obtain ⟨a, ha, hs⟩ := Term.exists_arg_of_at? hs
    refine ⟨a, ha, ⟨s, hs⟩, ?_⟩
    intro q s' hq hne hs'
    refine hp.above (i :: q) s' (List.cons_prefix_cons.mpr ⟨rfl, hq⟩) (by simpa using hne) ?_
    rw [Term.at?_arg ha, hs']
  · intro hp
    obtain ⟨a, ha, ⟨s, hs⟩, habove⟩ := hp
    refine ⟨⟨s, (Term.at?_arg ha p).trans hs⟩, ?_⟩
    intro q s' hq hne hs'
    cases q with
    | nil =>
      cases hs'
      exact h
    | cons j q =>
      obtain ⟨rfl, hpre⟩ := List.cons_prefix_cons.mp hq
      rw [Term.at?_arg ha] at hs'
      exact habove q s' hpre (by simpa using hne) hs'

/-! ## Outermost redexes -/

/-- The node at `p` matches the head of the rule with the bindings `b`, and no node above it
matches. -/
structure Redex (r : Rule) (t : Term) (p : Position) (b : Bindings) : Prop where
  found : ∃ s, t.at? p = some s ∧ r.head.match? s = some b
  outermost : ∀ q s, q <+: p → q ≠ p → t.at? q = some s → r.head.match? s = none

theorem redex_iff {r : Rule} {t : Term} {p : Position} {b : Bindings} :
    r.Redex t p b ↔ r.Exposed t p ∧ ∃ s, t.at? p = some s ∧ r.head.match? s = some b := by
  constructor
  · intro hp
    obtain ⟨s, hs, hb⟩ := hp.found
    exact ⟨⟨⟨s, hs⟩, hp.outermost⟩, s, hs, hb⟩
  · intro h
    exact ⟨h.2, h.1.above⟩

theorem redex_nil_iff {r : Rule} {t : Term} {b : Bindings} :
    r.Redex t [] b ↔ r.head.match? t = some b := by
  simp [redex_iff, exposed_nil]

/-- If the term itself matches, it is the only redex. -/
theorem redex_of_match {r : Rule} {t : Term} {b : Bindings} (h : r.head.match? t = some b)
    {p : Position} {c : Bindings} : r.Redex t p c ↔ p = [] ∧ c = b := by
  cases p with
  | nil => simp [redex_nil_iff, h, eq_comm]
  | cons i p => simp [redex_iff, not_exposed_cons_of_match h]

theorem not_redex_symbol {r : Rule} {x : String} (h : r.head.match? (.symbol x) = none)
    (p : Position) (b : Bindings) : ¬ r.Redex (.symbol x) p b := by
  cases p with
  | nil => simp [redex_nil_iff, h]
  | cons i p => simp [redex_iff, not_exposed_cons_symbol]

/-- If a functor does not match, its redexes are those of its arguments. -/
theorem redex_functor_iff {r : Rule} {f : String} {args : List Term}
    (h : r.head.match? (.functor f args) = none) {p : Position} {b : Bindings} :
    r.Redex (.functor f args) p b ↔ ∃ i q a, p = i :: q ∧ args[i]? = some a ∧ r.Redex a q b := by
  constructor
  · intro hp
    cases p with
    | nil =>
      have hb := redex_nil_iff.mp hp
      rw [h] at hb
      cases hb
    | cons i q =>
      obtain ⟨hexp, s, hs, hb⟩ := redex_iff.mp hp
      obtain ⟨a, ha, hq⟩ := (exposed_cons_iff h).mp hexp
      rw [Term.at?_arg ha] at hs
      exact ⟨i, q, a, rfl, ha, redex_iff.mpr ⟨hq, s, hs, hb⟩⟩
  · intro hp
    obtain ⟨i, q, a, rfl, ha, hq⟩ := hp
    obtain ⟨hexp, s, hs, hb⟩ := redex_iff.mp hq
    exact redex_iff.mpr ⟨(exposed_cons_iff h).mpr ⟨a, ha, hexp⟩, s,
      (Term.at?_arg ha q).trans hs, hb⟩

/-! ## A pass over a list -/

theorem applyEach_eq_ok {r : Rule} : ∀ {ts us : List Term}, r.applyEach ts = .ok us →
    ∀ {i : Nat} {t : Term}, ts[i]? = some t → ∃ u, us[i]? = some u ∧ r.applyAll t = .ok u
  | [], _, _, _, _, ht => by simp at ht
  | s :: ts, us, h, i, t, ht => by
    obtain ⟨v, vs, hs, hts, rfl⟩ := applyEach_cons_eq_ok.mp h
    cases i with
    | zero =>
      cases ht
      exact ⟨v, rfl, hs⟩
    | succ i => exact applyEach_eq_ok hts ht

/-- A pass over a list fails at the first term that it fails at. -/
theorem applyEach_eq_error {r : Rule} {e : SubstitutionError} : ∀ {ts : List Term},
    r.applyEach ts = .error e → ∃ (i : Nat) (t : Term), ts[i]? = some t ∧ r.applyAll t = .error e ∧
      ∀ (j : Nat) (s : Term), j < i → ts[j]? = some s → ∃ u, r.applyAll s = .ok u
  | [], h => by
    rw [applyEach_nil] at h
    cases h
  | s :: ts, h => by
    rcases applyEach_cons_eq_error.mp h with hs | ⟨v, hs, hts⟩
    · exact ⟨0, s, rfl, hs, fun j _ hj => absurd hj (Nat.not_lt_zero j)⟩
    · obtain ⟨i, t, ht, he, hbefore⟩ := applyEach_eq_error hts
      refine ⟨i + 1, t, ht, he, ?_⟩
      intro j s' hj hs'
      cases j with
      | zero =>
        cases hs'
        exact ⟨v, hs⟩
      | succ j => exact hbefore j s' (by omega) hs'

/-! ## What a pass says about the redexes -/

/-- `w` has the value of the body at every redex of `t`, and outside of them the nodes of `t`. -/
structure Rewritten (r : Rule) (t w : Term) : Prop where
  value : ∀ p b, r.Redex t p b → ∃ u, r.body.substitute b = .ok u ∧ w.at? p = some u
  kept : ∀ p, (∀ q b, r.Redex t q b → ¬ q <+: p) → w.nodeAt? p = t.nodeAt? p

theorem rewritten_of_match {r : Rule} {t u : Term} {b : Bindings} (h : r.head.match? t = some b)
    (hu : r.body.substitute b = .ok u) : r.Rewritten t u := by
  refine ⟨?_, ?_⟩
  · intro p c hp
    obtain ⟨rfl, rfl⟩ := (redex_of_match h).mp hp
    exact ⟨u, hu, u.at?_nil⟩
  · intro p hp
    exact absurd List.nil_prefix (hp [] b (redex_nil_iff.mpr h))

theorem rewritten_functor {r : Rule} {f : String} {args us : List Term}
    (h : r.head.match? (.functor f args) = none) (hlen : us.length = args.length)
    (hargs : ∀ (i : Nat) (a : Term), args[i]? = some a →
      ∃ u, us[i]? = some u ∧ r.Rewritten a u) :
    r.Rewritten (.functor f args) (.functor f us) := by
  refine ⟨?_, ?_⟩
  · intro p b hp
    obtain ⟨i, q, a, rfl, ha, hq⟩ := (redex_functor_iff h).mp hp
    obtain ⟨v, hv, hav⟩ := hargs i a ha
    obtain ⟨u, hu, hat⟩ := hav.value q b hq
    exact ⟨u, hu, (Term.at?_arg hv q).trans hat⟩
  · intro p hp
    cases p with
    | nil => rw [Term.nodeAt?_nil, Term.nodeAt?_nil, Term.root, Term.root, hlen]
    | cons i p =>
      rw [Term.nodeAt?_functor, Term.nodeAt?_functor]
      cases ha : args[i]? with
      | none =>
        have hu : us[i]? = none := by
          rw [List.getElem?_eq_none_iff] at ha ⊢
          omega
        rw [hu]
      | some a =>
        obtain ⟨v, hv, hav⟩ := hargs i a ha
        rw [hv, Option.bind_some, Option.bind_some]
        refine hav.kept p fun q b hq hpre => ?_
        exact hp (i :: q) b ((redex_functor_iff h).mpr ⟨i, q, a, rfl, ha, hq⟩)
          (List.cons_prefix_cons.mpr ⟨rfl, hpre⟩)

theorem rewritten_of_applyAll {r : Rule} (t : Term) :
    ∀ w, r.applyAll t = .ok w → r.Rewritten t w := by
  induction t using r.pass_induction with
  | matched t b hm =>
    intro w h
    rw [applyAll_of_match hm] at h
    exact rewritten_of_match hm h
  | symbol x hm =>
    intro w h
    rw [applyAll_symbol hm] at h
    cases h
    exact ⟨fun p b hp => absurd hp (not_redex_symbol hm p b), fun _ _ => rfl⟩
  | functor f args hm ih =>
    intro w h
    obtain ⟨us, hargs, rfl⟩ := (applyAll_functor_eq_ok hm).mp h
    refine rewritten_functor hm (applyEach_length hargs) fun i a ha => ?_
    obtain ⟨u, hu, hau⟩ := applyEach_eq_ok hargs ha
    exact ⟨u, hu, ih a (List.mem_of_getElem? ha) u hau⟩

/-- `e` is the error of the first redex of `t` at which the body has no value. -/
structure FirstFailure (r : Rule) (t : Term) (p : Position) (e : SubstitutionError) : Prop where
  failure : ∃ b, r.Redex t p b ∧ r.body.substitute b = .error e
  first : ∀ q c, r.Redex t q c → q < p → ∃ u, r.body.substitute c = .ok u

theorem firstFailure_of_match {r : Rule} {t : Term} {b : Bindings} {e : SubstitutionError}
    (h : r.head.match? t = some b) (he : r.body.substitute b = .error e) :
    r.FirstFailure t [] e :=
  ⟨⟨b, redex_nil_iff.mpr h, he⟩, fun q _ _ hq => absurd hq (List.not_lt_nil q)⟩

/-- The first failure in a functor is that in its first argument with a failure. -/
theorem firstFailure_functor {r : Rule} {f : String} {args : List Term}
    (h : r.head.match? (.functor f args) = none) {i : Nat} {a : Term} {p : Position}
    {e : SubstitutionError} (ha : args[i]? = some a) (hp : r.FirstFailure a p e)
    (hbefore : ∀ (j : Nat) (s : Term), j < i → args[j]? = some s → ∃ u, r.Rewritten s u) :
    r.FirstFailure (.functor f args) (i :: p) e := by
  obtain ⟨b, hb, he⟩ := hp.failure
  refine ⟨⟨b, (redex_functor_iff h).mpr ⟨i, p, a, rfl, ha, hb⟩, he⟩, ?_⟩
  intro q c hq hlt
  obtain ⟨j, q, s, rfl, hs, hq⟩ := (redex_functor_iff h).mp hq
  rcases List.cons_lt_cons_iff.mp hlt with hji | ⟨rfl, hqp⟩
  · obtain ⟨u, hu⟩ := hbefore j s hji hs
    obtain ⟨v, hv, -⟩ := hu.value q c hq
    exact ⟨v, hv⟩
  · cases ha.symm.trans hs
    exact hp.first q c hq hqp

theorem firstFailure_of_applyAll {r : Rule} (t : Term) :
    ∀ e, r.applyAll t = .error e → ∃ p, r.FirstFailure t p e := by
  induction t using r.pass_induction with
  | matched t b hm =>
    intro e h
    rw [applyAll_of_match hm] at h
    exact ⟨[], firstFailure_of_match hm h⟩
  | symbol x hm =>
    intro e h
    rw [applyAll_symbol hm] at h
    cases h
  | functor f args hm ih =>
    intro e h
    have hargs := (applyAll_functor_eq_error hm).mp h
    obtain ⟨i, a, ha, hae, hbefore⟩ := applyEach_eq_error hargs
    obtain ⟨p, hp⟩ := ih a (List.mem_of_getElem? ha) _ hae
    refine ⟨i :: p, firstFailure_functor hm ha hp fun j s hj hs => ?_⟩
    obtain ⟨u, hu⟩ := hbefore j s hj hs
    exact ⟨u, rewritten_of_applyAll s u hu⟩

/-! ## The pass as a whole -/

/-- If the body has a value at every redex, the pass has a result. -/
theorem exists_rewritten {r : Rule} {t : Term}
    (h : ∀ p b, r.Redex t p b → ∃ u, r.body.substitute b = .ok u) :
    ∃ w, r.applyAll t = .ok w ∧ r.Rewritten t w := by
  cases ht : r.applyAll t with
  | ok w => exact ⟨w, rfl, rewritten_of_applyAll t w ht⟩
  | error e =>
    obtain ⟨p, hp⟩ := firstFailure_of_applyAll t e ht
    obtain ⟨b, hb, he⟩ := hp.failure
    obtain ⟨u, hu⟩ := h p b hb
    rw [he] at hu
    cases hu

/-- If the body has no value at some redex, the pass fails. -/
theorem exists_firstFailure {r : Rule} {t : Term} {p : Position} {b : Bindings}
    {e : SubstitutionError} (hp : r.Redex t p b) (he : r.body.substitute b = .error e) :
    ∃ q e', r.FirstFailure t q e' ∧ r.applyAll t = .error e' := by
  cases ht : r.applyAll t with
  | error e' =>
    obtain ⟨q, hq⟩ := firstFailure_of_applyAll t e' ht
    exact ⟨q, e', hq, rfl⟩
  | ok w =>
    obtain ⟨u, hu, -⟩ := (rewritten_of_applyAll t w ht).value p b hp
    rw [he] at hu
    cases hu

/-- **One pass.** If the body has a value at every outermost redex, the result of a pass is the term
with exactly the redexes replaced by these values. If it has none at some redex, the pass fails with
the error of the first of them. A term without a matching subterm stays as it is. -/
theorem applyAll_outermost (r : Rule) (t : Term) :
    (∀ u : Position → Term, (∀ q b, r.Redex t q b → r.body.substitute b = .ok (u q)) →
      ∃ w, r.applyAll t = .ok w ∧
        ∀ w', t.Replaced (fun q => ∃ b, r.Redex t q b) u w' ↔ w' = w) ∧
    ((∃ q b e, r.Redex t q b ∧ r.body.substitute b = .error e) →
      ∃ q b e, r.Redex t q b ∧ r.body.substitute b = .error e ∧
        (∀ q' b', r.Redex t q' b' → q' < q → ∃ v, r.body.substitute b' = .ok v) ∧
        r.applyAll t = .error e) ∧
    ((∀ p s, t.at? p = some s → r.head.match? s = none) → r.applyAll t = .ok t) := by
  refine ⟨?_, ?_, ?_⟩
  · intro u hu
    obtain ⟨w, hw, hrw⟩ := exists_rewritten fun p b hp => ⟨u p, hu p b hp⟩
    have hrep : t.Replaced (fun q => ∃ b, r.Redex t q b) u w := by
      refine ⟨?_, fun p hp => hrw.kept p fun q b hq => hp q ⟨b, hq⟩⟩
      rintro q ⟨b, hq⟩
      obtain ⟨v, hv, hat⟩ := hrw.value q b hq
      rw [hu q b hq] at hv
      cases hv
      exact hat
    refine ⟨w, hw, fun w' => ⟨fun h => h.unique hrep, ?_⟩⟩
    rintro rfl
    exact hrep
  · rintro ⟨p, c, e, hp, he⟩
    obtain ⟨q, e', hq, ht⟩ := exists_firstFailure hp he
    obtain ⟨b, hb, he'⟩ := hq.failure
    exact ⟨q, b, e', hb, he', hq.first, ht⟩
  · intro h
    have hno : ∀ p b, ¬ r.Redex t p b := by
      rintro p b ⟨⟨s, hs, hb⟩, -⟩
      rw [h p s hs] at hb
      cases hb
    obtain ⟨w, hw, hrw⟩ := exists_rewritten fun p b hp => absurd hp (hno p b)
    rw [hw, Term.ext_nodeAt? w t fun p => hrw.kept p fun q b hq => absurd hq (hno q b)]

/-- Of three calls of `apply` in a list the second has no symbol for its functor, nor has the third:
the error is that of the second. -/
theorem applyAll_outermost_second_call :
    let r : Rule := ⟨.functor "apply" [.symbol "f", .symbol "x"], .functor "f" [.symbol "x"]⟩
    let call : Term → Term := fun f => .functor "apply" [f, .symbol "z"]
    let t : Term := .functor "list"
      [call (.symbol "s"), call (.functor "k" []), call (call (.symbol "s"))]
    (∃ q b e, r.Redex t q b ∧ r.body.substitute b = .error e) ∧
      ∃ q b e, r.Redex t q b ∧ r.body.substitute b = .error e ∧
        (∀ q' b', r.Redex t q' b' → q' < q → ∃ v, r.body.substitute b' = .ok v) ∧
        r.applyAll t = .error e := by
  intro r call t
  have hfail : ∃ q b e, r.Redex t q b ∧ r.body.substitute b = .error e :=
    ⟨[2], _, _, (redex_functor_iff rfl).mpr ⟨2, [], _, rfl, rfl, redex_nil_iff.mpr rfl⟩, rfl⟩
  exact ⟨hfail, (applyAll_outermost r t).2.1 hfail⟩

example :
    let r : Rule := ⟨.functor "f" [.symbol "x"], .functor "f" [.functor "f" [.symbol "x"]]⟩
    r.applyAll (.functor "g" [.functor "f" [.symbol "a"]]) =
      .ok (.functor "g" [.functor "f" [.functor "f" [.symbol "a"]]]) := rfl

end TermRewriting.Rule
