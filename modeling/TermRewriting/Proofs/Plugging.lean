import TermRewriting.Proofs.Filling
import TermRewriting.Proofs.Position

/-!
# Plugging in, node by node

A functor of the template is a misfit if its name is bound to a functor. Plugging in fails exactly if
the template has a misfit, with the first one in the order of positions. Otherwise the result has at
every functor of the template a functor with as many arguments, under the name that the binding gives
it, and at every symbol of the template the whole term that the symbol is bound to. All names are
replaced at once: a term that is put in is not looked at again, whatever names it has.

Results:
* `Term.at?_fill`: the filling of a subterm stands where the subterm stood.
* `Term.findSome?_functorNames`: the first functor in a list of names is the first by position.
* `Term.Plugged.unique`: what stands at the nodes of the template determines the result.
* `Term.substitute_by_node`: when plugging in fails and with which error, and what it gives else.
-/
namespace TermRewriting.Term

/-! ## Nodes by position and by reading order -/

theorem at?_fill {g : String → String} {s : String → Term} : ∀ {t u : Term} {p : Position},
    t.at? p = some u → (t.fill g s).at? p = some (u.fill g s)
  | t, u, [], h => by
    rw [at?_nil] at h ⊢
    cases h
    rfl
  | .symbol x, u, i :: p, h => nomatch h
  | .functor f args, u, i :: p, h => by
    obtain ⟨a, ha, hu⟩ := exists_arg_of_at? h
    have hfilled : (args.map (fill g s))[i]? = some (a.fill g s) := by
      rw [List.getElem?_map, ha, Option.map_some]
    rw [fill_functor, at?_arg hfilled]
    exact at?_fill hu

/-- The name of a functor is among the names of functors. -/
theorem mem_functorNames_of_at? {f : String} {args : List Term} : ∀ {t : Term} {p : Position},
    t.at? p = some (.functor f args) → f ∈ t.functorNames
  | t, [], h => by
    rw [at?_nil] at h
    cases h
    simp
  | .symbol x, i :: p, h => nomatch h
  | .functor g us, i :: p, h => by
    obtain ⟨a, ha, hu⟩ := exists_arg_of_at? h
    rw [functorNames_functor]
    exact List.mem_cons_of_mem _ (List.mem_flatMap.mpr
      ⟨a, List.mem_of_getElem? ha, mem_functorNames_of_at? hu⟩)

section
variable {α : Type} {F : String → Option α} {a : α}

/-- The first answer in a list of arguments comes from the first argument with an answer. -/
theorem findSome?_args : ∀ {args : List Term},
    (args.flatMap functorNames).findSome? F = some a →
    ∃ (i : Nat) (t : Term), args[i]? = some t ∧ t.functorNames.findSome? F = some a ∧
      ∀ (j : Nat) (s : Term), j < i → args[j]? = some s → ∀ f ∈ s.functorNames, F f = none
  | t :: ts, h => by
    rw [List.flatMap_cons, List.findSome?_append] at h
    cases ht : t.functorNames.findSome? F with
    | some b =>
      rw [ht] at h
      exact ⟨0, t, rfl, ht.trans h, fun j _ hj => absurd hj (Nat.not_lt_zero j)⟩
    | none =>
      rw [ht] at h
      obtain ⟨i, u, hu, hua, hbefore⟩ := findSome?_args h
      refine ⟨i + 1, u, hu, hua, ?_⟩
      intro j s hj hs
      cases j with
      | zero =>
        cases hs
        exact List.findSome?_eq_none_iff.mp ht
      | succ j => exact hbefore j s (by omega) hs

/-- The first answer among the names of functors is that of the first functor by position. -/
theorem findSome?_functorNames (t : Term) : t.functorNames.findSome? F = some a →
    ∃ p f args, t.at? p = some (.functor f args) ∧ F f = some a ∧
      ∀ q g us, q < p → t.at? q = some (.functor g us) → F g = none := by
  induction t with
  | symbol x => simp
  | functor f args ih =>
    intro h
    -- The functor is asked before its arguments, in the list as by position.
    rw [functorNames_functor, List.findSome?_cons] at h
    cases hf : F f with
    | some b =>
      rw [hf] at h
      exact ⟨[], f, args, at?_nil _, hf.trans h, fun q _ _ hq => absurd hq (List.not_lt_nil q)⟩
    | none =>
      rw [hf] at h
      obtain ⟨i, t, ht, hta, hleft⟩ := findSome?_args h
      obtain ⟨p, k, us, hp, hk, hfirst⟩ := ih t (List.mem_of_getElem? ht) hta
      refine ⟨i :: p, k, us, (at?_arg ht p).trans hp, hk, ?_⟩
      intro q g vs hq hat
      cases q with
      | nil =>
        cases hat
        exact hf
      | cons j q =>
        obtain ⟨s, hs, hat⟩ := exists_arg_of_at? hat
        rcases List.cons_lt_cons_iff.mp hq with hji | ⟨rfl, hqp⟩
        · exact hleft j s hji hs g (mem_functorNames_of_at? hat)
        · cases ht.symm.trans hs
          exact hfirst q g vs hqp hat

end

/-! ## Misfits -/

/-- The node of `t` at `p` is a functor whose name is bound to a functor, as `e` says. -/
structure Misfit (b : Bindings) (t : Term) (p : Position) (e : SubstitutionError) : Prop where
  node : ∃ args, t.at? p = some (.functor e.name args)
  bound : b.get? e.name = some e.value
  functor : ∃ g us, e.value = .functor g us

/-- No misfit stands before the one at `p`. -/
structure FirstMisfit (b : Bindings) (t : Term) (p : Position) (e : SubstitutionError) : Prop where
  misfit : Misfit b t p e
  first : ∀ q e', q < p → ¬ Misfit b t q e'

theorem misfit_iff {b : Bindings} {t : Term} {p : Position} {e : SubstitutionError} :
    Misfit b t p e ↔ ∃ f args, t.at? p = some (.functor f args) ∧ b.misfit? f = some e := by
  constructor
  · rintro ⟨⟨args, hat⟩, hb, hv⟩
    exact ⟨e.name, args, hat, Bindings.misfit?_eq_some_iff.mpr ⟨rfl, hb, hv⟩⟩
  · rintro ⟨f, args, hat, he⟩
    obtain ⟨rfl, hb, hv⟩ := Bindings.misfit?_eq_some_iff.mp he
    exact ⟨⟨args, hat⟩, hb, hv⟩

/-- There is one first misfit at most. -/
theorem FirstMisfit.unique {b : Bindings} {t : Term} {p q : Position} {e e' : SubstitutionError}
    (h : FirstMisfit b t p e) (h' : FirstMisfit b t q e') : e = e' := by
  rcases Std.lt_trichotomy p q with hlt | rfl | hlt
  · exact absurd h.misfit (h'.first p e hlt)
  · obtain ⟨f, args, hat, he⟩ := misfit_iff.mp h.misfit
    obtain ⟨f', args', hat', he'⟩ := misfit_iff.mp h'.misfit
    cases hat.symm.trans hat'
    exact Option.some.inj (he.symm.trans he')
  · exact absurd h'.misfit (h.first q e' hlt)

theorem firstMisfit_of_substitute {b : Bindings} {t : Term} {e : SubstitutionError}
    (h : t.substitute b = .error e) : ∃ p, FirstMisfit b t p e := by
  obtain ⟨p, f, args, hat, he, hfirst⟩ := findSome?_functorNames t (substitute_eq_error_iff.mp h)
  refine ⟨p, misfit_iff.mpr ⟨f, args, hat, he⟩, ?_⟩
  intro q e' hq hmis
  obtain ⟨g, us, hg, hge⟩ := misfit_iff.mp hmis
  rw [hfirst q g us hq hg] at hge
  cases hge

theorem substitute_of_misfit {b : Bindings} {t : Term} {p : Position} {e : SubstitutionError}
    (h : Misfit b t p e) : ∃ e', t.substitute b = .error e' := by
  obtain ⟨f, args, hat, he⟩ := misfit_iff.mp h
  cases hs : t.substitute b with
  | error e' => exact ⟨e', rfl⟩
  | ok u =>
    rw [(substitute_eq_ok_iff.mp hs).1 f (mem_functorNames_of_at? hat)] at he
    cases he

/-! ## What stands at the nodes of a template -/

/-- `u` is `t` with the bindings plugged in: a functor has as many arguments as before and the name
of the symbol that its name is bound to, or its own if that is not bound; in place of a symbol stands
the term that it is bound to, or the symbol itself if it is not bound. -/
structure Plugged (b : Bindings) (t u : Term) : Prop where
  functor : ∀ p f args, t.at? p = some (.functor f args) →
    ∃ name us, u.at? p = some (.functor name us) ∧ us.length = args.length ∧
      (b.get? f = some (.symbol name) ∨ b.get? f = none ∧ name = f)
  symbol : ∀ p x, t.at? p = some (.symbol x) → u.at? p = some ((b.get? x).getD (.symbol x))

theorem plugged_of_substitute {b : Bindings} {t u : Term} (h : t.substitute b = .ok u) :
    Plugged b t u := by
  obtain ⟨hfit, rfl⟩ := substitute_eq_ok_iff.mp h
  refine ⟨fun p f args hat => ?_, fun p x hat => at?_fill hat⟩
  refine ⟨b.newName f, _, by rw [at?_fill hat, fill_functor], List.length_map _, ?_⟩
  have hf := Bindings.misfit?_eq_none_iff.mp (hfit f (mem_functorNames_of_at? hat))
  rw [Bindings.newName]
  cases hb : b.get? f with
  | none => exact Or.inr ⟨rfl, rfl⟩
  | some v =>
    cases v with
    | symbol name => exact Or.inl rfl
    | functor g us => exact absurd hb (hf g us)

/-- A template into which something can be plugged has no misfit. -/
theorem Plugged.no_misfit {b : Bindings} {t u : Term} (h : Plugged b t u) (p : Position)
    (e : SubstitutionError) : ¬ Misfit b t p e := by
  rintro ⟨⟨args, hat⟩, hb, g, us, hv⟩
  obtain ⟨name, vs, -, -, hname | ⟨hname, -⟩⟩ := h.functor p e.name args hat
  · rw [hb, hv] at hname
    cases hname
  · rw [hb] at hname
    cases hname

theorem Plugged.arg {b : Bindings} {f name : String} {args us : List Term} {i : Nat} {a u : Term}
    (h : Plugged b (.functor f args) (.functor name us)) (ha : args[i]? = some a)
    (hu : us[i]? = some u) : Plugged b a u := by
  refine ⟨fun p g vs hat => ?_, fun p x hat => ?_⟩
  · have hp := h.functor (i :: p) g vs ((at?_arg ha p).trans hat)
    rwa [at?_arg hu] at hp
  · have hp := h.symbol (i :: p) x ((at?_arg ha p).trans hat)
    rwa [at?_arg hu] at hp

theorem Plugged.unique {b : Bindings} {t : Term} :
    ∀ {u v : Term}, Plugged b t u → Plugged b t v → u = v := by
  induction t with
  | symbol x =>
    intro u v hu hv
    have hux := hu.symbol [] x rfl
    have hvx := hv.symbol [] x rfl
    rw [at?_nil] at hux hvx
    exact Option.some.inj (hux.trans hvx.symm)
  | functor f args ih =>
    intro u v hu hv
    obtain ⟨m, us, hum, hus, hm⟩ := hu.functor [] f args rfl
    obtain ⟨n, vs, hvn, hvs, hn⟩ := hv.functor [] f args rfl
    rw [at?_nil] at hum hvn
    cases hum
    cases hvn
    have hmn : m = n := (Bindings.eq_newName hm).trans (Bindings.eq_newName hn).symm
    have hlen : us.length = vs.length := hus.trans hvs.symm
    subst hmn
    congr 1
    -- In both results an argument is what plugging into that argument of the template gives.
    refine List.ext_getElem hlen fun i hi hi' => ?_
    have ha : args[i]? = some args[i] := List.getElem?_eq_getElem (by omega)
    exact ih _ (List.mem_of_getElem? ha) (hu.arg ha (List.getElem?_eq_getElem hi))
      (hv.arg ha (List.getElem?_eq_getElem hi'))

/-- **Plugging in, node by node.** It fails exactly if some functor of the template has a name that
is bound to a functor, and the error is then about the first of them. Otherwise there is a result,
namely the term that has the new name at every functor and the bound term at every symbol. -/
theorem substitute_by_node (b : Bindings) (t : Term) :
    ((∃ e, t.substitute b = .error e) ↔ ∃ p e, Misfit b t p e) ∧
    (∀ e, t.substitute b = .error e ↔ ∃ p, FirstMisfit b t p e) ∧
    ((∀ p e, ¬ Misfit b t p e) → ∃ u, t.substitute b = .ok u) ∧
    ∀ u, t.substitute b = .ok u ↔ Plugged b t u := by
  have hresult : (∀ p e, ¬ Misfit b t p e) → ∃ u, t.substitute b = .ok u := by
    intro hno
    cases hs : t.substitute b with
    | ok u => exact ⟨u, rfl⟩
    | error e =>
      obtain ⟨p, hp⟩ := firstMisfit_of_substitute hs
      exact absurd hp.misfit (hno p e)
  refine ⟨⟨?_, ?_⟩, fun e => ⟨firstMisfit_of_substitute, ?_⟩, hresult,
    fun u => ⟨plugged_of_substitute, fun hu => ?_⟩⟩
  · rintro ⟨e, he⟩
    obtain ⟨p, hp⟩ := firstMisfit_of_substitute he
    exact ⟨p, e, hp.misfit⟩
  · rintro ⟨p, e, h⟩
    exact substitute_of_misfit h
  · rintro ⟨p, hp⟩
    obtain ⟨e', he'⟩ := substitute_of_misfit hp.misfit
    obtain ⟨q, hq⟩ := firstMisfit_of_substitute he'
    rw [he', hp.unique hq]
  · obtain ⟨v, hv⟩ := hresult hu.no_misfit
    rw [hv, hu.unique (plugged_of_substitute hv)]

/-- Two names that are bound to terms with each other in them are replaced once; as names of functors
they are misfits, of which the outer one comes before the one below it and the one to its right. -/
theorem substitute_by_node_crossed :
    let b : Bindings := .ofList [("a", .functor "f" [.symbol "b"]),
      ("b", .functor "g" [.symbol "a"]), ("op", .symbol "plus")]
    let good : Term := .functor "op" [.symbol "a", .functor "wrap" [.symbol "b", .symbol "c"]]
    let bad : Term := .functor "op" [.symbol "c", .functor "b" [.functor "a" []], .functor "a" []]
    (∀ p e, ¬ Misfit b good p e) ∧ (∃ u, good.substitute b = .ok u) ∧
    Plugged b good (.functor "plus" [.functor "f" [.symbol "b"],
      .functor "wrap" [.functor "g" [.symbol "a"], .symbol "c"]]) ∧
    ∃ p, FirstMisfit b bad p ⟨"b", .functor "g" [.symbol "a"]⟩ := by
  intro b good bad
  have hfit : ∀ f ∈ good.functorNames, b.misfit? f = none := by decide +kernel
  have hno : ∀ p e, ¬ Misfit b good p e := by
    intro p e h
    obtain ⟨f, args, hat, he⟩ := misfit_iff.mp h
    rw [hfit f (mem_functorNames_of_at? hat)] at he
    cases he
  exact ⟨hno, (substitute_by_node b good).2.2.1 hno, ((substitute_by_node b good).2.2.2 _).mp rfl,
    ((substitute_by_node b bad).2.1 _).mp rfl⟩

end TermRewriting.Term
