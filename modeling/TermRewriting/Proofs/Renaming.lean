import Mathlib.Data.List.Basic
import Mathlib.Data.Set.Function
import TermRewriting.Proofs.Filling
import TermRewriting.Proofs.Redex

/-!
# Renaming

Two kinds of names may be changed without changing what a rule does. The variables of a rule may get
other names, as long as they stay apart from each other and from the free names of the body. And the
names in a term that the rule does not mention may be changed, injectively, if the same is done in
the result: to the rule they are opaque.

Both are cases of one law, in which the variables of the rule and the names of the term are renamed
at the same time. In the head a symbol is a variable and the name of a functor is itself; in the body
a name is a variable, in either place, if it is a symbol of the head, and else it is itself. What is
itself has to be kept, and what is a variable may not become a name that is kept.

Results:
* `Term.match?_relabel_of_none`, `Term.match?_relabel_of_some`: a renamed term against a pattern with
  renamed symbols.
* `Term.substitute_rename`: renamed terms plugged into a renamed template.
* `Rule.applyAll_rename_of_node`: two passes correspond if they do so at every node.
* `Rule.applyAll_rename`: the variables of the rule and the names of the term renamed together.
* `Rule.applyAll_renameVariables`: the names of a rule's variables do not matter.
* `Rule.applyAll_opaque`: the names that a rule does not mention are opaque to it.
-/
namespace TermRewriting

namespace Term

/-! ## Renamed terms -/

/-- The term with its functors renamed by `g` and its symbols by `k`. -/
def relabel (g k : String → String) (t : Term) : Term := t.fill g fun x => .symbol (k x)

/-- The term with all its names changed by `g`. -/
def rename (g : String → String) (t : Term) : Term := t.relabel g g

section
variable {g h k : String → String} {s : String → Term}

theorem fill_relabel (t : Term) : (t.relabel g k).fill h s = t.fill (h ∘ g) (s ∘ k) := fill_fill t

theorem rename_fill (t : Term) :
    (t.fill h s).rename g = t.fill (g ∘ h) fun x => (s x).rename g := fill_fill t

@[simp] theorem relabel_functor (f : String) (args : List Term) :
    (functor f args).relabel g k = .functor (g f) (args.map (relabel g k)) := fill_functor f args

@[simp] theorem rename_functor (f : String) (args : List Term) :
    (functor f args).rename g = .functor (g f) (args.map (rename g)) := relabel_functor f args

theorem rename_id (t : Term) : t.rename id = t := t.fill_id_symbol

/-- Renaming back gives the term back. -/
theorem rename_leftInverse (hg : Function.LeftInverse h g) :
    Function.LeftInverse (rename h) (rename g) := by
  intro t
  have hback : h ∘ g = id := funext hg
  have hsymbol : (fun x => symbol (h (g x))) = symbol := funext fun x => congrArg symbol (hg x)
  calc (t.rename g).rename h
    _ = t.fill (h ∘ g) fun x => symbol (h (g x)) := rename_fill t
    _ = t.fill id symbol := by rw [hback, hsymbol]
    _ = t := t.fill_id_symbol

theorem rename_injective (hg : Function.Injective g) : Function.Injective (rename g) :=
  (rename_leftInverse (Function.leftInverse_invFun hg)).injective

theorem functorNames_relabel (t : Term) :
    (t.relabel g k).functorNames = t.functorNames.map g := by
  induction t with
  | symbol x => rfl
  | functor f args ih =>
    rw [relabel_functor, functorNames_functor, functorNames_functor, List.map_cons,
      List.flatMap_map, List.map_flatMap, List.flatMap_congr ih]

theorem symbols_relabel (t : Term) : (t.relabel g k).symbols = t.symbols.map k := by
  induction t with
  | symbol x => rfl
  | functor f args ih =>
    rw [relabel_functor, symbols_functor, symbols_functor, List.flatMap_map, List.map_flatMap,
      List.flatMap_congr ih]

/-! ## Matching renamed terms -/

theorem instantiate_relabel (p : Term) :
    (p.relabel id k).instantiate s = p.instantiate (s ∘ k) := by
  rw [← fill_id, fill_relabel, ← fill_id]
  rfl

/-- Renaming goes through an instance if it keeps the functors of the pattern. -/
theorem rename_instantiate {p : Term} (hp : ∀ f ∈ p.functorNames, g f = f) :
    (p.instantiate s).rename g = p.instantiate fun x => (s x).rename g := by
  rw [← fill_id, rename_fill, ← fill_id, fill_eq_fill_iff]
  exact ⟨hp, fun _ _ => rfl⟩

/-- A renamed term is no instance of the renamed pattern unless the term is one of the pattern. -/
theorem match?_relabel_of_none {p t : Term} (hg : Function.Injective g)
    (hp : ∀ f ∈ p.functorNames, g f = f) (h : p.match? t = none) :
    (p.relabel id k).match? (t.rename g) = none := by
  let back := Function.invFun g
  have hback : Function.LeftInverse back g := Function.leftInverse_invFun hg
  have hkeep : ∀ f ∈ p.functorNames, back f = f := fun f hf =>
    calc back f = back (g f) := by rw [hp f hf]
      _ = f := hback f
  -- An instance of the renamed pattern would give one of the pattern by renaming back.
  rw [match?_eq_none_iff] at h ⊢
  intro s hs
  rw [instantiate_relabel] at hs
  refine h (fun x => (s (k x)).rename back) ?_
  calc p.instantiate (fun x => (s (k x)).rename back)
    _ = (p.instantiate (s ∘ k)).rename back := (rename_instantiate hkeep).symm
    _ = (t.rename g).rename back := by rw [hs]
    _ = t := rename_leftInverse hback t

/-- The new symbols of a pattern find what the old ones found, renamed. -/
theorem match?_relabel_of_some {p t : Term} {b : Bindings}
    (hk : Set.InjOn k {x | x ∈ p.symbols}) (hp : ∀ f ∈ p.functorNames, g f = f)
    (h : p.match? t = some b) :
    ∃ c, (p.relabel id k).match? (t.rename g) = some c ∧
      ∀ x ∈ p.symbols, c.get? (k x) = (b.get? x).map (rename g) := by
  -- A new symbol stands for what its old name stands for, renamed.
  let old := Function.invFunOn k {x | x ∈ p.symbols}
  let s : String → Term := fun y => (b.assignment (old y)).rename g
  have hs : ∀ x ∈ p.symbols, s (k x) = (b.assignment x).rename g := by
    intro x hx
    have hold : old (k x) = x := hk.leftInvOn_invFunOn hx
    show (b.assignment (old (k x))).rename g = (b.assignment x).rename g
    rw [hold]
  have hinst : (p.relabel id k).instantiate s = t.rename g := by
    rw [instantiate_relabel, ← instantiate_assignment_of_match? h, rename_instantiate hp,
      instantiate_eq_instantiate_iff]
    exact hs
  obtain ⟨c, hc, hr⟩ := match?_restricts hinst
  refine ⟨c, hc, fun x hx => ?_⟩
  have hkx : k x ∈ (p.relabel id k).symbols := by
    rw [symbols_relabel]
    exact List.mem_map_of_mem hx
  obtain ⟨u, hu⟩ := Option.isSome_iff_exists.mp ((isSome_get?_match? h x).mpr hx)
  rw [hr (k x), if_pos hkx, hs x hx, hu, b.agrees_assignment x u hu, Option.map_some]

end

end Term

/-! ## Plugging in renamed terms -/

/-- The error with the name that it is about changed by `k`, and the names of its term by `g`. -/
def SubstitutionError.rename (k g : String → String) (e : SubstitutionError) : SubstitutionError :=
  ⟨k e.name, e.value.rename g⟩

/-- The outcome with the names of the result changed by `g`, or the error renamed. -/
def renameOutcome (k g : String → String) (x : Except SubstitutionError Term) :
    Except SubstitutionError Term :=
  (x.map (Term.rename g)).mapError (SubstitutionError.rename k g)

theorem renameOutcome_eq_ok_iff {k g : String → String} {x : Except SubstitutionError Term}
    {u : Term} : renameOutcome k g x = .ok u ↔ ∃ v, x = .ok v ∧ v.rename g = u := by
  cases x <;> simp [renameOutcome, Except.map, Except.mapError]

theorem renameOutcome_eq_error_iff {k g : String → String} {x : Except SubstitutionError Term}
    {e : SubstitutionError} :
    renameOutcome k g x = .error e ↔ ∃ e', x = .error e' ∧ e'.rename k g = e := by
  cases x <;> simp [renameOutcome, Except.map, Except.mapError]

/-- What `b` binds the name to, `c` binds its new name under `k` to, renamed by `g`; a name that is
not bound has the same new name under both. -/
structure Bindings.Corresponds (k g : String → String) (b c : Bindings) (name : String) : Prop where
  bound : c.get? (k name) = (b.get? name).map (Term.rename g)
  free : b.get? name = none → k name = g name

namespace Bindings.Corresponds

variable {k g : String → String} {b c : Bindings} {name : String} (h : Corresponds k g b c name)
include h

theorem misfit?_eq :
    c.misfit? (k name) = (b.misfit? name).map (SubstitutionError.rename k g) := by
  rw [Bindings.misfit?, Bindings.misfit?, h.bound]
  cases b.get? name with
  | none => rfl
  | some u => cases u <;> rfl

theorem newName_eq (hfit : b.misfit? name = none) :
    c.newName (k name) = g (b.newName name) := by
  rw [Bindings.newName, Bindings.newName, h.bound]
  cases hb : b.get? name with
  | none => exact h.free hb
  | some u =>
    cases u with
    | symbol x => rfl
    | functor f args => exact absurd hb (Bindings.misfit?_eq_none_iff.mp hfit f args)

theorem assignment_eq : c.assignment (k name) = (b.assignment name).rename g := by
  rw [Bindings.assignment, Bindings.assignment, h.bound]
  cases hb : b.get? name with
  | none => exact congrArg Term.symbol (h.free hb)
  | some u => rfl

end Bindings.Corresponds

/-- **Plugging in renamed.** If two binding sets correspond on the names of a template, what the
second makes of the renamed template is what the first makes of the template, renamed. -/
theorem Term.substitute_rename {k g : String → String} {b c : Bindings} {t : Term}
    (h : ∀ n, n ∈ t.functorNames ∨ n ∈ t.symbols → Bindings.Corresponds k g b c n) :
    (t.rename k).substitute c = renameOutcome k g (t.substitute b) := by
  cases ht : t.substitute b with
  | ok u =>
    obtain ⟨hfit, rfl⟩ := substitute_eq_ok_iff.mp ht
    refine substitute_eq_ok_iff.mpr ⟨?_, ?_⟩
    · rw [rename, functorNames_relabel, List.forall_mem_map]
      intro f hf
      rw [(h f (Or.inl hf)).misfit?_eq, hfit f hf, Option.map_none]
    · rw [rename_fill, rename, fill_relabel, fill_eq_fill_iff]
      exact ⟨fun f hf => ((h f (Or.inl hf)).newName_eq (hfit f hf)).symm,
        fun x hx => (h x (Or.inr hx)).assignment_eq.symm⟩
  | error e =>
    have hmisfit : ∀ f ∈ t.functorNames,
        (c.misfit? ∘ k) f = (Option.map (SubstitutionError.rename k g) ∘ b.misfit?) f :=
      fun f hf => (h f (Or.inl hf)).misfit?_eq
    have hfirst : (t.rename k).functorNames.findSome? c.misfit? = some (e.rename k g) := by
      rw [rename, functorNames_relabel, List.findSome?_map, ← List.head?_filterMap,
        List.filterMap_congr hmisfit, List.head?_filterMap, ← List.map_findSome?,
        substitute_eq_error_iff.mp ht, Option.map_some]
    exact substitute_eq_error_iff.mpr hfirst

/-! ## Passes that correspond -/

namespace Rule

variable {r r' : Rule} {k g : String → String}

theorem applyEach_rename : ∀ {ts : List Term},
    (∀ t ∈ ts, r'.applyAll (t.rename g) = renameOutcome k g (r.applyAll t)) →
    r'.applyEach (ts.map (Term.rename g)) =
      ((r.applyEach ts).map (List.map (Term.rename g))).mapError (SubstitutionError.rename k g)
  | [], _ => by
    rw [List.map_nil, applyEach_nil, applyEach_nil]
    rfl
  | t :: ts, h => by
    rw [List.map_cons, applyEach_cons, applyEach_cons, h t List.mem_cons_self,
      applyEach_rename fun u hu => h u (List.mem_cons_of_mem _ hu)]
    cases r.applyAll t with
    | error e => rfl
    | ok u => cases r.applyEach ts <;> rfl

/-- Two passes correspond everywhere if the same nodes match, and if at those that do the outcomes
correspond. -/
theorem applyAll_rename_of_node
    (hnone : ∀ t, r.head.match? t = none → r'.head.match? (t.rename g) = none)
    (hsome : ∀ t b, r.head.match? t = some b → ∃ c, r'.head.match? (t.rename g) = some c ∧
      r'.body.substitute c = renameOutcome k g (r.body.substitute b))
    (t : Term) : r'.applyAll (t.rename g) = renameOutcome k g (r.applyAll t) := by
  induction t using r.pass_induction with
  | matched t b hb =>
    obtain ⟨c, hc, hbody⟩ := hsome t b hb
    rw [applyAll_of_match hc, applyAll_of_match hb, hbody]
  | symbol x hx =>
    rw [applyAll_symbol hx]
    exact applyAll_symbol (hnone _ hx)
  | functor f args hm ih =>
    have hm' : r'.head.match? (.functor (g f) (args.map (Term.rename g))) = none := by
      rw [← Term.rename_functor]
      exact hnone _ hm
    rw [Term.rename_functor, applyAll_functor hm', applyAll_functor hm, applyEach_rename ih]
    cases r.applyEach args with
    | error e => rfl
    | ok us => exact congrArg Except.ok (Term.rename_functor f us).symm

/-! ## The names of a rule and of a term -/

/-- A free name of the rule is one of a symbol or a functor of the body that is no variable. -/
def Free (r : Rule) (name : String) : Prop :=
  (name ∈ r.body.symbols ∨ name ∈ r.body.functorNames) ∧ name ∉ r.head.symbols

instance (r : Rule) (name : String) : Decidable (r.Free name) := inferInstanceAs (Decidable (_ ∧ _))

/-- Changes the names that are variables of the rule. -/
def onVariables (r : Rule) (k : String → String) (name : String) : String :=
  if name ∈ r.head.symbols then k name else name

/-- The rule with its variables renamed by `k`: the symbols of the head, and in the body the symbols
and the functors that have the name of one. -/
def renameVariables (r : Rule) (k : String → String) : Rule :=
  ⟨r.head.relabel id k, r.body.rename (r.onVariables k)⟩

theorem onVariables_of_mem {x : String} (h : x ∈ r.head.symbols) : r.onVariables k x = k x :=
  if_pos h

theorem onVariables_of_not_mem {x : String} (h : x ∉ r.head.symbols) : r.onVariables k x = x :=
  if_neg h

/-- What a match of the renamed rule finds corresponds to what the rule finds, on all names of the
body. -/
theorem corresponds_of_match? (hfree : ∀ x ∈ r.head.symbols, ¬ r.Free (k x))
    (hbody : ∀ n, r.Free n → g n = n) {t : Term} {b c : Bindings} (hb : r.head.match? t = some b)
    (hc : (r.renameVariables k).head.match? (t.rename g) = some c)
    (hbound : ∀ x ∈ r.head.symbols, c.get? (k x) = (b.get? x).map (Term.rename g)) {n : String}
    (hn : n ∈ r.body.functorNames ∨ n ∈ r.body.symbols) :
    Bindings.Corresponds (r.onVariables k) g b c n := by
  by_cases hvar : n ∈ r.head.symbols
  · refine ⟨by rw [onVariables_of_mem hvar, hbound n hvar], fun hnone => ?_⟩
    exact absurd hvar ((Term.get?_eq_none_iff_of_match? hb).mp hnone)
  · have hnfree : r.Free n := ⟨hn.symm, hvar⟩
    have hbn : b.get? n = none := (Term.get?_eq_none_iff_of_match? hb).mpr hvar
    -- A free name is not bound by the renamed rule either: no variable got that name.
    have hcn : c.get? n = none := by
      rw [Term.get?_eq_none_iff_of_match? hc, renameVariables, Term.symbols_relabel, List.mem_map]
      rintro ⟨x, hx, rfl⟩
      exact hfree x hx hnfree
    refine ⟨?_, fun _ => ?_⟩
    · rw [onVariables_of_not_mem hvar, hcn, hbn, Option.map_none]
    · rw [onVariables_of_not_mem hvar, hbody n hnfree]

/-- **Renaming.** Let the variables of a rule be renamed by `k`, apart from each other and from the
free names of the body, and the names of a term by `g`, injectively and so that the functors of the
head and the free names of the body are kept. The renamed rule makes of the renamed term what the
rule makes of the term, renamed. -/
theorem applyAll_rename (hk : Set.InjOn k {x | x ∈ r.head.symbols})
    (hfree : ∀ x ∈ r.head.symbols, ¬ r.Free (k x)) (hg : Function.Injective g)
    (hhead : ∀ f ∈ r.head.functorNames, g f = f) (hbody : ∀ n, r.Free n → g n = n) (t : Term) :
    (r.renameVariables k).applyAll (t.rename g) =
      renameOutcome (r.onVariables k) g (r.applyAll t) := by
  refine applyAll_rename_of_node (fun t hnone => Term.match?_relabel_of_none hg hhead hnone)
    (fun t b hb => ?_) t
  obtain ⟨c, hc, hbound⟩ := Term.match?_relabel_of_some hk hhead hb
  exact ⟨c, hc, Term.substitute_rename fun n => corresponds_of_match? hfree hbody hb hc hbound⟩

/-- An error is about a variable of the rule. -/
theorem name_mem_of_applyAll {t : Term} {e : SubstitutionError} (h : r.applyAll t = .error e) :
    e.name ∈ r.head.symbols := by
  obtain ⟨p, hp⟩ := firstFailure_of_applyAll t e h
  obtain ⟨b, hredex, he⟩ := hp.failure
  obtain ⟨s, -, hb⟩ := hredex.found
  obtain ⟨f, -, hf⟩ := List.exists_of_findSome?_eq_some (Term.substitute_eq_error_iff.mp he)
  obtain ⟨rfl, hvalue, -⟩ := Bindings.misfit?_eq_some_iff.mp hf
  exact Term.mem_symbols_of_match? hb hvalue

/-- Only the name in an error changes with the variables. -/
theorem applyAll_renameVariables_eq_mapError (hk : Set.InjOn k {x | x ∈ r.head.symbols})
    (hfree : ∀ x ∈ r.head.symbols, ¬ r.Free (k x)) (t : Term) :
    (r.renameVariables k).applyAll t =
      (r.applyAll t).mapError fun e => ⟨k e.name, e.value⟩ := by
  have hpass := applyAll_rename hk hfree Function.injective_id (fun _ _ => rfl) (fun _ _ => rfl) t
  rw [Term.rename_id] at hpass
  rw [hpass]
  cases ht : r.applyAll t with
  | ok u => exact congrArg Except.ok u.rename_id
  | error e =>
    have hrename : e.rename (r.onVariables k) id = ⟨k e.name, e.value⟩ := by
      rw [SubstitutionError.rename, onVariables_of_mem (name_mem_of_applyAll ht), Term.rename_id]
    exact congrArg Except.error hrename

/-- **The names of variables do not matter.** If the variables of a rule get other names, different
ones and no free names of the body, the results are the same, and an error is about the new name of
the same variable with the same term. -/
theorem applyAll_renameVariables (r : Rule) (k : String → String)
    (hk : Set.InjOn k {x | x ∈ r.head.symbols}) (hfree : ∀ x ∈ r.head.symbols, ¬ r.Free (k x))
    (t : Term) :
    (∀ u, (r.renameVariables k).applyAll t = .ok u ↔ r.applyAll t = .ok u) ∧
    (∀ n ∈ r.head.symbols, ∀ v,
      (r.renameVariables k).applyAll t = .error ⟨k n, v⟩ ↔ r.applyAll t = .error ⟨n, v⟩) ∧
    (∀ n v, r.applyAll t = .error ⟨n, v⟩ → n ∈ r.head.symbols) ∧
    ∀ m v, (r.renameVariables k).applyAll t = .error ⟨m, v⟩ → ∃ n ∈ r.head.symbols, m = k n := by
  rw [applyAll_renameVariables_eq_mapError hk hfree]
  cases ht : r.applyAll t with
  | ok u => simp [Except.mapError]
  | error e =>
    have he : e.name ∈ r.head.symbols := name_mem_of_applyAll ht
    refine ⟨fun u => ?_, fun n hn v => ?_, fun n v h => ?_, fun m v h => ?_⟩
    · simp [Except.mapError]
    · rw [Except.mapError, Except.error.injEq, Except.error.injEq, SubstitutionError.mk.injEq,
        hk.eq_iff he hn]
      exact Iff.of_eq (SubstitutionError.mk.injEq ..).symm
    · cases h
      exact he
    · cases h
      exact ⟨e.name, he, rfl⟩

/-- Two variables exchange their names, one of them the name of a functor in the body. -/
theorem applyAll_renameVariables_exchanged :
    let r : Rule := ⟨.functor "apply" [.symbol "f", .symbol "x"],
      .functor "f" [.symbol "x", .symbol "c"]⟩
    let k : String → String := fun n => if n = "f" then "x" else if n = "x" then "f" else n
    let call : Term → Term := fun f => .functor "list" [.functor "apply" [f, .symbol "z"]]
    Set.InjOn k {x | x ∈ r.head.symbols} ∧ (∀ x ∈ r.head.symbols, ¬ r.Free (k x)) ∧
    r.renameVariables k = ⟨.functor "apply" [.symbol "x", .symbol "f"],
      .functor "x" [.symbol "f", .symbol "c"]⟩ ∧
    (r.renameVariables k).applyAll (call (.symbol "s")) =
      .ok (.functor "list" [.functor "s" [.symbol "z", .symbol "c"]]) ∧
    (r.renameVariables k).applyAll (call (.functor "h" [])) = .error ⟨"x", .functor "h" []⟩ := by
  intro r k call
  have hk : ∀ x ∈ r.head.symbols, ∀ y ∈ r.head.symbols, k x = k y → x = y := by decide +kernel
  have hinj : Set.InjOn k {x | x ∈ r.head.symbols} := fun x hx y hy => hk x hx y hy
  have hfree : ∀ x ∈ r.head.symbols, ¬ r.Free (k x) := by decide +kernel
  have hlaw := applyAll_renameVariables r k hinj hfree
  exact ⟨hinj, hfree, by decide +kernel, ((hlaw _).1 _).mpr rfl,
    ((hlaw _).2.1 "f" (by decide +kernel) _).mpr rfl⟩

/-- **A rule does not look at other names.** If the names of a term are changed, injectively and so
that the functors of the head and the free names of the body are kept, the result of a pass is
changed in the same way; an error is about the same variable, with its term changed. Names of the
term that are also variables of the rule are no exception. -/
theorem applyAll_opaque (r : Rule) (g : String → String) (hg : Function.Injective g)
    (hhead : ∀ f ∈ r.head.functorNames, g f = f) (hbody : ∀ n, r.Free n → g n = n) (t : Term) :
    (∀ u, r.applyAll (t.rename g) = .ok (u.rename g) ↔ r.applyAll t = .ok u) ∧
    ∀ n v, r.applyAll (t.rename g) = .error ⟨n, v.rename g⟩ ↔ r.applyAll t = .error ⟨n, v⟩ := by
  have hname : r.onVariables id = id := funext fun x => ite_self x
  have hrule : r.renameVariables id = r := by
    rw [renameVariables, hname, Term.rename_id]
    exact congrArg (Rule.mk · r.body) r.head.rename_id
  have hpass := applyAll_rename (k := id) (Set.injOn_id _) (fun x hx h => h.2 hx) hg hhead hbody t
  rw [hrule, hname] at hpass
  refine ⟨fun u => ?_, fun n v => ?_⟩
  · rw [hpass, renameOutcome_eq_ok_iff]
    simp only [(Term.rename_injective hg).eq_iff, exists_eq_right]
  · rw [hpass, renameOutcome_eq_error_iff]
    constructor
    · rintro ⟨e, h, hrename⟩
      rw [SubstitutionError.rename, SubstitutionError.mk.injEq] at hrename
      rw [h, ← hrename.1, ← Term.rename_injective hg hrename.2]
      rfl
    · intro h
      exact ⟨⟨n, v⟩, h, rfl⟩

/-- A name of the term and a variable of the rule are exchanged in the term. -/
theorem applyAll_opaque_exchanged :
    let r : Rule := ⟨.functor "apply" [.symbol "f", .symbol "x"],
      .functor "f" [.symbol "x", .symbol "c"]⟩
    let g : String → String := Equiv.swap "a" "f"
    let call : Term → Term := fun f => .functor "list" [.functor "apply" [f, .symbol "f"]]
    Function.Injective g ∧ (∀ f ∈ r.head.functorNames, g f = f) ∧ (∀ n, r.Free n → g n = n) ∧
    r.applyAll ((call (.symbol "a")).rename g) =
      .ok ((Term.functor "list" [.functor "a" [.symbol "f", .symbol "c"]]).rename g) ∧
    r.applyAll ((call (.functor "a" [])).rename g) =
      .error ⟨"f", (Term.functor "a" []).rename g⟩ := by
  intro r g call
  have hg : Function.Injective g := (Equiv.swap "a" "f").injective
  have hhead : ∀ f ∈ r.head.functorNames, g f = f := by decide +kernel
  have hnames : ∀ n ∈ r.body.symbols ++ r.body.functorNames, n ∉ r.head.symbols → g n = n := by
    decide +kernel
  have hbody : ∀ n, r.Free n → g n = n := fun n hn => hnames n (List.mem_append.mpr hn.1) hn.2
  have hlaw := applyAll_opaque r g hg hhead hbody
  exact ⟨hg, hhead, hbody, ((hlaw _).1 _).mpr rfl, ((hlaw _).2 _ _).mpr rfl⟩

end Rule

end TermRewriting
