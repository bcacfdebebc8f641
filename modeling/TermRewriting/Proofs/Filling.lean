import TermRewriting.Proofs.Instance
import TermRewriting.Substitution

/-!
# Filling a template

A template is filled with a new name for each functor and a term for each symbol. An instance of a
pattern is the filling that leaves the names of functors alone. Plugging in bindings is a filling
too, but one that renames the functors whose names are bound; it fails at the first functor, in the
order in which a term is read, whose name is bound to a functor.

Matching takes the functors of a pattern literally. So what a match found gives the term back from
the pattern if the bindings rename no functor of the pattern, and only then.

Results:
* `Term.fill_eq_fill_iff`: two fillings of a template are equal only if they agree on its names.
* `Term.substitute_eq`: plugging in fills the template, or fails with the first misfit.
* `Term.match?_substitute_trichotomy`: when a pattern gives back the term that it matched, when it
  gives another term, and when it fails.
* `Term.not_substitute_inverts_match?`, `Term.substitute_inverts_match?`: the law that plugging in
  undoes a match is false without the condition on functor names, and true with it.
-/
namespace TermRewriting

namespace Term

/-! ## Names of functors -/

def Node.functor? : Node → Option String
  | ⟨_, none⟩ => none
  | ⟨name, some _⟩ => some name

/-- The names of the functors of a term in the order in which it is read, each as often as it
occurs. -/
def functorNames (t : Term) : List String := t.nodes.filterMap Node.functor?

@[simp] theorem functorNames_symbol (x : String) : (symbol x).functorNames = [] := rfl

@[simp] theorem functorNames_functor (f : String) (args : List Term) :
    (functor f args).functorNames = f :: args.flatMap functorNames := by
  have hf : Node.functor? ⟨f, some args.length⟩ = some f := rfl
  rw [functorNames, nodes, nodesList_eq, List.filterMap_cons_some hf, List.filterMap_flatMap]
  rfl

/-- What holds of all names in the arguments, by the role that a name has. -/
theorem forall_names_args {P Q : String → Prop} (args : List Term) :
    (∀ a ∈ args, (∀ f ∈ a.functorNames, P f) ∧ ∀ x ∈ a.symbols, Q x) ↔
      (∀ f ∈ args.flatMap functorNames, P f) ∧ ∀ x ∈ args.flatMap symbols, Q x := by
  simp only [List.mem_flatMap]
  constructor
  · intro h
    refine ⟨?_, ?_⟩
    · rintro f ⟨a, ha, hf⟩
      exact (h a ha).1 f hf
    · rintro x ⟨a, ha, hx⟩
      exact (h a ha).2 x hx
  · rintro ⟨hf, hx⟩ a ha
    exact ⟨fun f hfa => hf f ⟨a, ha, hfa⟩, fun x hxa => hx x ⟨a, ha, hxa⟩⟩

/-! ## Fillings -/

mutual

/-- The template with the functors renamed by `g` and the symbols replaced by what `s` gives. -/
def fill (g : String → String) (s : String → Term) : (template : Term) → Term
  | .symbol x => s x
  | .functor f args => .functor (g f) (fillAll g s args)

def fillAll (g : String → String) (s : String → Term) : (templates : List Term) → List Term
  | [] => []
  | t :: ts => t.fill g s :: fillAll g s ts

end

section
variable {g h : String → String} {s r : String → Term}

theorem fillAll_eq (ts : List Term) : fillAll g s ts = ts.map (fill g s) := by
  induction ts with
  | nil => rfl
  | cons t ts ih => rw [fillAll, ih, List.map_cons]

@[simp] theorem fill_symbol (x : String) : (symbol x).fill g s = s x := rfl

@[simp] theorem fill_functor (f : String) (args : List Term) :
    (functor f args).fill g s = .functor (g f) (args.map (fill g s)) := by
  rw [fill, fillAll_eq]

/-- An instance is the filling that keeps the functors. -/
theorem fill_id (t : Term) : t.fill id s = t.instantiate s := by
  induction t with
  | symbol x => rfl
  | functor f args ih =>
    rw [fill_functor, instantiate_functor, List.map_congr_left ih]
    rfl

/-- Nothing new is put anywhere. -/
theorem fill_id_symbol (t : Term) : t.fill id symbol = t := by
  induction t with
  | symbol x => rfl
  | functor f args ih =>
    rw [fill_functor, List.map_congr_left ih, List.map_id']
    rfl

/-- Filling what was filled is one filling, in which the terms that were put in are filled too. -/
theorem fill_fill (t : Term) :
    (t.fill g s).fill h r = t.fill (h ∘ g) fun x => (s x).fill h r := by
  induction t with
  | symbol x => rfl
  | functor f args ih =>
    simp only [fill_functor, List.map_map, Function.comp_apply]
    exact congrArg _ (List.map_congr_left ih)

/-- A filling shows at every name of the template what was put there. -/
theorem fill_eq_fill_iff (t : Term) : t.fill g s = t.fill h r ↔
    (∀ f ∈ t.functorNames, g f = h f) ∧ ∀ x ∈ t.symbols, s x = r x := by
  induction t with
  | symbol x => simp
  | functor f args ih =>
    have hargs : args.map (fill g s) = args.map (fill h r) ↔
        ∀ a ∈ args, (∀ f ∈ a.functorNames, g f = h f) ∧ ∀ x ∈ a.symbols, s x = r x := by
      rw [List.map_inj_left]
      exact forall₂_congr ih
    rw [fill_functor, fill_functor, functor.injEq, hargs, forall_names_args, functorNames_functor,
      symbols_functor, List.forall_mem_cons, and_assoc]

theorem instantiate_eq_instantiate_iff (t : Term) :
    t.instantiate s = t.instantiate r ↔ ∀ x ∈ t.symbols, s x = r x := by
  rw [← fill_id, ← fill_id, fill_eq_fill_iff]
  exact and_iff_right fun _ _ => rfl

end

end Term

/-! ## What bindings do to a functor's name -/

namespace Bindings

/-- The error of a functor whose name is bound to a functor. -/
def misfit? (b : Bindings) (name : String) : Option SubstitutionError :=
  match b.get? name with
  | some (.functor f args) => some ⟨name, .functor f args⟩
  | _ => none

/-- The name that a functor has afterwards: that of the symbol its name is bound to, if there is
one. -/
def newName (b : Bindings) (name : String) : String :=
  match b.get? name with
  | some (.symbol new) => new
  | _ => name

/-- The result, or the first misfit among the names. -/
def orMisfit {α : Type} (b : Bindings) (names : List String) (a : α) :
    Except SubstitutionError α :=
  match names.findSome? b.misfit? with
  | some e => .error e
  | none => .ok a

theorem rename_eq (b : Bindings) (name : String) :
    b.rename name = b.orMisfit [name] (b.newName name) := by
  cases h : b.get? name with
  | none => simp [rename, orMisfit, misfit?, newName, h]
  | some u => cases u <;> simp [rename, orMisfit, misfit?, newName, h]

theorem orMisfit_append {α β γ : Type} (b : Bindings) (ms ns : List String) (f : α → β → γ)
    (x : α) (y : β) :
    b.orMisfit (ms ++ ns) (f x y) =
      (b.orMisfit ms x).bind fun x => (b.orMisfit ns y).map (f x) := by
  simp only [orMisfit, List.findSome?_append]
  cases ms.findSome? b.misfit? with
  | some e => rfl
  | none => cases ns.findSome? b.misfit? <;> rfl

theorem orMisfit_eq_ok_iff {α : Type} {b : Bindings} {names : List String} {a a' : α} :
    b.orMisfit names a = .ok a' ↔ (∀ n ∈ names, b.misfit? n = none) ∧ a' = a := by
  rw [orMisfit, ← List.findSome?_eq_none_iff]
  cases names.findSome? b.misfit? with
  | some e => simp
  | none => simp [eq_comm]

theorem orMisfit_eq_error_iff {α : Type} {b : Bindings} {names : List String} {a : α}
    {e : SubstitutionError} :
    b.orMisfit names a = .error e ↔ names.findSome? b.misfit? = some e := by
  rw [orMisfit]
  cases names.findSome? b.misfit? <;> simp

theorem misfit?_eq_none_iff {b : Bindings} {name : String} :
    b.misfit? name = none ↔ ∀ f args, b.get? name ≠ some (.functor f args) := by
  rw [misfit?]
  cases b.get? name with
  | none => simp
  | some u => cases u <;> simp

theorem misfit?_eq_some_iff {b : Bindings} {name : String} {e : SubstitutionError} :
    b.misfit? name = some e ↔
      e.name = name ∧ b.get? name = some e.value ∧ ∃ f args, e.value = .functor f args := by
  obtain ⟨n, v⟩ := e
  rw [misfit?]
  cases hb : b.get? name with
  | none => simp
  | some u =>
    cases u with
    | symbol x =>
      simp only [reduceCtorEq, Option.some.injEq, false_iff]
      rintro ⟨-, rfl, f, args, hv⟩
      cases hv
    | functor f args =>
      simp only [Option.some.injEq, SubstitutionError.mk.injEq]
      constructor
      · rintro ⟨rfl, rfl⟩
        exact ⟨rfl, rfl, f, args, rfl⟩
      · rintro ⟨rfl, rfl, -⟩
        exact ⟨rfl, rfl⟩

theorem eq_newName {b : Bindings} {name new : String}
    (h : b.get? name = some (.symbol new) ∨ b.get? name = none ∧ new = name) :
    new = b.newName name := by
  rcases h with h | ⟨h, rfl⟩ <;> simp [newName, h]

/-- A functor keeps its name if the name is not bound, or bound to its own symbol. -/
theorem keeps_name_iff {b : Bindings} {name : String} :
    b.misfit? name = none ∧ b.newName name = name ↔
      ∀ u, b.get? name = some u → u = .symbol name := by
  rw [misfit?, newName]
  cases b.get? name with
  | none => simp
  | some u => cases u <;> simp

end Bindings

namespace Term

/-! ## Plugging in as filling -/

theorem substituteAll_eq {b : Bindings} : ∀ {ts : List Term},
    (∀ t ∈ ts, t.substitute b = b.orMisfit t.functorNames (t.fill b.newName b.assignment)) →
    substituteAll b ts =
      b.orMisfit (ts.flatMap functorNames) (ts.map (fill b.newName b.assignment))
  | [], _ => rfl
  | t :: ts, h => by
    rw [substituteAll, h t List.mem_cons_self,
      substituteAll_eq fun u hu => h u (List.mem_cons_of_mem _ hu), List.flatMap_cons,
      List.map_cons, Bindings.orMisfit_append b _ _ List.cons]
    cases b.orMisfit t.functorNames (t.fill b.newName b.assignment) with
    | error e => rfl
    | ok u =>
      cases b.orMisfit (ts.flatMap functorNames) (ts.map (fill b.newName b.assignment)) <;> rfl

/-- Plugging in fills the template, unless there is a misfit among its functors. -/
theorem substitute_eq (b : Bindings) (t : Term) :
    t.substitute b = b.orMisfit t.functorNames (t.fill b.newName b.assignment) := by
  induction t with
  | symbol x => rfl
  | functor f args ih =>
    -- The functor's own name comes first in reading order, as it is the first to be looked up.
    rw [substitute, substituteAll_eq ih, functorNames_functor, fill_functor,
      ← List.singleton_append, Bindings.orMisfit_append b _ _ functor, Bindings.rename_eq]
    cases b.orMisfit [f] (b.newName f) with
    | error e => rfl
    | ok name =>
      cases b.orMisfit (args.flatMap functorNames) (args.map (fill b.newName b.assignment)) <;> rfl

theorem substitute_eq_ok_iff {b : Bindings} {t u : Term} :
    t.substitute b = .ok u ↔
      (∀ f ∈ t.functorNames, b.misfit? f = none) ∧ u = t.fill b.newName b.assignment := by
  rw [substitute_eq, Bindings.orMisfit_eq_ok_iff]

theorem substitute_eq_error_iff {b : Bindings} {t : Term} {e : SubstitutionError} :
    t.substitute b = .error e ↔ t.functorNames.findSome? b.misfit? = some e := by
  rw [substitute_eq, Bindings.orMisfit_eq_error_iff]

/-- If no functor's name is bound, plugging in makes the instance under the assignment of the set. -/
theorem substitute_of_free {b : Bindings} {t : Term} (h : ∀ f ∈ t.functorNames, b.get? f = none) :
    t.substitute b = .ok (t.instantiate b.assignment) := by
  have hkeeps : ∀ f ∈ t.functorNames, b.misfit? f = none ∧ b.newName f = f := fun f hf =>
    Bindings.keeps_name_iff.mpr fun u hu => nomatch (h f hf).symm.trans hu
  rw [substitute_eq_ok_iff, ← fill_id, fill_eq_fill_iff]
  exact ⟨fun f hf => (hkeeps f hf).1, fun f hf => (hkeeps f hf).2.symm, fun _ _ => rfl⟩

/-! ## Plugging in what a match found -/

/-- What a match found fills the pattern with the term, if the functors keep their names. -/
theorem fill_id_of_match? {p t : Term} {b : Bindings} (h : p.match? t = some b) :
    p.fill id b.assignment = t := by
  rw [fill_id, instantiate_assignment_of_match? h]

theorem substitute_eq_ok_iff_of_match? {p t : Term} {b : Bindings} (h : p.match? t = some b) :
    p.substitute b = .ok t ↔
      ∀ f ∈ p.functorNames, ∀ u, b.get? f = some u → u = .symbol f := by
  have hfill : t = p.fill b.newName b.assignment ↔ ∀ f ∈ p.functorNames, f = b.newName f := by
    rw [← fill_id_of_match? h, fill_eq_fill_iff]
    exact and_iff_left fun _ _ => rfl
  rw [substitute_eq_ok_iff, hfill]
  constructor
  · rintro ⟨hfit, hname⟩ f hf
    exact Bindings.keeps_name_iff.mp ⟨hfit f hf, (hname f hf).symm⟩
  · intro hself
    have hkeeps := fun f hf => Bindings.keeps_name_iff.mpr (hself f hf)
    exact ⟨fun f hf => (hkeeps f hf).1, fun f hf => (hkeeps f hf).2.symm⟩

/-- A pattern without a name in common between its functors and its symbols gives the term back. -/
theorem substitute_of_match?_of_apart {p t : Term} {b : Bindings} (h : p.match? t = some b)
    (hapart : ∀ f ∈ p.functorNames, f ∉ p.symbols) : p.substitute b = .ok t := by
  have hfree : ∀ f ∈ p.functorNames, b.get? f = none := fun f hf =>
    (get?_eq_none_iff_of_match? h).mpr (hapart f hf)
  rw [substitute_of_free hfree, instantiate_assignment_of_match? h]

/-- **Back from a match.** Of the names bound by a match those matter that the pattern also uses for
functors. The term comes back from the pattern exactly if each of them is bound to its own symbol. If
one of them is bound to a functor there is an error, and otherwise a different term. -/
theorem match?_substitute_trichotomy {p t : Term} {b : Bindings} (h : p.match? t = some b) :
    (∀ f, (∃ u, b.get? f = some u) ↔ f ∈ p.symbols) ∧
    (p.substitute b = .ok t ↔
      ∀ f ∈ p.functorNames, ∀ u, b.get? f = some u → u = .symbol f) ∧
    ((∃ f ∈ p.functorNames, ∃ g args, b.get? f = some (.functor g args)) →
      ∃ e, p.substitute b = .error e) ∧
    ((∀ f ∈ p.functorNames, ∀ g args, b.get? f ≠ some (.functor g args)) →
      (∃ f ∈ p.functorNames, ∃ u, b.get? f = some u ∧ u ≠ .symbol f) →
      ∃ u, p.substitute b = .ok u ∧ u ≠ t) ∧
    ((∀ f ∈ p.functorNames, f ∉ p.symbols) → p.substitute b = .ok t) := by
  have hbound : ∀ f, (∃ u, b.get? f = some u) ↔ f ∈ p.symbols := fun f => by
    rw [← Option.isSome_iff_exists, isSome_get?_match? h]
  have hiff := substitute_eq_ok_iff_of_match? h
  refine ⟨hbound, hiff, ?_, ?_, substitute_of_match?_of_apart h⟩
  · rintro ⟨f, hf, g, args, hb⟩
    cases hs : p.substitute b with
    | error e => exact ⟨e, rfl⟩
    | ok u =>
      have hfit := (substitute_eq_ok_iff.mp hs).1 f hf
      exact absurd hb (Bindings.misfit?_eq_none_iff.mp hfit g args)
  · rintro hfit ⟨f, hf, u, hu, hne⟩
    have hok : p.substitute b = .ok (p.fill b.newName b.assignment) :=
      substitute_eq_ok_iff.mpr ⟨fun k hk => Bindings.misfit?_eq_none_iff.mpr (hfit k hk), rfl⟩
    refine ⟨_, hok, ?_⟩
    intro heq
    rw [heq] at hok
    exact hne (hiff.mp hok f hf u hu)

/-- The pattern `f(f, x)` gives a term back, gives another term, and fails. -/
theorem match?_substitute_trichotomy_each :
    let p : Term := .functor "f" [.symbol "f", .symbol "x"]
    let t : Term → Term := fun u => .functor "f" [u, .functor "k" []]
    (∃ b, p.match? (t (.symbol "f")) = some b ∧ p.substitute b = .ok (t (.symbol "f"))) ∧
    (∃ b, p.match? (t (.symbol "a")) = some b ∧
      ∃ u, p.substitute b = .ok u ∧ u ≠ t (.symbol "a")) ∧
    ∃ b, p.match? (t (.functor "g" [])) = some b ∧ ∃ e, p.substitute b = .error e := by
  intro p t
  have hname : p.functorNames = ["f"] := rfl
  refine ⟨⟨_, rfl, ?_⟩, ⟨_, rfl, ?_⟩, ⟨_, rfl, ?_⟩⟩
  · refine (match?_substitute_trichotomy (p := p) rfl).2.1.mpr fun f hf u hu => ?_
    rw [hname, List.mem_singleton] at hf
    subst hf
    cases hu
    rfl
  · refine (match?_substitute_trichotomy (p := p) rfl).2.2.2.1 (fun f hf g args hb => ?_)
      ⟨"f", by simp [hname], .symbol "a", rfl, by simp⟩
    rw [hname, List.mem_singleton] at hf
    subst hf
    cases hb
  · refine (match?_substitute_trichotomy (p := p) (t := t (.functor "g" [])) rfl).2.2.1 ?_
    exact ⟨"f", by simp [hname], "g", [], rfl⟩

/-- **No law without a condition.** The pattern `f(f)` matches `f(a)` but gives `a(a)` back, and it
matches `f(k())` but gives nothing back. -/
theorem not_substitute_inverts_match? :
    let p : Term := .functor "f" [.symbol "f"]
    let t : Term → Term := fun u => .functor "f" [u]
    (∃ b, p.match? (t (.symbol "a")) = some b ∧
      p.substitute b = .ok (.functor "a" [.symbol "a"]) ∧
      p.substitute b ≠ .ok (t (.symbol "a"))) ∧
    ∃ b, p.match? (t (.functor "k" [])) = some b ∧
      p.substitute b = .error ⟨"f", .functor "k" []⟩ := by
  intro p t
  refine ⟨⟨_, rfl, rfl, ?_⟩, ⟨_, rfl, rfl⟩⟩
  show Except.ok (functor "a" [symbol "a"]) ≠ Except.ok (functor "f" [symbol "a"])
  simp

/-- **Plugging in undoes a match** where the bindings rename no functor of the pattern. A pattern
gives back every term that it matches exactly if it has no name in common between its functors and
its symbols. -/
theorem substitute_inverts_match? (p : Term) :
    (∀ t b, p.match? t = some b →
      (∀ f ∈ p.functorNames, ∀ u, b.get? f = some u → u = .symbol f) → p.substitute b = .ok t) ∧
    ((∀ t b, p.match? t = some b → p.substitute b = .ok t) ↔
      ∀ f ∈ p.functorNames, f ∉ p.symbols) := by
  refine ⟨fun t b h hself => (substitute_eq_ok_iff_of_match? h).mpr hself, ?_, ?_⟩
  · intro hall f hf hx
    -- With the same functor for every symbol there is a misfit at the name in common.
    let s : String → Term := fun _ => .functor f []
    obtain ⟨b, hb, hr⟩ := match?_restricts (p := p) (s := s) rfl
    have hbf : b.get? f = some (.functor f []) := by rw [hr f, if_pos hx]
    have hself := (substitute_eq_ok_iff_of_match? hb).mp (hall _ b hb) f hf _ hbf
    cases hself
  · exact fun hapart t b h => substitute_of_match?_of_apart h hapart

/-- A pattern with a name in common gives back the term in which that name stands for itself. -/
theorem substitute_inverts_match?_self :
    let p : Term := .functor "f" [.symbol "f", .functor "g" [.symbol "x"]]
    let t : Term := .functor "f" [.symbol "f", .functor "g" [.functor "h" []]]
    ∃ b, p.match? t = some b ∧
      (∀ f ∈ p.functorNames, ∀ u, b.get? f = some u → u = .symbol f) ∧ p.substitute b = .ok t := by
  intro p t
  obtain ⟨b, hb⟩ : ∃ b, p.match? t = some b := ⟨_, rfl⟩
  have hself : ∀ f ∈ p.functorNames, ∀ u, b.get? f = some u → u = .symbol f := by
    cases hb
    have hnames : p.functorNames = ["f", "g"] := rfl
    intro f hf u hu
    rw [hnames, List.mem_cons, List.mem_singleton] at hf
    rcases hf with rfl | rfl <;> cases hu
    rfl
  exact ⟨b, hb, hself, (substitute_inverts_match? p).1 t b hb hself⟩

end Term

end TermRewriting
