import TermRewriting.Proofs.Filling

/-!
# One binding set after another

A template can have bindings plugged in, and the result can have others plugged in after that. There
is one binding set that does both at once. It binds the names of the first set to their values with
the second set plugged in, and the other names as the second set does.

A name is looked up for a symbol or for a functor. In either case a set says what stands in the
place of the name, its assignment; a functor needs a symbol there
(`Bindings.assignment_eq_symbol_iff`). So it is enough to know the assignment of the composite (`Bindings.Composite.assignment_eq`). The
values of the first set are assumed to take the second one, so what can fail in the second place are
the functors of the template only.

Results:
* `Term.forall_functorNames_fill`: the names of functors in a filled template.
* `Bindings.get?_andThen`: what the composite answers.
* `Bindings.Composite.unique`, `Bindings.Composite.assignment_eq`, `Bindings.Composite.fits_iff`: the
  composite, and what it does to symbols and to functors.
* `Bindings.substitute_composite`: plugging in twice is plugging in the composite.
-/
namespace TermRewriting

theorem exists_error_iff {α ε : Type} {r : Except ε α} : (∃ e, r = .error e) ↔ ∀ a, r ≠ .ok a := by
  cases r <;> simp

/-- The functors of a filled template are those of the template, and those of the terms that were put
in. -/
theorem Term.forall_functorNames_fill {P : String → Prop} {g : String → String} {s : String → Term}
    (t : Term) : (∀ k ∈ (t.fill g s).functorNames, P k) ↔
      (∀ f ∈ t.functorNames, P (g f)) ∧ ∀ x ∈ t.symbols, ∀ k ∈ (s x).functorNames, P k := by
  induction t with
  | symbol x => simp
  | functor f args ih =>
    have hargs : (∀ k ∈ (args.map (fill g s)).flatMap functorNames, P k) ↔
        ∀ a ∈ args, (∀ f ∈ a.functorNames, P (g f)) ∧
          ∀ x ∈ a.symbols, ∀ k ∈ (s x).functorNames, P k := by
      rw [List.forall_mem_flatMap, List.forall_mem_map]
      exact forall₂_congr ih
    rw [fill_functor, functorNames_functor, List.forall_mem_cons, hargs, forall_names_args,
      functorNames_functor, symbols_functor, List.forall_mem_cons, and_assoc]

namespace Bindings

/-- A functor gets a new name, or keeps its own, if a symbol is put in the place of its name. -/
theorem assignment_eq_symbol_iff {b : Bindings} {name new : String} :
    b.assignment name = .symbol new ↔ b.misfit? name = none ∧ b.newName name = new := by
  rw [assignment, misfit?, newName]
  cases b.get? name with
  | none => simp
  | some u => cases u <;> simp

/-! ## The composite -/

/-- The values of the first set with the second plugged in, and behind them the second set. -/
def andThen (b d : Bindings) : Bindings :=
  b.entries.foldr (fun e c => c.bind e.1 (e.2.fill d.newName d.assignment)) d

theorem get?_foldr_bind (f : Term → Term) (d : Bindings) (name : String) : ∀ entries : List Binding,
    (entries.foldr (fun e c => c.bind e.1 (f e.2)) d).get? name =
      ((lookup name entries).map f).or (d.get? name)
  | [] => rfl
  | (n, v) :: rest => by
    rw [List.foldr_cons, get?_bind, get?_foldr_bind f d name rest, lookup]
    by_cases h : n = name <;> simp [h]

theorem get?_andThen (b d : Bindings) (name : String) : (b.andThen d).get? name =
    ((b.get? name).map (Term.fill d.newName d.assignment)).or (d.get? name) :=
  get?_foldr_bind _ d name b.entries

/-- The names of `b` are bound in `c` to their values with `d` plugged in, and the other names as they
are in `d`. -/
structure Composite (b d c : Bindings) : Prop where
  of_bound : ∀ n v, b.get? n = some v → ∃ w, v.substitute d = .ok w ∧ c.get? n = some w
  of_free : ∀ n, b.get? n = none → c.get? n = d.get? n

theorem composite_andThen {b d : Bindings}
    (h : ∀ n v, b.get? n = some v → ∃ w, v.substitute d = .ok w) :
    b.Composite d (b.andThen d) := by
  refine ⟨fun n v hv => ?_, fun n hn => ?_⟩
  · obtain ⟨w, hw⟩ := h n v hv
    obtain ⟨-, hfill⟩ := Term.substitute_eq_ok_iff.mp hw
    refine ⟨w, hw, ?_⟩
    rw [get?_andThen, hv, hfill]
    rfl
  · rw [get?_andThen, hn]
    rfl

namespace Composite

variable {b d c : Bindings} (hc : b.Composite d c)
include hc

theorem unique {c' : Bindings} (hc' : b.Composite d c') : c' = c := by
  refine ext_get? fun n => ?_
  cases hb : b.get? n with
  | none => rw [hc'.of_free n hb, hc.of_free n hb]
  | some v =>
    obtain ⟨w, hw, hn⟩ := hc.of_bound n v hb
    obtain ⟨w', hw', hn'⟩ := hc'.of_bound n v hb
    cases hw.symm.trans hw'
    rw [hn, hn']

/-- What is put in for a name by `b` is gone through by `d`, be it a value or the name itself. -/
theorem assignment_eq (x : String) :
    c.assignment x = (b.assignment x).fill d.newName d.assignment := by
  cases hb : b.get? x with
  | none => simp [assignment, hb, hc.of_free x hb]
  | some v =>
    obtain ⟨w, hw, hx⟩ := hc.of_bound x v hb
    obtain ⟨-, rfl⟩ := Term.substitute_eq_ok_iff.mp hw
    simp [assignment, hb, hx]

/-- A functor that fits `b` is renamed by the composite as `d` renames its new name. -/
theorem fits_iff {f new : String} (hf : b.misfit? f = none) :
    c.misfit? f = none ∧ c.newName f = new ↔
      d.misfit? (b.newName f) = none ∧ d.newName (b.newName f) = new := by
  have hb : b.assignment f = .symbol (b.newName f) := assignment_eq_symbol_iff.mpr ⟨hf, rfl⟩
  rw [← assignment_eq_symbol_iff, ← assignment_eq_symbol_iff, hc.assignment_eq, hb,
    Term.fill_symbol]

/-- No functor that `b` puts in is a misfit for `d`. -/
theorem misfit?_of_put_in {x k : String} (hk : k ∈ (b.assignment x).functorNames) :
    d.misfit? k = none := by
  cases hb : b.get? x with
  | none => simp [assignment, hb] at hk
  | some v =>
    obtain ⟨w, hw, -⟩ := hc.of_bound x v hb
    rw [assignment, hb, Option.getD_some] at hk
    exact (Term.substitute_eq_ok_iff.mp hw).1 k hk

theorem substitute_eq_ok_iff {t u : Term} (hu : t.substitute b = .ok u) (w : Term) :
    u.substitute d = .ok w ↔ t.substitute c = .ok w := by
  obtain ⟨hfit, rfl⟩ := Term.substitute_eq_ok_iff.mp hu
  have hput : ∀ x ∈ t.symbols, ∀ k ∈ (b.assignment x).functorNames, d.misfit? k = none :=
    fun x _ k hk => hc.misfit?_of_put_in hk
  rw [Term.substitute_eq_ok_iff, Term.substitute_eq_ok_iff, Term.forall_functorNames_fill,
    and_iff_left hput, Term.fill_fill]
  constructor
  · rintro ⟨hd, rfl⟩
    have hboth := fun f hf => (hc.fits_iff (hfit f hf)).mpr ⟨hd f hf, rfl⟩
    refine ⟨fun f hf => (hboth f hf).1, (Term.fill_eq_fill_iff t).mpr ⟨fun f hf => ?_, ?_⟩⟩
    · exact (hboth f hf).2.symm
    · exact fun x _ => (hc.assignment_eq x).symm
  · rintro ⟨hcfit, rfl⟩
    have hboth := fun f hf => (hc.fits_iff (hfit f hf)).mp ⟨hcfit f hf, rfl⟩
    refine ⟨fun f hf => (hboth f hf).1, (Term.fill_eq_fill_iff t).mpr ⟨fun f hf => ?_, ?_⟩⟩
    · exact (hboth f hf).2.symm
    · exact fun x _ => hc.assignment_eq x

end Composite

/-- **Binding sets compose.** If every value of `b` takes `d`, there is exactly one set that binds
the names of `b` to their values with `d` plugged in, and the other names as `d` does. If a template
takes `b`, plugging `d` into what comes of it gives the same term as plugging the composite into the
template, and the one fails exactly if the other does. -/
theorem substitute_composite {b d : Bindings}
    (h : ∀ n v, b.get? n = some v → ∃ w, v.substitute d = .ok w) :
    ∃ c, b.Composite d c ∧ (∀ c', b.Composite d c' → c' = c) ∧
      ∀ t u : Term, t.substitute b = .ok u →
        (∀ w, u.substitute d = .ok w ↔ t.substitute c = .ok w) ∧
        ((∃ e, u.substitute d = .error e) ↔ ∃ e, t.substitute c = .error e) := by
  have hc := composite_andThen h
  refine ⟨b.andThen d, hc, fun _ => hc.unique, fun t u hu => ?_⟩
  have hok := hc.substitute_eq_ok_iff hu
  refine ⟨hok, ?_⟩
  rw [exists_error_iff, exists_error_iff]
  exact forall_congr' fun w => not_congr (hok w)

/-- The name `x` is bound in both sets, and the functor `f` is renamed twice. The functor `q` is
renamed to a name that has no symbol in the second set. -/
theorem substitute_composite_renamed_twice :
    let b := ofList [("f", .symbol "g"), ("q", .symbol "y"), ("x", .functor "k" [.symbol "y"])]
    let d := ofList [("g", .symbol "h"), ("x", .symbol "z"), ("y", .functor "a" [])]
    let t : Term := .functor "f" [.symbol "x", .functor "g" [.symbol "y"]]
    let u : Term := .functor "g" [.functor "k" [.symbol "y"], .functor "g" [.symbol "y"]]
    let w : Term := .functor "h" [.functor "k" [.functor "a" []], .functor "h" [.functor "a" []]]
    (∀ n v, b.get? n = some v → ∃ w, v.substitute d = .ok w) ∧
      ∃ c, b.Composite d c ∧
        t.substitute b = .ok u ∧ u.substitute d = .ok w ∧ t.substitute c = .ok w ∧
        (Term.functor "q" []).substitute b = .ok (.functor "y" []) ∧
        (∃ e, (Term.functor "y" []).substitute d = .error e) ∧
        ∃ e, (Term.functor "q" []).substitute c = .error e := by
  intro b d t u w
  have hentries : b.entries =
      [("f", .symbol "g"), ("q", .symbol "y"), ("x", .functor "k" [.symbol "y"])] := rfl
  have h : ∀ n v, b.get? n = some v → ∃ w, v.substitute d = .ok w := by
    intro n v hv
    have hmem := get?_eq_some_iff.mp hv
    simp only [hentries, List.mem_cons, List.not_mem_nil, or_false, Prod.mk.injEq] at hmem
    rcases hmem with ⟨-, rfl⟩ | ⟨-, rfl⟩ | ⟨-, rfl⟩
    · exact ⟨_, rfl⟩
    · exact ⟨_, rfl⟩
    · exact ⟨_, rfl⟩
  obtain ⟨c, hc, -, hlaw⟩ := substitute_composite h
  have hq : (Term.functor "q" []).substitute b = .ok (.functor "y" []) := rfl
  have hy : ∃ e, (Term.functor "y" []).substitute d = .error e := ⟨_, rfl⟩
  exact ⟨h, c, hc, rfl, rfl, ((hlaw t u rfl).1 w).mp rfl, hq, hy, (hlaw _ _ hq).2.mp hy⟩

end Bindings

end TermRewriting
