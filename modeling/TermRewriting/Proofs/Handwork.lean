import TermRewriting.Proofs.Provenance
import TermRewriting.Workspace

/-!
# What a workspace holds

What is done in a workspace can be done with the operations that obtain things: a step is matched by
a few operations, after which everything at hand in the workspace is among what was obtained. A rule
or a term that is put into the workspace is matched by reading its printed form, so it has to have
names that can be written. A step that fails is matched by no operation.

So a workspace never holds anything that could not be printed and read again.

Results:
* `Obtained.keeps_perform`, `Obtained.Extends.keeps`: nothing that was obtained is lost.
* `Workspace.Among.after`, `Workspace.Among.run`: the operations of a step, and of a list of steps.
* `Workspace.exists_operations`, `Workspace.wellNamed_run`: where the contents of a workspace come from,
  and the names in them.
* `Workspace.perform_reparse_run`: printing the term and reading it again changes nothing.
-/
namespace TermRewriting

/-! ## Obtaining more -/

namespace Obtained

/-- `o'` has everything that `o` has. -/
structure Keeps (o o' : Obtained) : Prop where
  terms : ∀ t ∈ o.terms, t ∈ o'.terms
  rules : ∀ r ∈ o.rules, r ∈ o'.rules
  sets : ∀ b ∈ o.sets, b ∈ o'.sets

/-- Some operations lead from `o` to `o'`. -/
def Extends (o o' : Obtained) : Prop :=
  ∃ operations : List Operation, o' = operations.foldl perform o

variable {o o' o'' : Obtained}

theorem Keeps.refl (o : Obtained) : o.Keeps o := ⟨fun _ => id, fun _ => id, fun _ => id⟩

theorem Keeps.trans (h : o.Keeps o') (h' : o'.Keeps o'') : o.Keeps o'' where
  terms t ht := h'.terms t (h.terms t ht)
  rules r hr := h'.rules r (h.rules r hr)
  sets b hb := h'.sets b (h.sets b hb)

theorem keeps_addTerm (o : Obtained) (t : Term) : o.Keeps (o.addTerm t) :=
  ⟨fun _ => List.mem_append_left _, fun _ => id, fun _ => id⟩

theorem keeps_addRule (o : Obtained) (r : Rule) : o.Keeps (o.addRule r) :=
  ⟨fun _ => List.mem_append_left _, fun _ => List.mem_append_left _, fun _ => id⟩

theorem keeps_addSet (o : Obtained) (b : Bindings) : o.Keeps (o.addSet b) :=
  ⟨fun _ => List.mem_append_left _, fun _ => id, fun _ => List.mem_append_left _⟩

theorem keeps_addOutcome (o : Obtained) (x : Except SubstitutionError Term) :
    o.Keeps (o.addOutcome x) := by
  cases x with
  | ok t => exact o.keeps_addTerm t
  | error e => exact o.keeps_addTerm e.value

theorem keeps_perform (o : Obtained) (operation : Operation) : o.Keeps (o.perform operation) := by
  cases operation with
  | parseTerm text =>
    rw [perform]
    split
    · exact o.keeps_addTerm _
    · exact .refl o
  | parseRule text =>
    rw [perform]
    split
    · exact o.keeps_addRule _
    · exact .refl o
  | matchTerm pattern term =>
    rw [perform]
    split
    · split
      · exact o.keeps_addSet _
      · exact .refl o
    · exact .refl o
  | bind set name value =>
    rw [perform]
    split
    · exact o.keeps_addSet _
    · exact .refl o
  | flip rule =>
    rw [perform]
    split
    · exact o.keeps_addRule _
    · exact .refl o
  | substitute set template =>
    rw [perform]
    split
    · exact o.keeps_addOutcome _
    · exact .refl o
  | applyAll rule term =>
    rw [perform]
    split
    · exact o.keeps_addOutcome _
    · exact .refl o

theorem Extends.refl (o : Obtained) : o.Extends o := ⟨[], rfl⟩

theorem Extends.perform (h : o.Extends o') (operation : Operation) :
    o.Extends (o'.perform operation) := by
  obtain ⟨operations, rfl⟩ := h
  exact ⟨operations ++ [operation], by rw [List.foldl_append, List.foldl_cons, List.foldl_nil]⟩

theorem Extends.trans (h : o.Extends o') (h' : o'.Extends o'') : o.Extends o'' := by
  obtain ⟨earlier, rfl⟩ := h
  obtain ⟨later, rfl⟩ := h'
  exact ⟨earlier ++ later, by rw [List.foldl_append]⟩

theorem Extends.keeps (h : o.Extends o') : o.Keeps o' := by
  obtain ⟨operations, rfl⟩ := h
  induction operations generalizing o with
  | nil => exact .refl o
  | cons operation operations ih => exact (o.keeps_perform operation).trans ih

/-! What each operation obtains, for things at hand instead of their numbers. -/

theorem exists_term {t : Term} (ht : t.WellNamed) (o : Obtained) :
    ∃ o', o.Extends o' ∧ t ∈ o'.terms := by
  refine ⟨_, (Extends.refl o).perform (.parseTerm t.text), ?_⟩
  simp [perform, Term.parse_text ht, addTerm]

theorem exists_rule {r : Rule} (hr : r.WellNamed) (o : Obtained) :
    ∃ o', o.Extends o' ∧ r ∈ o'.rules := by
  refine ⟨_, (Extends.refl o).perform (.parseRule r.text), ?_⟩
  simp [perform, Rule.parse_text hr, addRule]

theorem exists_flip {r : Rule} (hr : r ∈ o.rules) : ∃ o', o.Extends o' ∧ r.flip ∈ o'.rules := by
  obtain ⟨i, hi⟩ := List.getElem?_of_mem hr
  refine ⟨_, (Extends.refl o).perform (.flip i), ?_⟩
  simp [perform, hi, addRule]

theorem exists_match {p t : Term} {b : Bindings} (hp : p ∈ o.terms) (ht : t ∈ o.terms)
    (h : p.match? t = some b) : ∃ o', o.Extends o' ∧ b ∈ o'.sets := by
  obtain ⟨i, hi⟩ := List.getElem?_of_mem hp
  obtain ⟨j, hj⟩ := List.getElem?_of_mem ht
  refine ⟨_, (Extends.refl o).perform (.matchTerm i j), ?_⟩
  simp [perform, hi, hj, h, addSet]

theorem exists_bind {b : Bindings} {u : Term} (hb : b ∈ o.sets) (hu : u ∈ o.terms)
    (name : String) : ∃ o', o.Extends o' ∧ b.bind name u ∈ o'.sets := by
  obtain ⟨i, hi⟩ := List.getElem?_of_mem hb
  obtain ⟨j, hj⟩ := List.getElem?_of_mem hu
  refine ⟨_, (Extends.refl o).perform (.bind i name j), ?_⟩
  simp [perform, hi, hj, addSet]

theorem exists_substitute {b : Bindings} {t u : Term} (hb : b ∈ o.sets) (ht : t ∈ o.terms)
    (h : t.substitute b = .ok u) : ∃ o', o.Extends o' ∧ u ∈ o'.terms := by
  obtain ⟨i, hi⟩ := List.getElem?_of_mem hb
  obtain ⟨j, hj⟩ := List.getElem?_of_mem ht
  refine ⟨_, (Extends.refl o).perform (.substitute i j), ?_⟩
  simp [perform, hi, hj, h, addOutcome, addTerm]

theorem exists_applyAll {r : Rule} {t u : Term} (hr : r ∈ o.rules) (ht : t ∈ o.terms)
    (h : r.applyAll t = .ok u) : ∃ o', o.Extends o' ∧ u ∈ o'.terms := by
  obtain ⟨i, hi⟩ := List.getElem?_of_mem hr
  obtain ⟨j, hj⟩ := List.getElem?_of_mem ht
  refine ⟨_, (Extends.refl o).perform (.applyAll i j), ?_⟩
  simp [perform, hi, hj, h, addOutcome, addTerm]

end Obtained

/-! ## The operations of a step -/

namespace Workspace

/-- What is put into the workspace has names that can be written. -/
def Step.WellNamed : Step → Prop
  | chooseRule rule => rule.WellNamed
  | chooseTerm t | matchTerm t | bind _ t | substitute t => t.WellNamed
  | flip | apply | clear | reparse => True

/-- Everything at hand in the workspace was obtained, and so was the set to start over with. -/
structure Among (w : Workspace) (o : Obtained) : Prop where
  rule : ∀ r, w.rule = some r → r ∈ o.rules
  term : ∀ t, w.term = some t → t ∈ o.terms
  bindings : w.bindings ∈ o.sets
  empty : .empty ∈ o.sets

theorem among_initial : initial.Among .initial :=
  ⟨nofun, nofun, List.mem_singleton_self _, List.mem_singleton_self _⟩

section
variable {w : Workspace} {o o' : Obtained}

theorem Among.extends (h : w.Among o) (ho : o.Extends o') : w.Among o' where
  rule r hr := ho.keeps.rules r (h.rule r hr)
  term t ht := ho.keeps.terms t (h.term t ht)
  bindings := ho.keeps.sets _ h.bindings
  empty := ho.keeps.sets _ h.empty

theorem Among.withRule (h : w.Among o) {r : Rule} (hr : r ∈ o.rules) :
    Among { w with rule := some r } o :=
  ⟨fun _ h' => Option.some.inj h' ▸ hr, h.term, h.bindings, h.empty⟩

theorem Among.withTerm (h : w.Among o) {t : Term} (ht : t ∈ o.terms) :
    Among { w with term := some t } o :=
  ⟨h.rule, fun _ h' => Option.some.inj h' ▸ ht, h.bindings, h.empty⟩

theorem Among.withBindings (h : w.Among o) {b : Bindings} (hb : b ∈ o.sets) :
    Among { w with bindings := b } o :=
  ⟨h.rule, h.term, hb, h.empty⟩

theorem Among.perform (h : w.Among o) {s : Step} (hs : s.WellNamed) {w' : Workspace} {a : Answer}
    (hw : w.perform s = .ok (w', a)) : ∃ o', o.Extends o' ∧ w'.Among o' := by
  cases s with
  | chooseRule r =>
    cases hw
    obtain ⟨o', ho, hr⟩ := o.exists_rule hs
    exact ⟨o', ho, (h.extends ho).withRule hr⟩
  | chooseTerm t =>
    cases hw
    obtain ⟨o', ho, ht⟩ := o.exists_term hs
    exact ⟨o', ho, (h.extends ho).withTerm ht⟩
  | flip =>
    rw [Workspace.perform] at hw
    split at hw
    · cases hw
    · rename_i r hr
      cases hw
      obtain ⟨o', ho, hr'⟩ := Obtained.exists_flip (h.rule r hr)
      exact ⟨o', ho, (h.extends ho).withRule hr'⟩
  | apply =>
    rw [Workspace.perform] at hw
    split at hw
    · cases hw
    · cases hw
    · rename_i r t hr ht
      split at hw
      · cases hw
      · rename_i u hu
        cases hw
        obtain ⟨o', ho, hu'⟩ := Obtained.exists_applyAll (h.rule r hr) (h.term t ht) hu
        exact ⟨o', ho, (h.extends ho).withTerm hu'⟩
  | matchTerm pattern =>
    rw [Workspace.perform] at hw
    split at hw
    · cases hw
    · rename_i t ht
      split at hw
      · cases hw
        exact ⟨o, .refl o, h⟩
      · rename_i b hb
        cases hw
        obtain ⟨o₁, ho₁, hp⟩ := o.exists_term hs
        obtain ⟨o₂, ho₂, hb'⟩ := Obtained.exists_match hp (ho₁.keeps.terms t (h.term t ht)) hb
        exact ⟨o₂, ho₁.trans ho₂, (h.extends (ho₁.trans ho₂)).withBindings hb'⟩
  | bind name value =>
    cases hw
    obtain ⟨o₁, ho₁, hu⟩ := o.exists_term hs
    obtain ⟨o₂, ho₂, hb⟩ := Obtained.exists_bind (h.extends ho₁).bindings hu name
    exact ⟨o₂, ho₁.trans ho₂, (h.extends (ho₁.trans ho₂)).withBindings hb⟩
  | clear =>
    cases hw
    exact ⟨o, .refl o, h.withBindings h.empty⟩
  | substitute template =>
    rw [Workspace.perform] at hw
    split at hw
    · cases hw
    · rename_i u hu
      cases hw
      obtain ⟨o₁, ho₁, ht⟩ := o.exists_term hs
      obtain ⟨o₂, ho₂, hu'⟩ := Obtained.exists_substitute (h.extends ho₁).bindings ht hu
      exact ⟨o₂, ho₁.trans ho₂, (h.extends (ho₁.trans ho₂)).withTerm hu'⟩
  | reparse =>
    rw [Workspace.perform] at hw
    split at hw
    · cases hw
    · split at hw
      · cases hw
      · rename_i u hu
        cases hw
        obtain ⟨o', ho, hu'⟩ := o.exists_term (Term.wellNamed_of_parse hu)
        exact ⟨o', ho, (h.extends ho).withTerm hu'⟩

theorem Among.after (h : w.Among o) {s : Step} (hs : s.WellNamed) :
    ∃ o', o.Extends o' ∧ (w.after s).Among o' := by
  rw [Workspace.after]
  split
  · rename_i w' a hw
    exact h.perform hs hw
  · exact ⟨o, .refl o, h⟩

theorem Among.run : ∀ {steps : List Step} {w : Workspace} {o : Obtained}, w.Among o →
    (∀ s ∈ steps, s.WellNamed) → ∃ o', o.Extends o' ∧ (w.run steps).Among o'
  | [], _, o, h, _ => ⟨o, .refl o, h⟩
  | s :: steps, _, _, h, hsteps => by
    obtain ⟨hs, hsteps⟩ := List.forall_mem_cons.mp hsteps
    obtain ⟨o₁, ho₁, h₁⟩ := h.after hs
    obtain ⟨o₂, ho₂, h₂⟩ := h₁.run hsteps
    exact ⟨o₂, ho₁.trans ho₂, h₂⟩

end

/-! ## What a workspace holds -/

structure WellNamed (w : Workspace) : Prop where
  rule : ∀ r, w.rule = some r → r.WellNamed
  term : ∀ t, w.term = some t → t.WellNamed
  bindings : w.bindings.WellNamed

theorem Among.wellNamed {w : Workspace} {o : Obtained} (h : w.Among o) (ho : o.WellNamed) :
    w.WellNamed where
  rule r hr := ho.rules r (h.rule r hr)
  term t ht := ho.terms t (h.term t ht)
  bindings := ho.sets _ h.bindings

/-- **Handwork can be retraced.** Whatever is done in a workspace, there are operations that obtain
what it holds. -/
theorem exists_operations {steps : List Step} (h : ∀ s ∈ steps, s.WellNamed) :
    ∃ operations, (initial.run steps).Among (Obtained.run operations) := by
  obtain ⟨o, ⟨operations, rfl⟩, hamong⟩ := among_initial.run h
  exact ⟨operations, hamong⟩

theorem wellNamed_run {steps : List Step} (h : ∀ s ∈ steps, s.WellNamed) :
    (initial.run steps).WellNamed := by
  obtain ⟨operations, hamong⟩ := exists_operations h
  exact hamong.wellNamed (Obtained.wellNamed_run operations)

/-- **Printing and reading the term changes nothing**, whatever was done in the workspace before. -/
theorem perform_reparse_run {steps : List Step} (h : ∀ s ∈ steps, s.WellNamed) {t : Term}
    (ht : (initial.run steps).term = some t) :
    (initial.run steps).perform .reparse = .ok (initial.run steps, .compared true) := by
  have hparse := Term.parse_text ((wellNamed_run h).term t ht)
  simp only [Workspace.perform, ht, hparse, replaceTerm, decide_true]
  rw [← ht]

/-- A name that cannot be written is lost when it is printed. -/
example : (initial.run [.chooseTerm (.symbol "")]).perform .reparse =
    .error (.failed (.parse ⟨⟨0, 0⟩, [.symbol], .endMarker⟩)) := by decide +kernel

end Workspace

end TermRewriting
