import TermRewriting.Console.Dialogue
import TermRewriting.Proofs.Filling
import TermRewriting.Proofs.Printing
import TermRewriting.Proofs.Redex

/-!
# Terms that come from texts

Terms and rules enter by being read, and a text has only names that can be written. Every operation
on them keeps that so: a match binds subterms of the term, and plugging in and rewriting take every
name that they put anywhere from a term at hand. The keys of a binding set may be any strings,
because a key never becomes a name. So whatever is obtained on the way can be printed and read back.

Results:
* `Term.wellNamed_fill`: the names in a filled template.
* `Bindings.wellNamed_of_match?`, `Term.wellNamed_substitute`, `Rule.wellNamed_applyAll`: what each
  operation makes of names that can be written.
* `Obtained.wellNamed_perform`, `Obtained.wellNamed_run`: one operation, and a run of them.
* `Console.wellNamed_evaluate`, `Dialogue.wellNamed_turns`: one line at the console, and a dialogue.
* `obtained_reads_back`: everything obtained in a run, and every rule or rewritten term that the
  console prints, is read back from its printed form.
-/
namespace TermRewriting

/-! ## Names through the operations -/

theorem Term.wellNamed_fill {g : String → String} {s : String → Term} (t : Term) :
    (t.fill g s).WellNamed ↔
      (∀ f ∈ t.functorNames, IsName (g f)) ∧ ∀ x ∈ t.symbols, (s x).WellNamed := by
  induction t with
  | symbol x => simp
  | functor f args ih =>
    have hargs : (∀ u ∈ args.map (fill g s), u.WellNamed) ↔
        ∀ a ∈ args, (∀ k ∈ a.functorNames, IsName (g k)) ∧ ∀ x ∈ a.symbols, (s x).WellNamed := by
      rw [List.forall_mem_map]
      exact forall₂_congr ih
    rw [fill_functor, wellNamed_functor, hargs, forall_names_args, functorNames_functor,
      symbols_functor, List.forall_mem_cons, and_assoc]

theorem Term.wellNamed_iff_names (t : Term) :
    t.WellNamed ↔ (∀ f ∈ t.functorNames, IsName f) ∧ ∀ x ∈ t.symbols, IsName x := by
  have h := wellNamed_fill (g := id) (s := symbol) t
  rw [fill_id_symbol] at h
  simpa using h

namespace Bindings

/-- All bound terms have names that can be written. The bound names may be any strings. -/
def WellNamed (b : Bindings) : Prop := ∀ x u, b.get? x = some u → u.WellNamed

theorem wellNamed_empty : empty.WellNamed := fun _ _ h => nomatch h

theorem wellNamed_bind {b : Bindings} {u : Term} (hb : b.WellNamed) (hu : u.WellNamed)
    (name : String) : (b.bind name u).WellNamed := by
  intro x v hv
  rw [get?_bind] at hv
  split at hv
  · cases hv
    exact hu
  · exact hb x v hv

/-- What a match binds are subterms of the term. -/
theorem wellNamed_of_match? {p t : Term} {b : Bindings} (ht : t.WellNamed)
    (h : p.match? t = some b) : b.WellNamed := by
  intro x u hu
  rw [← Term.fill_id_of_match? h, Term.wellNamed_fill] at ht
  have hxu := ht.2 x (Term.mem_symbols_of_match? h hu)
  rwa [b.agrees_assignment x u hu] at hxu

end Bindings

/-- The result, or the term that the error is about, has names that can be written. -/
def WellNamedOutcome : Except SubstitutionError Term → Prop
  | .ok u => u.WellNamed
  | .error e => e.value.WellNamed

/-- Every name in the result is one of the template or of a bound term. -/
theorem Term.wellNamed_substitute {b : Bindings} {t : Term} (hb : b.WellNamed)
    (ht : t.WellNamed) : WellNamedOutcome (t.substitute b) := by
  obtain ⟨hf, hx⟩ := t.wellNamed_iff_names.mp ht
  cases h : t.substitute b with
  | error e =>
    -- An error is about a bound term, not about a part of the template.
    obtain ⟨f, -, hfe⟩ := List.exists_of_findSome?_eq_some (substitute_eq_error_iff.mp h)
    have hvalue : b.get? f = some e.value := (Bindings.misfit?_eq_some_iff.mp hfe).2.1
    exact hb f e.value hvalue
  | ok u =>
    obtain ⟨-, rfl⟩ := substitute_eq_ok_iff.mp h
    refine t.wellNamed_fill.mpr ⟨fun f hmem => ?_, fun x hmem => ?_⟩
    · rw [Bindings.newName]
      split
      · rename_i new hnew
        exact wellNamed_symbol.mp (hb f _ hnew)
      · exact hf f hmem
    · rw [Bindings.assignment]
      cases hu : b.get? x with
      | none => exact wellNamed_symbol.mpr (hx x hmem)
      | some u => exact hb x u hu

namespace Rule

theorem applyEach_mem {r : Rule} {ts us : List Term} (h : r.applyEach ts = .ok us) {u : Term}
    (hu : u ∈ us) : ∃ t ∈ ts, r.applyAll t = .ok u := by
  obtain ⟨i, hi, hget⟩ := List.mem_iff_getElem.mp hu
  have hi' : i < ts.length := applyEach_length h ▸ hi
  obtain ⟨v, hv, hok⟩ := applyEach_eq_ok h (List.getElem?_eq_getElem hi')
  rw [List.getElem?_eq_getElem hi, hget] at hv
  cases hv
  exact ⟨ts[i], List.getElem_mem hi', hok⟩

theorem wellNamed_applyAll_of_match {r : Rule} (hr : r.WellNamed) {t : Term} {b : Bindings}
    (ht : t.WellNamed) (h : r.head.match? t = some b) : WellNamedOutcome (r.applyAll t) := by
  rw [applyAll_of_match h]
  exact Term.wellNamed_substitute (Bindings.wellNamed_of_match? ht h) hr.2

theorem wellNamed_applyAll {r : Rule} (hr : r.WellNamed) (t : Term) :
    t.WellNamed → WellNamedOutcome (r.applyAll t) := by
  induction t using r.pass_induction with
  | matched t b hm =>
    intro ht
    exact wellNamed_applyAll_of_match hr ht hm
  | symbol x hm =>
    intro ht
    rw [applyAll_symbol hm]
    exact ht
  | functor f args hm ih =>
    intro ht
    obtain ⟨hf, hargs⟩ := Term.wellNamed_functor.mp ht
    cases h : r.applyAll (.functor f args) with
    | ok w =>
      obtain ⟨us, hus, rfl⟩ := (applyAll_functor_eq_ok hm).mp h
      refine Term.wellNamed_functor.mpr ⟨hf, fun u hu => ?_⟩
      obtain ⟨a, ha, hau⟩ := applyEach_mem hus hu
      have hout := ih a ha (hargs a ha)
      rwa [hau] at hout
    | error e =>
      obtain ⟨i, a, ha, hae, -⟩ := applyEach_eq_error ((applyAll_functor_eq_error hm).mp h)
      have hmem := List.mem_of_getElem? ha
      have hout := ih a hmem (hargs a hmem)
      rwa [hae] at hout

theorem WellNamed.flip {r : Rule} (h : r.WellNamed) : r.flip.WellNamed := ⟨h.2, h.1⟩

end Rule

/-! ## Runs of operations -/

/-- What can be done with texts and with what was obtained before. A term, a rule or a binding set
is named by its number in the order in which they were obtained. -/
inductive Operation where
  /-- Reads a term. -/
  | parseTerm (text : String)
  /-- Reads a rule. -/
  | parseRule (text : String)
  /-- Matches a term against a pattern. -/
  | matchTerm (pattern term : Nat)
  /-- Binds a name, any string, in a binding set. -/
  | bind (set : Nat) (name : String) (value : Nat)
  /-- Exchanges the sides of a rule. -/
  | flip (rule : Nat)
  /-- Plugs bindings into a template. -/
  | substitute (set template : Nat)
  /-- Rewrites a term once. -/
  | applyAll (rule term : Nat)
  deriving Repr

/-- Everything that was obtained so far. -/
structure Obtained where
  terms : List Term
  rules : List Rule
  sets : List Bindings
  deriving Repr

namespace Obtained

def initial : Obtained := ⟨[], [], [.empty]⟩

def addTerm (o : Obtained) (t : Term) : Obtained := { o with terms := o.terms ++ [t] }

/-- With a rule come its two sides. -/
def addRule (o : Obtained) (r : Rule) : Obtained :=
  { o with rules := o.rules ++ [r], terms := o.terms ++ [r.head, r.body] }

/-- With a binding set come the bound terms. -/
def addSet (o : Obtained) (b : Bindings) : Obtained :=
  { o with sets := o.sets ++ [b], terms := o.terms ++ b.entries.map (·.2) }

/-- With an error comes the term that it is about. -/
def addOutcome (o : Obtained) : Except SubstitutionError Term → Obtained
  | .ok t => o.addTerm t
  | .error e => o.addTerm e.value

/-- What there is after an operation. Where nothing is found, and where there is nothing of a given
number, nothing is obtained. -/
def perform (o : Obtained) : Operation → Obtained
  | .parseTerm text =>
    match Term.parse text with
    | .ok t => o.addTerm t
    | .error _ => o
  | .parseRule text =>
    match Rule.parse text with
    | .ok r => o.addRule r
    | .error _ => o
  | .matchTerm pattern term =>
    match o.terms[pattern]?, o.terms[term]? with
    | some p, some t =>
      match p.match? t with
      | some b => o.addSet b
      | none => o
    | _, _ => o
  | .bind set name value =>
    match o.sets[set]?, o.terms[value]? with
    | some b, some u => o.addSet (b.bind name u)
    | _, _ => o
  | .flip rule =>
    match o.rules[rule]? with
    | some r => o.addRule r.flip
    | none => o
  | .substitute set template =>
    match o.sets[set]?, o.terms[template]? with
    | some b, some t => o.addOutcome (t.substitute b)
    | _, _ => o
  | .applyAll rule term =>
    match o.rules[rule]?, o.terms[term]? with
    | some r, some t => o.addOutcome (r.applyAll t)
    | _, _ => o

/-- Everything that a run of operations obtains. -/
def run (operations : List Operation) : Obtained := operations.foldl perform initial

structure WellNamed (o : Obtained) : Prop where
  terms : ∀ t ∈ o.terms, t.WellNamed
  rules : ∀ r ∈ o.rules, r.WellNamed
  sets : ∀ b ∈ o.sets, b.WellNamed

theorem wellNamed_initial : initial.WellNamed := by
  refine ⟨by simp [initial], by simp [initial], fun b hb => ?_⟩
  rw [List.mem_singleton.mp hb]
  exact Bindings.wellNamed_empty

namespace WellNamed

variable {o : Obtained} (h : o.WellNamed)
include h

theorem addTerm {t : Term} (ht : t.WellNamed) : (o.addTerm t).WellNamed :=
  ⟨List.forall_mem_append.mpr ⟨h.terms, by simpa using ht⟩, h.rules, h.sets⟩

theorem addRule {r : Rule} (hr : r.WellNamed) : (o.addRule r).WellNamed :=
  ⟨List.forall_mem_append.mpr ⟨h.terms, by simp [hr.1, hr.2]⟩,
    List.forall_mem_append.mpr ⟨h.rules, by simpa using hr⟩, h.sets⟩

theorem addSet {b : Bindings} (hb : b.WellNamed) : (o.addSet b).WellNamed := by
  refine ⟨List.forall_mem_append.mpr ⟨h.terms, ?_⟩, h.rules,
    List.forall_mem_append.mpr ⟨h.sets, by simpa using hb⟩⟩
  intro u hu
  obtain ⟨e, he, rfl⟩ := List.mem_map.mp hu
  exact hb e.1 e.2 (Bindings.get?_eq_some_iff.mpr he)

theorem addOutcome {x : Except SubstitutionError Term} (hx : WellNamedOutcome x) :
    (o.addOutcome x).WellNamed := by
  cases x with
  | ok t => exact h.addTerm hx
  | error e => exact h.addTerm hx

end WellNamed

theorem wellNamed_perform {o : Obtained} (h : o.WellNamed) (operation : Operation) :
    (o.perform operation).WellNamed := by
  cases operation with
  | parseTerm text =>
    rw [perform]
    cases ht : Term.parse text with
    | ok t => exact h.addTerm (Term.wellNamed_of_parse ht)
    | error e => exact h
  | parseRule text =>
    rw [perform]
    cases hr : Rule.parse text with
    | ok r => exact h.addRule (Rule.wellNamed_of_parse hr)
    | error e => exact h
  | matchTerm pattern term =>
    rw [perform]
    split
    · rename_i p t hp ht
      cases hb : p.match? t with
      | some b =>
        exact h.addSet (Bindings.wellNamed_of_match? (h.terms t (List.mem_of_getElem? ht)) hb)
      | none => exact h
    · exact h
  | bind set name value =>
    rw [perform]
    split
    · rename_i b u hb hu
      exact h.addSet (Bindings.wellNamed_bind (h.sets b (List.mem_of_getElem? hb))
        (h.terms u (List.mem_of_getElem? hu)) name)
    · exact h
  | flip rule =>
    rw [perform]
    split
    · rename_i r hr
      exact h.addRule (h.rules r (List.mem_of_getElem? hr)).flip
    · exact h
  | substitute set template =>
    rw [perform]
    split
    · rename_i b t hb ht
      exact h.addOutcome (Term.wellNamed_substitute (h.sets b (List.mem_of_getElem? hb))
        (h.terms t (List.mem_of_getElem? ht)))
    · exact h
  | applyAll rule term =>
    rw [perform]
    split
    · rename_i r t hr ht
      exact h.addOutcome (Rule.wellNamed_applyAll (h.rules r (List.mem_of_getElem? hr)) t
        (h.terms t (List.mem_of_getElem? ht)))
    · exact h

theorem wellNamed_foldl {o : Obtained} (h : o.WellNamed) (operations : List Operation) :
    (operations.foldl perform o).WellNamed := by
  induction operations generalizing o with
  | nil => exact h
  | cons operation operations ih => exact ih (wellNamed_perform h operation)

theorem wellNamed_run (operations : List Operation) : (run operations).WellNamed :=
  wellNamed_foldl wellNamed_initial operations

end Obtained

/-! ## What the console shows -/

/-- The terms, rules and bound terms that a reply shows have names that can be written. -/
def Reply.WellNamed : Reply → Prop
  | .term t => t.WellNamed
  | .rewritten t => t.WellNamed
  | .rule r => r.WellNamed
  | .found (some b) => b.WellNamed
  | _ => True

/-- The rule that is set, if there is one, has names that can be written. -/
def Console.WellNamed (c : Console) : Prop := ∀ r, c.rule = some r → r.WellNamed

namespace Console

theorem wellNamed_parse (text : String) : (parse text).WellNamed := by
  rw [parse]
  cases h : Term.parse text with
  | error e => trivial
  | ok t => exact Term.wellNamed_of_parse h

theorem wellNamed_matchTerms (c : Console) (text : String) :
    (c.matchTerms text).reply.WellNamed := by
  rw [matchTerms]
  cases h : Rule.parse text with
  | error e => trivial
  | ok r =>
    show Reply.WellNamed (.found (r.head.match? r.body))
    cases hb : r.head.match? r.body with
    | none => trivial
    | some b => exact Bindings.wellNamed_of_match? (Rule.wellNamed_of_parse h).2 hb

theorem wellNamed_setRule (c : Console) (text : String) : (c.setRule text).reply.WellNamed := by
  rw [setRule]
  cases hr : Rule.parse text with
  | error e => trivial
  | ok r => exact Rule.wellNamed_of_parse hr

theorem wellNamed_apply {c : Console} (h : c.WellNamed) (text : String) :
    (c.apply text).reply.WellNamed := by
  rw [apply]
  cases hrule : c.rule with
  | none => trivial
  | some r =>
    cases ht : Term.parse text with
    | error e => trivial
    | ok t =>
      have hout := Rule.wellNamed_applyAll (h r hrule) t (Term.wellNamed_of_parse ht)
      rw [Rule.applyAll] at hout
      show Reply.WellNamed (passReply (r.pass t))
      rw [passReply]
      cases hp : (r.pass t).outcome with
      | error e => trivial
      | ok u =>
        rw [hp] at hout
        exact hout

theorem wellNamed_perform_console {c : Console} (h : c.WellNamed) (command : Command)
    (text : String) : (c.perform command text).console.WellNamed := by
  rcases c.perform_console command text with hsame | ⟨r, hr, hset⟩
  · rwa [hsame]
  · rw [hset]
    intro r' hr'
    cases hr'
    exact Rule.wellNamed_of_parse hr

theorem wellNamed_perform_reply {c : Console} (h : c.WellNamed) (command : Command)
    (text : String) : (c.perform command text).reply.WellNamed := by
  cases command with
  | tokenize =>
    show Reply.WellNamed (tokenize text)
    rw [tokenize]
    cases Lexeme.ofText text <;> trivial
  | parse => exact wellNamed_parse text
  | rule => exact wellNamed_setRule c text
  | matchTerms => exact wellNamed_matchTerms c text
  | apply => exact wellNamed_apply h text
  | help => trivial
  | unknown word => trivial

theorem wellNamed_evaluate {c : Console} (h : c.WellNamed) (line : String) :
    (c.evaluate line).console.WellNamed ∧ (c.evaluate line).reply.WellNamed := by
  rw [evaluate]
  split
  · exact ⟨h, trivial⟩
  · exact ⟨wellNamed_perform_console h _ _, wellNamed_perform_reply h _ _⟩

end Console

theorem Dialogue.wellNamed_turns : ∀ (lines : List String) (d : Dialogue), d.console.WellNamed →
    ∀ turn ∈ d.turns lines, turn.reply.WellNamed
  | [], _, _, _, hturn => nomatch hturn
  | line :: lines, d, h, turn, hturn => by
    rw [turns, hear] at hturn
    cases hj : joinLine d.waiting line with
    | waiting text =>
      rw [hj] at hturn
      exact wellNamed_turns lines { d with waiting := text } h turn hturn
    | complete text =>
      -- Of the history nothing has to be known: no entry is read again.
      rw [hj] at hturn
      obtain ⟨hconsole, hreply⟩ := Console.wellNamed_evaluate h text
      rcases List.mem_cons.mp hturn with rfl | hturn
      · exact hreply
      · exact wellNamed_turns lines ⟨_, _, _⟩ hconsole turn hturn

/-! ## Everything is read back -/

/-- **What was obtained can be typed in again.** After any operations in any order, every term at
hand, be it a result, a bound term or the term that an error is about, has names that can be written
and is read back from its printed form, and so is every rule. What the console answers in a dialogue
when it sets a rule or rewrites a term is read back as that rule or that term. -/
theorem obtained_reads_back :
    (∀ operations : List Operation,
      (∀ t ∈ (Obtained.run operations).terms, t.WellNamed ∧ Term.parse t.text = .ok t) ∧
      (∀ r ∈ (Obtained.run operations).rules, r.WellNamed ∧ Rule.parse r.text = .ok r) ∧
      (∀ b ∈ (Obtained.run operations).sets, ∀ x u, b.get? x = some u →
        u.WellNamed ∧ Term.parse u.text = .ok u)) ∧
    (∀ (h : History) (lines : List String), ∀ turn ∈ (Dialogue.initial h).turns lines,
      (∀ r, turn.reply = .rule r → Rule.parse turn.reply.stdout = .ok r) ∧
      (∀ t, turn.reply = .rewritten t → Term.parse turn.reply.stdout = .ok t)) := by
  refine ⟨fun operations => ?_, fun h lines turn hturn => ?_⟩
  · have hrun := Obtained.wellNamed_run operations
    refine ⟨fun t ht => ?_, fun r hr => ?_, fun b hb x u hu => ?_⟩
    · exact ⟨hrun.terms t ht, Term.parse_text (hrun.terms t ht)⟩
    · exact ⟨hrun.rules r hr, Rule.parse_text (hrun.rules r hr)⟩
    · have hnames := hrun.sets b hb x u hu
      exact ⟨hnames, Term.parse_text hnames⟩
  · have hstart : (Dialogue.initial h).console.WellNamed := fun _ hr => nomatch hr
    have hreply := Dialogue.wellNamed_turns lines _ hstart turn hturn
    refine ⟨fun r hr => ?_, fun t ht => ?_⟩
    · rw [hr] at hreply ⊢
      exact Rule.parse_text_line hreply
    · rw [ht] at hreply ⊢
      exact Term.parse_text_line hreply

/-- A functor that is renamed, the term of an error, and a bound name that cannot be written. -/
theorem obtained_reads_back_misfit :
    let operations : List Operation :=
      [.parseRule "apply(f, x) = f(x)", .parseTerm "list(apply(s, z), apply(k(), z))", .applyAll 0 2,
        .parseTerm "apply(s, z)", .applyAll 0 4, .bind 0 "no name" 3, .flip 0]
    let misfit : Term := .functor "k" []
    let renamed : Term := .functor "s" [.symbol "z"]
    let rule : Rule := ⟨.functor "f" [.symbol "x"], .functor "apply" [.symbol "f", .symbol "x"]⟩
    let lines := [":r apply(f, x) = f(x)", "g(\\", "apply(s, z))"]
    (∀ t ∈ [misfit, renamed], t ∈ (Obtained.run operations).terms ∧
      t.WellNamed ∧ Term.parse t.text = .ok t) ∧
    (rule ∈ (Obtained.run operations).rules ∧ rule.WellNamed ∧ Rule.parse rule.text = .ok rule) ∧
    (∃ b ∈ (Obtained.run operations).sets, b.get? "no name" = some misfit ∧
      misfit.WellNamed ∧ Term.parse misfit.text = .ok misfit) ∧
    (∃ turn ∈ (Dialogue.initial .empty).turns lines, turn.reply = .rule rule.flip ∧
      Rule.parse turn.reply.stdout = .ok rule.flip) ∧
    ∃ turn ∈ (Dialogue.initial .empty).turns lines,
      turn.reply = .rewritten (.functor "g" [renamed]) ∧
      Term.parse turn.reply.stdout = .ok (.functor "g" [renamed]) := by
  intro operations misfit renamed rule lines
  obtain ⟨hrun, hdialogue⟩ := obtained_reads_back
  obtain ⟨hterms, hrules, hsets⟩ := hrun operations
  have hmem : ∀ t ∈ [misfit, renamed], t ∈ (Obtained.run operations).terms := by decide +kernel
  have hrule : rule ∈ (Obtained.run operations).rules := by decide +kernel
  have hset : ∃ b ∈ (Obtained.run operations).sets, b.get? "no name" = some misfit := by
    decide +kernel
  have hset' : ∃ turn ∈ (Dialogue.initial .empty).turns lines, turn.reply = .rule rule.flip := by
    decide +kernel
  have hrewritten : ∃ turn ∈ (Dialogue.initial .empty).turns lines,
      turn.reply = .rewritten (.functor "g" [renamed]) := by decide +kernel
  obtain ⟨b, hb, hmisfit⟩ := hset
  obtain ⟨turn, hturn, hreply⟩ := hset'
  obtain ⟨turn', hturn', hreply'⟩ := hrewritten
  exact ⟨fun t ht => ⟨hmem t ht, hterms t (hmem t ht)⟩, ⟨hrule, hrules rule hrule⟩,
    ⟨b, hb, hmisfit, hsets b hb _ _ hmisfit⟩,
    ⟨turn, hturn, hreply, (hdialogue .empty lines turn hturn).1 _ hreply⟩,
    turn', hturn', hreply', (hdialogue .empty lines turn' hturn').2 _ hreply'⟩

end TermRewriting
