import TermRewriting.Reader
import TermRewriting.Rewriting

/-!
# A workspace for rewriting by hand

A workspace holds at most one rule, at most one term, and a binding set. A step looks at some of the
three and changes at most one of them; a step that fails changes nothing.

Results:
* `Workspace.change_of_perform`, `Workspace.change_after`: a step changes at most one part.
-/
namespace TermRewriting

/-- What a step may find missing. -/
inductive Part where
  | rule
  | term
  deriving DecidableEq, Repr

structure Workspace where
  rule : Option Rule
  term : Option Term
  bindings : Bindings
  deriving DecidableEq, Repr

namespace Workspace

def initial : Workspace := ⟨none, none, .empty⟩

inductive Step where
  | chooseRule (rule : Rule)
  | chooseTerm (term : Term)
  /-- Exchanges the sides of the rule. -/
  | flip
  /-- Rewrites the term once. -/
  | apply
  /-- Matches the term against a pattern and keeps what was found. -/
  | matchTerm (pattern : Term)
  /-- Adds a binding. -/
  | bind (name : String) (value : Term)
  /-- Drops the bindings. -/
  | clear
  /-- Takes a template with the bindings plugged in as the term. -/
  | substitute (template : Term)
  /-- Prints the term and reads it again. -/
  | reparse
  deriving Repr

inductive Answer where
  | done
  | compared (same : Bool)
  | matched (found : Bool)
  deriving DecidableEq, Repr

inductive Failure where
  | missing (part : Part)
  | failed (error : Error)
  deriving DecidableEq, Repr

/-- Puts a new term in the place of the old one. -/
def replaceTerm (w : Workspace) (old new : Term) : Workspace × Answer :=
  ({ w with term := some new }, .compared (new = old))

/-- Carries out a step. The rule is asked for before the term. -/
def perform (w : Workspace) : Step → Except Failure (Workspace × Answer)
  | .chooseRule rule => .ok ({ w with rule := some rule }, .done)
  | .chooseTerm term => .ok ({ w with term := some term }, .done)
  | .flip =>
    match w.rule with
    | none => .error (.missing .rule)
    | some rule => .ok ({ w with rule := some rule.flip }, .done)
  | .apply =>
    match w.rule, w.term with
    | none, _ => .error (.missing .rule)
    | some _, none => .error (.missing .term)
    | some rule, some term =>
      match rule.applyAll term with
      | .error e => .error (.failed (.substitution e))
      | .ok new => .ok (w.replaceTerm term new)
  | .matchTerm pattern =>
    match w.term with
    | none => .error (.missing .term)
    | some term =>
      match pattern.match? term with
      | none => .ok (w, .matched false)
      | some bindings => .ok ({ w with bindings := bindings }, .matched true)
  | .bind name value => .ok ({ w with bindings := w.bindings.bind name value }, .done)
  | .clear => .ok ({ w with bindings := .empty }, .done)
  | .substitute template =>
    match template.substitute w.bindings with
    | .error e => .error (.failed (.substitution e))
    | .ok term => .ok ({ w with term := some term }, .done)
  | .reparse =>
    match w.term with
    | none => .error (.missing .term)
    | some term =>
      match Term.parse term.text with
      | .error e => .error (.failed e)
      | .ok new => .ok (w.replaceTerm term new)

/-- The workspace after a step that succeeds; otherwise the workspace as it was. -/
def after (w : Workspace) (s : Step) : Workspace :=
  match w.perform s with
  | .ok (w', _) => w'
  | .error _ => w

def run (w : Workspace) (steps : List Step) : Workspace := steps.foldl after w

section
variable {w w' : Workspace} {s : Step} {a : Answer}

/-- The one part that a step may change. -/
inductive Change (w w' : Workspace) : Prop
  | rule (term : w'.term = w.term) (bindings : w'.bindings = w.bindings)
  | term (rule : w'.rule = w.rule) (bindings : w'.bindings = w.bindings)
  | bindings (rule : w'.rule = w.rule) (term : w'.term = w.term)

theorem change_of_perform (h : w.perform s = .ok (w', a)) : Change w w' := by
  cases s with
  | chooseRule rule =>
    cases h
    exact .rule rfl rfl
  | chooseTerm term =>
    cases h
    exact .term rfl rfl
  | flip =>
    rw [perform] at h
    split at h
    · cases h
    · cases h
      exact .rule rfl rfl
  | apply =>
    rw [perform] at h
    split at h
    · cases h
    · cases h
    · split at h
      · cases h
      · cases h
        exact .term rfl rfl
  | matchTerm pattern =>
    rw [perform] at h
    split at h
    · cases h
    · split at h
      · cases h
        exact .bindings rfl rfl
      · cases h
        exact .bindings rfl rfl
  | bind name value =>
    cases h
    exact .bindings rfl rfl
  | clear =>
    cases h
    exact .bindings rfl rfl
  | substitute template =>
    rw [perform] at h
    split at h
    · cases h
    · cases h
      exact .term rfl rfl
  | reparse =>
    rw [perform] at h
    split at h
    · cases h
    · split at h
      · cases h
      · cases h
        exact .term rfl rfl

/-- A step changes at most one part, and none if it fails. -/
theorem change_after (w : Workspace) (s : Step) : Change w (w.after s) := by
  rw [after]
  split
  · rename_i w' a h
    exact change_of_perform h
  · exact .rule rfl rfl

end

end Workspace

end TermRewriting
