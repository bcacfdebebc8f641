import TermRewriting.Console.Log
import TermRewriting.Text.Alphanumeric

/-!
# Which log lines are written

A filter is a list of directives. A directive has a least level for the lines of some parts of the
program, those whose names begin with its target. Of the directives that concern a line the one with
the longest target decides, and of two with the same target the later one. A line that no directive
concerns is not written.

In a text the directives stand between commas. A directive is a level, a target, or both with an
equals sign between them; a target alone lets all lines through. A text without directives asks for
errors only.

Results:
* `Filter.decisive_eq_none_iff`, `Filter.decisive_eq_some`, `Filter.decisive_concat`: which directive
  decides about a part of the program.
* `Filter.shows_of_le`: with a line go all lines of the same part that are more important.
* `Filter.shows_since_iff`: a filter for the whole program goes by the level alone.
-/
namespace TermRewriting

open Text

/-- From which level on lines are written; `none` if no line is. -/
abbrev Threshold := Option Level

/-- Whether lines of the level are written. -/
def Threshold.passed (least : Threshold) (l : Level) : Bool :=
  match least with
  | none => false
  | some m => m ≤ l

theorem Threshold.passed_of_le {least : Threshold} {l m : Level} (h : least.passed l = true)
    (hle : l ≤ m) : least.passed m = true := by
  cases least with
  | none => cases h
  | some n => exact decide_eq_true (Nat.le_trans (of_decide_eq_true h) hle)

structure Directive where
  /-- What the names of the parts begin with that it concerns. -/
  target : String
  least : Threshold
  deriving DecidableEq, Repr

/-- Whether the directive concerns a part of the program. -/
def Directive.concerns (d : Directive) (part : String) : Bool :=
  d.target.toList.isPrefixOf part.toList

abbrev Filter := List Directive

namespace Filter

/-- The directive that decides about a part of the program. -/
def decisive : Filter → (part : String) → Option Directive
  | [], _ => none
  | d :: f, part =>
    match decisive f part with
    | none => if d.concerns part then some d else none
    | some e => if d.concerns part && e.target.length < d.target.length then some d else some e

def shows (f : Filter) (line : LogLine) : Bool :=
  match f.decisive line.target with
  | none => false
  | some d => d.least.passed line.level

/-- Lines of all parts, from a level on. -/
def since (least : Level) : Filter := [⟨"", some least⟩]

theorem decisive_eq_none_iff {part : String} : ∀ {f : Filter},
    f.decisive part = none ↔ ∀ d ∈ f, d.concerns part = false
  | [] => by simp [decisive]
  | d :: f => by
    have ih : decisive f part = none ↔ ∀ d ∈ f, d.concerns part = false := decisive_eq_none_iff
    rw [List.forall_mem_cons, ← ih, decisive]
    cases decisive f part with
    | none => simp
    | some e => by_cases h : (d.concerns part && e.target.length < d.target.length) <;> simp [h]

/-- It is a directive that concerns the part, and none that does has a longer target. -/
theorem decisive_eq_some {part : String} : ∀ {f : Filter} {d : Directive},
    f.decisive part = some d → d ∈ f ∧ d.concerns part = true ∧
      ∀ e ∈ f, e.concerns part = true → e.target.length ≤ d.target.length
  | [], d, h => by cases h
  | c :: f, d, h => by
    rw [decisive] at h
    cases hf : decisive f part with
    | none =>
      have hnone := decisive_eq_none_iff.mp hf
      simp only [hf] at h
      split at h
      · rename_i hc
        cases h
        refine ⟨List.mem_cons_self, hc, fun e he hconcerns => ?_⟩
        rcases List.mem_cons.mp he with rfl | he
        · exact Nat.le_refl _
        · rw [hnone e he] at hconcerns
          cases hconcerns
      · cases h
    | some b =>
      obtain ⟨hmem, hb, hlongest⟩ := decisive_eq_some hf
      simp only [hf] at h
      split at h
      · rename_i hc
        obtain ⟨hc, hlt⟩ := Bool.and_eq_true_iff.mp hc
        cases h
        refine ⟨List.mem_cons_self, hc, fun e he hconcerns => ?_⟩
        rcases List.mem_cons.mp he with rfl | he
        · exact Nat.le_refl _
        · have hle := hlongest e he hconcerns
          have hlt := of_decide_eq_true hlt
          omega
      · rename_i hc
        cases h
        refine ⟨List.mem_cons_of_mem _ hmem, hb, fun e he hconcerns => ?_⟩
        rcases List.mem_cons.mp he with rfl | he
        · simp only [hconcerns, Bool.true_and, decide_eq_true_eq] at hc
          omega
        · exact hlongest e he hconcerns

/-- The last directive is overruled only by one with a longer target. -/
theorem decisive_concat {part : String} {d : Directive} (hd : d.concerns part = true) :
    ∀ {f : Filter}, (∀ e ∈ f, e.concerns part = true → e.target.length ≤ d.target.length) →
      decisive (f ++ [d]) part = some d
  | [], _ => by simp [decisive, hd]
  | e :: f, h => by
    obtain ⟨he, hf⟩ := List.forall_mem_cons.mp h
    have hnot : ¬(e.concerns part = true ∧ d.target.length < e.target.length) :=
      fun hlt => Nat.not_lt.mpr (he hlt.1) hlt.2
    rw [List.cons_append, decisive, decisive_concat hd hf]
    simp only [Bool.and_eq_true, decide_eq_true_eq, if_neg hnot]

theorem shows_of_le {f : Filter} {l m : LogLine} (h : f.shows l = true)
    (htarget : m.target = l.target) (hle : l.level ≤ m.level) : f.shows m = true := by
  rw [shows] at h ⊢
  rw [htarget]
  cases hd : f.decisive l.target with
  | none =>
    rw [hd] at h
    cases h
  | some d =>
    rw [hd] at h
    exact Threshold.passed_of_le h hle

theorem shows_since_iff {least : Level} {l : LogLine} :
    (since least).shows l = true ↔ least ≤ l.level := by
  have hdecisive : (since least).decisive l.target = some ⟨"", some least⟩ := by
    simp [since, decisive, Directive.concerns]
  simp [shows, hdecisive, Threshold.passed]

end Filter

/-! ## Reading a filter -/

def Threshold.ofName? (name : String) : Option Threshold :=
  match name.toLower with
  | "off" | "0" => some none
  | "error" | "1" => some (some .error)
  | "warn" | "2" => some (some .warn)
  | "info" | "3" => some (some .info)
  | "debug" | "4" => some (some .debug)
  | "trace" | "5" => some (some .trace)
  | _ => none

def isTargetChar (c : Char) : Bool := isAlphanumeric c || ['_', ':', '-'].contains c

/-- The directive of a target and a threshold. The name of a threshold in the place of a target
stands for the whole program. -/
def Directive.ofTarget? (target : String) (least : Threshold) : Option Directive :=
  if target.isEmpty || !target.toList.all isTargetChar then none
  else if (Threshold.ofName? target).isSome then some ⟨"", least⟩
  else some ⟨target, least⟩

def Directive.ofText? (text : String) : Option Directive :=
  match text.splitOn "=" with
  | [word] =>
    match Threshold.ofName? word with
    | some least => some ⟨"", least⟩
    | none => ofTarget? word (some .trace)
  | [target, ""] => ofTarget? target (some .trace)
  | [target, name] => (Threshold.ofName? name).bind (ofTarget? target)
  | _ => none

/-- The filter that a text asks for, if every directive in it can be read. -/
def Filter.ofText? (text : String) : Option Filter :=
  match (text.splitOn ",").filter (!·.isEmpty) with
  | [] => some (since .error)
  | directives => directives.mapM Directive.ofText?

end TermRewriting
