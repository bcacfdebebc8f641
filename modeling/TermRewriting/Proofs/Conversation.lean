import Mathlib.Data.List.Basic
import TermRewriting.Console.Script

/-!
# Conversations with the console

Of the lines before it, a line sees the rule and nothing else. The rule is the one that the latest
line set that could set one. A line that ends in an error has shown nothing and left the rule alone,
and so any lines that set no rule can be left out of a conversation without the others noticing.

Results:
* `Console.evaluate_rule`: the rule after a line.
* `Console.evaluate_of_error`: a line that ends in an error.
* `Console.rule_of_answers`: the rule after each line of a conversation.
* `Console.answers_kept`: leaving out lines that set no rule.
* `Console.answers_by_rule_lines`: what the answers in a conversation depend on.
-/
namespace TermRewriting

open Text

namespace Console

/-! ## One line -/

/-- The rule that a line sets, if it is a command to set one and the rule can be read. -/
def ruleOf? (line : String) : Option Rule :=
  let (word, text) := splitCommand line
  if word = "r" ∨ word = "rule" then (Rule.parse text).toOption else none

theorem ofWord_eq_rule_iff {word : String} :
    Command.ofWord word = .rule ↔ word = "r" ∨ word = "rule" := by
  unfold Command.ofWord
  split <;> simp_all

theorem ruleOf?_of_allBlank {line : String} (h : allBlank line = true) : ruleOf? line = none := by
  rw [ruleOf?, splitCommand_of_no_colon (head?_ne_colon_of_allBlank h)]
  rfl

theorem perform_rule (c : Console) (command : Command) (text : String) :
    (c.perform command text).console.rule =
      (if command = .rule then (Rule.parse text).toOption else none).or c.rule := by
  by_cases hrule : command = .rule
  · subst hrule
    rw [perform, setRule]
    cases Rule.parse text <;> rfl
  · rw [perform_console_of_ne hrule, if_neg hrule, Option.none_or]

theorem evaluate_rule (c : Console) (line : String) :
    (c.evaluate line).console.rule = (ruleOf? line).or c.rule := by
  cases hb : allBlank line with
  | true => simp [evaluate_of_allBlank hb, ruleOf?_of_allBlank hb]
  | false => simp [evaluate, hb, ruleOf?, perform_rule, ofWord_eq_rule_iff]

theorem perform_of_error {c : Console} {command : Command} {text : String} {e : Error}
    (h : (c.perform command text).reply = .failed e) : (c.perform command text).console = c := by
  by_cases hrule : command = .rule
  · subst hrule
    rw [perform, setRule] at h ⊢
    cases hr : Rule.parse text with
    | error e' => rfl
    | ok r => rw [hr] at h; cases h
  · exact perform_console_of_ne hrule c text

theorem evaluate_of_error {c : Console} {line : String} {e : Error}
    (h : (c.evaluate line).reply = .failed e) : (c.evaluate line).console = c := by
  cases hb : allBlank line with
  | true => rw [evaluate_of_allBlank hb]
  | false =>
    simp only [evaluate, hb] at h ⊢
    exact perform_of_error h

/-! ## Several lines -/

section
variable {ε : Type} (draw : String → Except ε Unit)

/-- Whether a report can be written makes no difference to the console or to standard output. -/
theorem answer_left (c : Console) (line : String) :
    (c.answer draw line).2.console = (c.evaluate line).console ∧
      (c.answer draw line).2.stdout = (c.evaluate line).reply.stdout := by
  rw [answer_eq]
  cases (c.evaluate line).reply.deliver draw line <;> exact ⟨rfl, rfl⟩

theorem answer_rule (c : Console) (line : String) :
    (c.answer draw line).2.console.rule = (ruleOf? line).or c.rule := by
  rw [(answer_left draw c line).1]
  exact evaluate_rule c line

/-- Every line is answered, and after it the rule is that of the latest line that set one. -/
theorem rule_of_answers : ∀ (lines : List String) (c : Console) (i : Nat), i < lines.length →
    ∃ a, (c.answers draw lines)[i]? = some a ∧
      a.2.console.rule = ((lines.take (i + 1)).reverse.findSome? ruleOf?).or c.rule
  | line :: lines, c, 0, _ => by
    refine ⟨c.answer draw line, by simp [answers], ?_⟩
    simp [answer_rule]
  | line :: lines, c, i + 1, hi => by
    obtain ⟨a, ha, hrule⟩ := rule_of_answers lines (c.answer draw line).2.console i
      (Nat.lt_of_succ_lt_succ hi)
    refine ⟨a, by simpa [answers] using ha, ?_⟩
    simp [hrule, answer_rule, List.findSome?_append, Option.or_assoc]

theorem answer_of_error {c : Console} {line : String} {e : Error}
    (h : ((Script.handle line).runFrom (.start c)).1 = .error e) :
    (c.answer draw line).2.stdout = "" ∧ (c.answer draw line).2.console = c := by
  rw [(answer_left draw c line).1, (answer_left draw c line).2]
  cases hb : allBlank line with
  | true =>
    rw [evaluate_of_allBlank hb]
    exact ⟨rfl, rfl⟩
  | false =>
    rw [Script.runFrom_handle _ hb, Work.console_start] at h
    have hreply := Reply.result_eq_error_iff.mp h
    exact ⟨by rw [hreply]; rfl, evaluate_of_error hreply⟩

theorem answer_eq_ok (hdraw : ∀ text, draw text = .ok ()) (c : Console) (line : String) :
    c.answer draw line = (.ok (), .ofOutcome line (c.evaluate line)) := by
  simp only [answer_eq, Reply.deliver_eq_ok hdraw]

/-- A line that sets no rule can be left out. -/
theorem answers_kept : ∀ (marked : List (String × Bool)) (c : Console),
    (∀ p ∈ marked, p.2 = false → ruleOf? p.1 = none) →
    c.answers draw ((marked.filter Prod.snd).map Prod.fst) =
      ((marked.zip (c.answers draw (marked.map Prod.fst))).filter (·.1.2)).map Prod.snd
  | [], _, _ => rfl
  | (line, true) :: marked, c, h => by
    have ih := answers_kept marked (c.answer draw line).2.console
      fun p hp => h p (List.mem_cons_of_mem _ hp)
    simp [answers, ih]
  | (line, false) :: marked, c, h => by
    have ih := answers_kept marked c fun p hp => h p (List.mem_cons_of_mem _ hp)
    have hline : ruleOf? line = none := h (line, false) List.mem_cons_self rfl
    have hc : (c.answer draw line).2.console = c := by
      have hrule := answer_rule draw c line
      rw [hline, Option.none_or] at hrule
      exact congrArg Console.mk hrule
    simp [answers, ih, hc]

end

/-- **A line sees no more than the rule.** Every line is answered, and after it the rule is the one
that was set by the latest line that is a command to set a rule and has one that can be read. A line
that comes to an error has shown nothing and leaves the rule as it was. If reports can be written, no
answer fails, and each is what the reply to its line says. If lines that set no rule are left out, the
answers to the others stay the same. -/
theorem answers_by_rule_lines {ε : Type} (draw : String → Except ε Unit) :
    (∀ (lines : List String) (i : Nat), i < lines.length →
      ∃ a, (initial.answers draw lines)[i]? = some a ∧
        a.2.console.rule = (lines.take (i + 1)).reverse.findSome? ruleOf?) ∧
    (∀ (c : Console) (line : String) (e : Error),
      ((Script.handle line).runFrom (.start c)).1 = .error e →
        (c.answer draw line).2.stdout = "" ∧ (c.answer draw line).2.console = c) ∧
    ((∀ text, draw text = .ok ()) → ∀ (c : Console) (line : String),
      c.answer draw line = (.ok (), .ofOutcome line (c.evaluate line))) ∧
    ∀ (c : Console) (marked : List (String × Bool)),
      (∀ p ∈ marked, p.2 = false → ruleOf? p.1 = none) →
        c.answers draw ((marked.filter Prod.snd).map Prod.fst) =
          ((marked.zip (c.answers draw (marked.map Prod.fst))).filter (·.1.2)).map Prod.snd := by
  refine ⟨fun lines i hi => ?_, fun c line e => answer_of_error draw, answer_eq_ok draw,
    fun c marked => answers_kept draw marked c⟩
  simpa [initial] using rule_of_answers draw lines initial i hi

/-- Two rules one after the other, with a rule that cannot be read behind them, errors of all three
kinds, blanks, a word that is no command, and a rule that is only matched. -/
theorem answers_by_rule_lines_mixed :
    let draw : String → Except String Unit := fun _ => .ok ()
    let marked : List (String × Bool) := [("f(a)", true), (":r f(x) = x", true), (" \t", false),
      (":rule f(x) = g(x", false), (":match f(x) = f(y)", false), (":rules f(x) = y", false),
      ("f(b)", true), (": rule apply(h, x) = h(x)", true), ("apply(k(), z)", false),
      (":r ?", false), (":a list(apply(s, z), f(c))", true)]
    let rule : Rule := ⟨.functor "apply" [.symbol "h", .symbol "x"], .functor "h" [.symbol "x"]⟩
    let misfit : SubstitutionError := ⟨"h", .functor "k" []⟩
    (∀ text, draw text = .ok ()) ∧ (∀ p ∈ marked, p.2 = false → ruleOf? p.1 = none) ∧
      (∃ a, (initial.answers draw (marked.map Prod.fst))[10]? = some a ∧
        a.2.console.rule = some rule ∧ a.2.stdout = "list(s(z), f(c))\n") ∧
      (((Script.handle "apply(k(), z)").runFrom (.start ⟨rule⟩)).1 = .error (.substitution misfit) ∧
        ((Console.mk rule).answer draw "apply(k(), z)").2.stdout = "" ∧
        ((Console.mk rule).answer draw "apply(k(), z)").2.console = ⟨rule⟩ ∧
        ((Console.mk rule).answer draw "apply(k(), z)").1 = .ok ()) ∧
      initial.answers draw (["f(a)", ":r f(x) = x", "f(b)", ": rule apply(h, x) = h(x)",
          ":a list(apply(s, z), f(c))"]) =
        ((marked.zip (initial.answers draw (marked.map Prod.fst))).filter (·.1.2)).map Prod.snd := by
  intro draw marked rule misfit
  have hdraw : ∀ text, draw text = .ok () := fun _ => rfl
  obtain ⟨hrule, herror, hok, hkept⟩ := answers_by_rule_lines draw
  have hmarked : ∀ p ∈ marked, p.2 = false → ruleOf? p.1 = none := by decide +kernel
  have hmisfit : ((Script.handle "apply(k(), z)").runFrom (.start ⟨rule⟩)).1 =
      .error (.substitution misfit) := by decide +kernel
  have hlatest : ((marked.map Prod.fst).take 11).reverse.findSome? ruleOf? = some rule := by
    decide +kernel
  have hshown : ((initial.answers draw (marked.map Prod.fst))[10]?.map (·.2.stdout)) =
      some "list(s(z), f(c))\n" := by decide +kernel
  obtain ⟨a, ha, harule⟩ := hrule (marked.map Prod.fst) 10 (by decide)
  rw [ha] at hshown
  obtain ⟨hstdout, hconsole⟩ := herror ⟨rule⟩ _ _ hmisfit
  exact ⟨hdraw, hmarked, ⟨a, ha, harule.trans hlatest, Option.some.inj hshown⟩,
    ⟨hmisfit, hstdout, hconsole, by rw [hok hdraw]⟩, hkept initial marked hmarked⟩

end Console

end TermRewriting
