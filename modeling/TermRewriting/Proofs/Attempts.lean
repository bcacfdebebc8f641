import TermRewriting.Console.Log
import TermRewriting.Proofs.Redex

/-!
# What a pass logs

A pass tries a node if no node above it matches and no redex before it has failed. About each node
that it tries it says whether the node matched, and right after that, if it did, that the node is
about to be replaced. So the log of a pass can be told from the term alone: take the positions of
these nodes in order, and say the same about each. Nothing is said about a node below a match, about
a node of a replacement, or about a node behind the redex at which the pass failed.

Results:
* `Rule.reached_cons_iff`: the nodes reached in a functor from those reached in its arguments.
* `Rule.exists_account`, `Rule.exists_account_from`: the positions that the log of a pass goes
  through, for a term and for the arguments of a functor.
* `Rule.FirstFailure.reached_iff`: how far a pass comes that fails.
* `Rule.pass_log`: the log of a pass.
-/
namespace TermRewriting.Rule

/-! ## What is said about one node -/

/-- The events about a node that is tried. -/
def attempt (r : Rule) (s : Term) : List Event :=
  match r.head.match? s with
  | none => [.tried r.head s false]
  | some b => [.tried r.head s true, .rewriting s r b]

def attemptLines (r : Rule) (s : Term) : List LogLine :=
  let tried (matched : String) : LogLine :=
    ⟨.trace, "noq::matcher",
      "pattern match pattern=" ++ r.head.text ++ " expr=" ++ s.text ++ " matched=" ++ matched⟩
  match r.head.match? s with
  | none => [tried "false"]
  | some b =>
    [tried "true",
      ⟨.debug, "noq::rewriter",
        "rewriting " ++ s.text ++ " rule=" ++ r.text ++ " bindings=" ++ b.text⟩]

theorem logLine_attempt (r : Rule) (s : Term) :
    (r.attempt s).map Event.logLine = r.attemptLines s := by
  rw [attempt, attemptLines]
  cases r.head.match? s <;> rfl

/-- What is said about the node at a position. -/
def about {α : Type} (say : Term → List α) (t : Term) (p : Position) : List α :=
  match t.at? p with
  | none => []
  | some s => say s

theorem about_arg {α : Type} (say : Term → List α) {f : String} {args : List Term} {i : Nat}
    {a : Term} (h : args[i]? = some a) (p : Position) :
    about say (.functor f args) (i :: p) = about say a p := by
  rw [about, about, Term.at?_arg h]

theorem map_about {α β : Type} (g : α → β) (say : Term → List α) (t : Term) (p : Position) :
    (about say t p).map g = about (fun s => (say s).map g) t p := by
  rw [about, about]
  cases t.at? p <;> rfl

/-! ## The nodes that a pass comes to -/

/-- The body has a value at every redex. -/
def Succeeds (r : Rule) (t : Term) : Prop :=
  ∀ q b, r.Redex t q b → ∃ u, r.body.substitute b = .ok u

theorem succeeds_of_applyAll {r : Rule} {t w : Term} (h : r.applyAll t = .ok w) : r.Succeeds t := by
  intro q b hq
  obtain ⟨u, hu, -⟩ := (rewritten_of_applyAll t w h).value q b hq
  exact ⟨u, hu⟩

theorem not_succeeds_of_applyAll {r : Rule} {t : Term} {e : SubstitutionError}
    (h : r.applyAll t = .error e) : ¬ r.Succeeds t := by
  intro hs
  obtain ⟨p, hp⟩ := firstFailure_of_applyAll t e h
  obtain ⟨b, hb, he⟩ := hp.failure
  obtain ⟨u, hu⟩ := hs p b hb
  rw [he] at hu
  cases hu

/-- No node above the node at `p` matches, and no redex before it fails. -/
structure Reached (r : Rule) (t : Term) (p : Position) : Prop where
  exposed : r.Exposed t p
  unbroken : ∀ q b, r.Redex t q b → q < p → ∃ u, r.body.substitute b = .ok u

theorem reached_nil (r : Rule) (t : Term) : r.Reached t [] :=
  ⟨r.exposed_nil t, fun q _ _ hq => absurd hq (List.not_lt_nil q)⟩

theorem reached_of_match {r : Rule} {t : Term} {b : Bindings} (h : r.head.match? t = some b)
    {p : Position} : r.Reached t p ↔ p = [] := by
  cases p with
  | nil => simp [reached_nil]
  | cons i p => simpa using fun hp : r.Reached t (i :: p) =>
      not_exposed_cons_of_match h i p hp.exposed

theorem reached_symbol_iff (r : Rule) (x : String) {p : Position} :
    r.Reached (.symbol x) p ↔ p = [] := by
  cases p with
  | nil => simp [reached_nil]
  | cons i p => simpa using fun hp : r.Reached (.symbol x) (i :: p) =>
      not_exposed_cons_symbol r x i p hp.exposed

/-- A pass comes to a node of an argument if it does so in the argument alone, and the arguments
before that one do not stop it. -/
theorem reached_cons_iff {r : Rule} {f : String} {args : List Term}
    (h : r.head.match? (.functor f args) = none) {i : Nat} {p : Position} :
    r.Reached (.functor f args) (i :: p) ↔ ∃ a, args[i]? = some a ∧ r.Reached a p ∧
      ∀ (j : Nat) (s : Term), j < i → args[j]? = some s → r.Succeeds s := by
  constructor
  · intro hp
    obtain ⟨a, ha, hexp⟩ := (exposed_cons_iff h).mp hp.exposed
    refine ⟨a, ha, ⟨hexp, fun q b hq hlt => ?_⟩, fun j s hj hs q b hq => ?_⟩
    · exact hp.unbroken (i :: q) b ((redex_functor_iff h).mpr ⟨i, q, a, rfl, ha, hq⟩)
        (List.cons_lt_cons_iff.mpr (Or.inr ⟨rfl, hlt⟩))
    · exact hp.unbroken (j :: q) b ((redex_functor_iff h).mpr ⟨j, q, s, rfl, hs, hq⟩)
        (List.cons_lt_cons_iff.mpr (Or.inl hj))
  · intro hp
    obtain ⟨a, ha, hreach, hbefore⟩ := hp
    refine ⟨(exposed_cons_iff h).mpr ⟨a, ha, hreach.exposed⟩, fun q b hq hlt => ?_⟩
    obtain ⟨j, q, s, rfl, hs, hq⟩ := (redex_functor_iff h).mp hq
    rcases List.cons_lt_cons_iff.mp hlt with hj | ⟨rfl, hqp⟩
    · exact hbefore j s hj hs q b hq
    · cases ha.symm.trans hs
      exact hreach.unbroken q b hq hqp

/-! ## The log of a pass -/

/-- The log of a pass goes through the nodes that the pass comes to, at the positions `ps`. -/
structure Account (r : Rule) (t : Term) (ps : List Position) : Prop where
  ascending : ps.Pairwise (· < ·)
  mem_iff : ∀ p, p ∈ ps ↔ r.Reached t p
  events : (r.pass t).events = ps.flatMap (about r.attempt t)

/-- The log of a pass over the arguments from `k` on goes through the positions `ps`. -/
structure AccountFrom (r : Rule) (f : String) (args : List Term) (k : Nat) (ps : List Position) :
    Prop where
  ascending : ps.Pairwise (· < ·)
  mem_iff : ∀ p, p ∈ ps ↔ ∃ i q a, p = i :: q ∧ k ≤ i ∧ args[i]? = some a ∧ r.Reached a q ∧
    ∀ (j : Nat) (s : Term), k ≤ j → j < i → args[j]? = some s → r.Succeeds s
  events : (r.passEach (args.drop k)).events = ps.flatMap (about r.attempt (.functor f args))

/-- The positions of an argument are those below its functor with its number in front. -/
theorem Account.flatMap_arg {r : Rule} {a : Term} {ps : List Position} (h : r.Account a ps)
    {f : String} {args : List Term} {i : Nat} (ha : args[i]? = some a) :
    (ps.map (i :: ·)).flatMap (about r.attempt (.functor f args)) = (r.pass a).events := by
  rw [h.events, List.flatMap_map]
  simp only [about_arg _ ha]

theorem accountFrom_nil {r : Rule} {f : String} {args : List Term} {k : Nat}
    (hk : args.length ≤ k) : r.AccountFrom f args k [] := by
  refine ⟨List.Pairwise.nil, fun p => ⟨fun hp => absurd hp List.not_mem_nil, fun hp => ?_⟩, ?_⟩
  · obtain ⟨i, q, a, -, hki, ha, -⟩ := hp
    obtain ⟨hi, -⟩ := List.getElem?_eq_some_iff.mp ha
    omega
  · rw [List.drop_eq_nil_of_le hk, events_passEach_nil, List.flatMap_nil]

section
variable {r : Rule} {f : String} {args : List Term} {k : Nat} {a : Term} {ps : List Position}

theorem drop_eq_cons (ha : args[k]? = some a) : args.drop k = a :: args.drop (k + 1) := by
  obtain ⟨hk, rfl⟩ := List.getElem?_eq_some_iff.mp ha
  exact List.drop_eq_getElem_cons hk

theorem Account.ascending_arg (h : r.Account a ps) (k : Nat) :
    (ps.map (k :: ·)).Pairwise (· < ·) := by
  refine List.pairwise_map.mpr (h.ascending.imp fun hlt => ?_)
  exact List.cons_lt_cons_iff.mpr (Or.inr ⟨rfl, hlt⟩)

/-- An argument at which the pass fails is the last one. -/
theorem Account.last (hps : r.Account a ps) (ha : args[k]? = some a) {e : SubstitutionError}
    (he : r.applyAll a = .error e) : r.AccountFrom f args k (ps.map (k :: ·)) := by
  refine ⟨hps.ascending_arg k, fun p => ⟨fun hp => ?_, fun hp => ?_⟩, ?_⟩
  · obtain ⟨q, hq, rfl⟩ := List.mem_map.mp hp
    exact ⟨k, q, a, rfl, Nat.le_refl k, ha, (hps.mem_iff q).mp hq, fun j s hkj hjk => by omega⟩
  · obtain ⟨i, q, s, rfl, hki, hs, hq, hbefore⟩ := hp
    rcases Nat.eq_or_lt_of_le hki with rfl | hlt
    · cases ha.symm.trans hs
      exact List.mem_map_of_mem ((hps.mem_iff q).mpr hq)
    · exact absurd (hbefore k a (Nat.le_refl k) hlt ha) (not_succeeds_of_applyAll he)
  · rw [drop_eq_cons ha, events_passEach_of_error he, hps.flatMap_arg ha]

/-- Behind an argument that the pass gets through come the others. -/
theorem Account.append (hps : r.Account a ps) (ha : args[k]? = some a) {u : Term}
    (hu : r.applyAll a = .ok u) {qs : List Position} (hqs : r.AccountFrom f args (k + 1) qs) :
    r.AccountFrom f args k (ps.map (k :: ·) ++ qs) := by
  refine ⟨?_, fun p => ⟨fun hp => ?_, fun hp => ?_⟩, ?_⟩
  · refine List.pairwise_append.mpr ⟨hps.ascending_arg k, hqs.ascending, fun p hp p' hp' => ?_⟩
    obtain ⟨q, -, rfl⟩ := List.mem_map.mp hp
    obtain ⟨i, q', s, rfl, hki, -⟩ := (hqs.mem_iff p').mp hp'
    exact List.cons_lt_cons_iff.mpr (Or.inl (by omega))
  · rcases List.mem_append.mp hp with hp | hp
    · obtain ⟨q, hq, rfl⟩ := List.mem_map.mp hp
      exact ⟨k, q, a, rfl, Nat.le_refl k, ha, (hps.mem_iff q).mp hq, fun j s hkj hjk => by omega⟩
    · obtain ⟨i, q, s, rfl, hki, hs, hq, hbefore⟩ := (hqs.mem_iff p).mp hp
      refine ⟨i, q, s, rfl, by omega, hs, hq, fun j s' hkj hji hs' => ?_⟩
      rcases Nat.eq_or_lt_of_le hkj with rfl | hlt
      · cases ha.symm.trans hs'
        exact succeeds_of_applyAll hu
      · exact hbefore j s' hlt hji hs'
  · obtain ⟨i, q, s, rfl, hki, hs, hq, hbefore⟩ := hp
    rcases Nat.eq_or_lt_of_le hki with rfl | hlt
    · cases ha.symm.trans hs
      exact List.mem_append_left _ (List.mem_map_of_mem ((hps.mem_iff q).mpr hq))
    · exact List.mem_append_right _ ((hqs.mem_iff _).mpr
        ⟨i, q, s, rfl, hlt, hs, hq, fun j s' hkj => hbefore j s' (by omega)⟩)
  · rw [drop_eq_cons ha, events_passEach_of_ok hu, List.flatMap_append, hps.flatMap_arg ha,
      hqs.events]

end

theorem exists_account_from {r : Rule} (f : String) {args : List Term}
    (h : ∀ a ∈ args, ∃ ps, r.Account a ps) (n : Nat) :
    ∀ k, args.length - k = n → ∃ ps, r.AccountFrom f args k ps := by
  induction n with
  | zero =>
    intro k hk
    exact ⟨[], accountFrom_nil (by omega)⟩
  | succ n ih =>
    intro k hk
    have ha : args[k]? = some args[k] := List.getElem?_eq_getElem (by omega)
    obtain ⟨ps, hps⟩ := h args[k] (List.getElem_mem _)
    cases hr : r.applyAll args[k] with
    | error e => exact ⟨_, hps.last ha hr⟩
    | ok u =>
      obtain ⟨qs, hqs⟩ := ih (k + 1) (by omega)
      exact ⟨_, hps.append ha hr hqs⟩

theorem exists_account (r : Rule) (t : Term) : ∃ ps, r.Account t ps := by
  induction t using r.pass_induction with
  | matched t b hm =>
    refine ⟨[[]], List.pairwise_singleton _ _, fun p => ?_, ?_⟩
    · rw [List.mem_singleton, reached_of_match hm]
    · simp [events_of_match hm, about, attempt, hm]
  | symbol x hm =>
    refine ⟨[[]], List.pairwise_singleton _ _, fun p => ?_, ?_⟩
    · rw [List.mem_singleton, reached_symbol_iff]
    · simp [events_symbol hm, about, attempt, hm]
  | functor f args hm ih =>
    obtain ⟨ps, hps⟩ := exists_account_from f ih args.length 0 (Nat.sub_zero _)
    refine ⟨[] :: ps, List.pairwise_cons.mpr ⟨fun p hp => ?_, hps.ascending⟩, fun p => ?_, ?_⟩
    · obtain ⟨i, q, a, rfl, -⟩ := (hps.mem_iff p).mp hp
      exact List.nil_lt_cons i q
    · cases p with
      | nil => simp [reached_nil]
      | cons i q =>
        have hne : i :: q ≠ [] := List.cons_ne_nil i q
        rw [List.mem_cons, or_iff_right hne, hps.mem_iff, reached_cons_iff hm]
        constructor
        · intro hp
          obtain ⟨i', q', a, heq, -, ha, hq, hbefore⟩ := hp
          cases heq
          exact ⟨a, ha, hq, fun j s => hbefore j s (Nat.zero_le j)⟩
        · intro hp
          obtain ⟨a, ha, hq, hbefore⟩ := hp
          exact ⟨i, q, a, rfl, Nat.zero_le i, ha, hq, fun j s _ => hbefore j s⟩
    · rw [events_functor hm, List.flatMap_cons, ← hps.events]
      simp [about, attempt, hm]

/-! ## Where the log ends -/

theorem reached_iff_of_succeeds {r : Rule} {t : Term} (h : r.Succeeds t) {p : Position} :
    r.Reached t p ↔ r.Exposed t p :=
  ⟨Reached.exposed, fun hp => ⟨hp, fun q b hq _ => h q b hq⟩⟩

/-- A pass comes no further than to its first failure. -/
theorem FirstFailure.reached_iff {r : Rule} {t : Term} {q : Position} {e : SubstitutionError}
    (h : r.FirstFailure t q e) {p : Position} : r.Reached t p ↔ r.Exposed t p ∧ ¬ q < p := by
  constructor
  · intro hp
    refine ⟨hp.exposed, fun hlt => ?_⟩
    obtain ⟨b, hb, he⟩ := h.failure
    obtain ⟨u, hu⟩ := hp.unbroken q b hb hlt
    rw [he] at hu
    cases hu
  · intro hp
    refine ⟨hp.1, fun q' b hq' hlt => ?_⟩
    by_cases hbefore : q' < q
    · exact h.first q' b hq' hbefore
    · exact absurd (List.lt_of_le_of_lt (List.not_lt.mp hbefore) hlt) hp.2

/-- The last thing said is that the node of the failure is about to be replaced. -/
theorem FirstFailure.getLast?_events {r : Rule} {t : Term} {q : Position} {e : SubstitutionError}
    (h : r.FirstFailure t q e) : ∃ s b, t.at? q = some s ∧ r.head.match? s = some b ∧
      (r.pass t).events.getLast? = some (.rewriting s r b) := by
  obtain ⟨ps, hps⟩ := r.exists_account t
  obtain ⟨b, hb, -⟩ := h.failure
  obtain ⟨hexp, s, hs, hm⟩ := redex_iff.mp hb
  have hq : q ∈ ps := (hps.mem_iff q).mpr (h.reached_iff.mpr ⟨hexp, List.lt_irrefl q⟩)
  obtain ⟨before, after, rfl⟩ := List.append_of_mem hq
  have hafter : after = [] := by
    refine List.eq_nil_iff_forall_not_mem.mpr fun p hp => ?_
    have hlt := List.rel_of_pairwise_cons (List.pairwise_append.mp hps.ascending).2.1 hp
    exact (h.reached_iff.mp ((hps.mem_iff p).mp (by simp [hp]))).2 hlt
  refine ⟨s, b, hs, hm, ?_⟩
  rw [hps.events, hafter, List.flatMap_append]
  simp [about, hs, attempt, hm]

/-- **The log of a pass.** The log goes through nodes that no match covers, in the order in which a
term is read and each once. About each it says what the pattern, the node and the answer were and,
right after that, if the node matched, that it is about to be replaced and with which bindings. If
the body has a value at every redex, no such node is left out. If it has none at some redex, the log
ends with the replacement of the first of them. -/
theorem pass_log (r : Rule) (t : Term) :
    ∃ ps : List Position, ps.Pairwise (· < ·) ∧
      (r.pass t).events = ps.flatMap (about r.attempt t) ∧
      (r.pass t).events.map Event.logLine = ps.flatMap (about r.attemptLines t) ∧
      ((∀ q b, r.Redex t q b → ∃ u, r.body.substitute b = .ok u) →
        ∀ p, p ∈ ps ↔ r.Exposed t p) ∧
      ((∃ q b e, r.Redex t q b ∧ r.body.substitute b = .error e) →
        ∃ q e, r.FirstFailure t q e ∧ (∀ p, p ∈ ps ↔ r.Exposed t p ∧ ¬ q < p) ∧
          ∃ s b, t.at? q = some s ∧ r.head.match? s = some b ∧
            (r.pass t).events.getLast? = some (.rewriting s r b)) := by
  obtain ⟨ps, hps⟩ := r.exists_account t
  refine ⟨ps, hps.ascending, hps.events, ?_, fun h p => ?_, fun h => ?_⟩
  · rw [hps.events, List.map_flatMap]
    simp only [map_about, logLine_attempt]
  · rw [hps.mem_iff, reached_iff_of_succeeds h]
  · obtain ⟨q, b, e, hq, he⟩ := h
    obtain ⟨q', e', hfail, -⟩ := exists_firstFailure hq he
    refine ⟨q', e', hfail, fun p => ?_, hfail.getLast?_events⟩
    rw [hps.mem_iff, hfail.reached_iff]

/-- The second call of `apply` in `t` has no symbol for its functor. In `u` a call stands inside of
another one. -/
theorem pass_log_calls :
    let r : Rule := ⟨.functor "apply" [.symbol "f", .symbol "x"], .functor "f" [.symbol "x"]⟩
    let call : Term → Term → Term := fun f x => .functor "apply" [f, x]
    let t : Term := .functor "list"
      [call (.symbol "s") (.symbol "z"), call (.functor "k" []) (.symbol "z"), .symbol "a"]
    let u : Term := .functor "list" [call (.symbol "s") (call (.symbol "s") (.symbol "z"))]
    ((∃ q b e, r.Redex t q b ∧ r.body.substitute b = .error e) ∧
      ∃ ps : List Position, ps.Pairwise (· < ·) ∧
        (r.pass t).events = ps.flatMap (about r.attempt t) ∧
        ∃ q e, r.FirstFailure t q e ∧ (∀ p, p ∈ ps ↔ r.Exposed t p ∧ ¬ q < p) ∧
          ∃ s b, t.at? q = some s ∧ r.head.match? s = some b ∧
            (r.pass t).events.getLast? = some (.rewriting s r b)) ∧
      (∀ q b, r.Redex u q b → ∃ v, r.body.substitute b = .ok v) ∧
      ∃ ps : List Position, ps.Pairwise (· < ·) ∧
        (r.pass u).events = ps.flatMap (about r.attempt u) ∧ ∀ p, p ∈ ps ↔ r.Exposed u p := by
  intro r call t u
  have hfail : ∃ q b e, r.Redex t q b ∧ r.body.substitute b = .error e :=
    ⟨[1], _, _, (redex_functor_iff rfl).mpr ⟨1, [], _, rfl, rfl, redex_nil_iff.mpr rfl⟩, rfl⟩
  have hok : r.Succeeds u := succeeds_of_applyAll rfl
  obtain ⟨ps, hps, hevents, -, -, hcut⟩ := pass_log r t
  obtain ⟨qs, hqs, hevents', -, hall, -⟩ := pass_log r u
  exact ⟨⟨hfail, ps, hps, hevents, hcut hfail⟩, hok, qs, hqs, hevents', hall hok⟩

example :
    let r : Rule := ⟨.functor "f" [.symbol "x"], .functor "f" [.functor "f" [.symbol "x"]]⟩
    let node : Term := .functor "f" [.functor "f" [.symbol "a"]]
    let t : Term := .functor "g" [node, .symbol "b"]
    (r.pass t).events =
      [.tried r.head t false, .tried r.head node true,
        .rewriting node r (Bindings.empty.bind "x" (.functor "f" [.symbol "a"])),
        .tried r.head (.symbol "b") false] := rfl

end TermRewriting.Rule
