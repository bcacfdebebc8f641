import Mathlib.Data.List.Dedup
import TermRewriting.Bindings.Versions
import TermRewriting.Proofs.Listing

/-!
# Where a version comes from

The versions of a binding set form a tree: each is made from an earlier one, whichever it is, by one
more binding. What a version answers depends on the bindings on its way back to version 0 and on
nothing else, neither on what was made from it nor on the other branches.

Every version that was made keeps its set through all that is made after it (`Versions.Keeps`). So
in the end each version is still the one it was made from with its binding (`Versions.at?_of_make`),
and what holds of a version follows along its way back, by induction on it.

Results:
* `Versions.keeps_of_bind`, `Versions.keeps_of_make`: what is there is kept.
* `Versions.exists_make_iff`: the histories that can be made.
* `Lineage.answers`: a version answers with the latest binding of a name on its way back.
* `Bindings.size_eq_of_lookup`: the size of a set that answers like a list of bindings.
* `versions_by_lineage`: the versions of a history.
-/
namespace TermRewriting

namespace Versions

/-- How a version is made: from which other one, and with what binding. -/
structure Making where
  base : Nat
  name : String
  value : Term
  deriving DecidableEq, Repr

/-- Makes one version after the other; `none` if the base of one is not there. -/
def make (vs : Versions) : List Making → Option Versions
  | [] => some vs
  | m :: ms =>
    match vs.bind m.base m.name m.value with
    | none => none
    | some ws => ws.make ms

variable {vs us ws : Versions} {base : Nat} {name : String} {value : Term} {ms : List Making}

theorem make_cons_eq_some {m : Making} : vs.make (m :: ms) = some ws ↔
    ∃ us, vs.bind m.base m.name m.value = some us ∧ us.make ms = some ws := by
  rw [make]
  cases vs.bind m.base m.name m.value <;> simp

/-! ## One more version -/

theorem exists_at?_iff {v : Nat} : (∃ b, vs.at? v = some b) ↔ v < vs.count := by
  simp [at?, count, Array.getElem?_eq_some_iff]

theorem exists_bind_iff : (∃ ws, vs.bind base name value = some ws) ↔ base < vs.count := by
  rw [← exists_at?_iff, bind]
  cases vs.at? base <;> simp

theorem count_bind (h : vs.bind base name value = some ws) : ws.count = vs.count + 1 := by
  obtain ⟨b, -, rfl⟩ := Option.map_eq_some_iff.mp h
  exact Array.size_push _

/-- Every version of `vs` is in `ws`, with the same number and the same set. -/
structure Keeps (vs ws : Versions) : Prop where
  count_le : vs.count ≤ ws.count
  at?_eq : ∀ u, u < vs.count → ws.at? u = vs.at? u

theorem Keeps.refl (vs : Versions) : vs.Keeps vs := ⟨Nat.le_refl _, fun _ _ => rfl⟩

theorem Keeps.trans (h : vs.Keeps us) (h' : us.Keeps ws) : vs.Keeps ws where
  count_le := Nat.le_trans h.count_le h'.count_le
  at?_eq u hu := (h'.at?_eq u (Nat.lt_of_lt_of_le hu h.count_le)).trans (h.at?_eq u hu)

theorem keeps_of_bind (h : vs.bind base name value = some ws) : vs.Keeps ws where
  count_le := by
    rw [count_bind h]
    exact Nat.le_succ _
  at?_eq _ := at?_bind_old h

/-! ## A history -/

theorem keeps_of_make : ∀ {ms : List Making} {vs : Versions}, vs.make ms = some ws → vs.Keeps ws
  | [], vs, h => by
    cases h
    exact .refl _
  | m :: ms, vs, h => by
    obtain ⟨us, hbind, hmake⟩ := make_cons_eq_some.mp h
    exact (keeps_of_bind hbind).trans (keeps_of_make hmake)

theorem count_of_make : ∀ {ms : List Making} {vs : Versions}, vs.make ms = some ws →
    ws.count = vs.count + ms.length
  | [], vs, h => by
    cases h
    rfl
  | m :: ms, vs, h => by
    obtain ⟨us, hbind, hmake⟩ := make_cons_eq_some.mp h
    rw [count_of_make hmake, count_bind hbind, List.length_cons]
    omega

/-- In the end every version is the one it was made from with its binding. -/
theorem at?_of_make {m : Making} : ∀ {ms : List Making} {vs : Versions} {i : Nat},
    vs.make ms = some ws → ms[i]? = some m →
    ws.at? (vs.count + i) = (ws.at? m.base).map fun b => b.bind m.name m.value
  | [], _, _, _, hi => by cases hi
  | m' :: ms, vs, 0, h, hi => by
    cases hi
    obtain ⟨us, hbind, hmake⟩ := make_cons_eq_some.mp h
    have hkeeps := keeps_of_make hmake
    have hcount := count_bind hbind
    have hbase : m.base < vs.count := exists_bind_iff.mp ⟨us, hbind⟩
    rw [Nat.add_zero, hkeeps.at?_eq _ (by omega), hkeeps.at?_eq _ (by omega), at?_bind_new hbind,
      at?_bind_old hbind hbase]
  | m' :: ms, vs, i + 1, h, hi => by
    obtain ⟨us, hbind, hmake⟩ := make_cons_eq_some.mp h
    have hrest := at?_of_make hmake hi
    rwa [count_bind hbind, Nat.add_assoc, Nat.add_comm 1] at hrest

/-- A history can be made if every version is made from an earlier one. -/
theorem exists_make_iff : ∀ {ms : List Making} {vs : Versions},
    (∃ ws, vs.make ms = some ws) ↔ ∀ i m, ms[i]? = some m → m.base < vs.count + i
  | [], vs => by simp [make]
  | m :: ms, vs => by
    constructor
    · rintro ⟨ws, h⟩ i m' hi
      obtain ⟨us, hbind, hmake⟩ := make_cons_eq_some.mp h
      cases i with
      | zero =>
        cases hi
        exact exists_bind_iff.mp ⟨us, hbind⟩
      | succ i =>
        have hlt := exists_make_iff.mp ⟨ws, hmake⟩ i m' hi
        rw [count_bind hbind] at hlt
        omega
    · intro h
      obtain ⟨us, hbind⟩ : ∃ us, vs.bind m.base m.name m.value = some us :=
        exists_bind_iff.mpr (h 0 m rfl)
      obtain ⟨ws, hmake⟩ : ∃ ws, us.make ms = some ws := by
        refine exists_make_iff.mpr fun i m' hi => ?_
        have hlt := h (i + 1) m' hi
        rw [count_bind hbind]
        omega
      exact ⟨ws, make_cons_eq_some.mpr ⟨us, hbind, hmake⟩⟩

end Versions

open Versions

/-! ## The way back -/

/-- The bindings on the way from a version back to version 0, so that the latest is the first. The
version `v + 1` is made by the member `v` of the history. -/
inductive Lineage (ms : List Making) : Nat → List Binding → Prop
  | root : Lineage ms 0 []
  | made {v : Nat} {m : Making} {path : List Binding} (making : ms[v]? = some m)
      (base : Lineage ms m.base path) : Lineage ms (v + 1) ((m.name, m.value) :: path)

/-- In the history every version is made from an earlier one. -/
def Rooted (ms : List Making) : Prop := ∀ (v : Nat) (m : Making), ms[v]? = some m → m.base ≤ v

instance (ms : List Making) : Decidable (Rooted ms) :=
  decidable_of_iff (∀ i : Fin ms.length, ms[i].base ≤ i.val) <| by
    constructor
    · intro h v m hm
      obtain ⟨hv, rfl⟩ := List.getElem?_eq_some_iff.mp hm
      exact h ⟨v, hv⟩
    · intro h i
      exact h i ms[i] (List.getElem?_eq_getElem i.isLt)

section
variable {ms : List Making} {vs : Versions} {v : Nat} {path : List Binding}

theorem Lineage.unique (h : Lineage ms v path) : ∀ {path'}, Lineage ms v path' → path' = path := by
  induction h with
  | root =>
    intro path' h'
    cases h'
    rfl
  | made making _ ih =>
    intro path' h'
    cases h' with
    | made making' base' =>
      cases making.symm.trans making'
      rw [ih base']

theorem Rooted.exists_lineage (h : Rooted ms) (hv : v ≤ ms.length) :
    ∃ path, Lineage ms v path := by
  induction v using Nat.strongRecOn with
  | ind v ih =>
    cases v with
    | zero => exact ⟨[], .root⟩
    | succ v =>
      have hmaking : ms[v]? = some ms[v] := List.getElem?_eq_getElem hv
      have hbase := h v _ hmaking
      obtain ⟨path, hpath⟩ := ih ms[v].base (by omega) (by omega)
      exact ⟨_, .made hmaking hpath⟩

/-- A version answers what the latest binding of the name on its way back says. -/
theorem Lineage.answers (hvs : Versions.initial.make ms = some vs) (h : Lineage ms v path) :
    ∃ b, vs.at? v = some b ∧ ∀ n, b.get? n = path.lookup n := by
  induction h with
  | root =>
    refine ⟨.empty, ?_, fun n => rfl⟩
    rw [(keeps_of_make hvs).at?_eq 0 Nat.one_pos, at?_zero]
  | @made v m path making _ ih =>
    obtain ⟨b, hb, hanswers⟩ := ih
    refine ⟨b.bind m.name m.value, ?_, fun n => ?_⟩
    · have hmade := at?_of_make hvs making
      rw [hb, Option.map_some] at hmade
      rw [← hmade, Nat.add_comm]
      rfl
    · rw [Bindings.get?_bind, hanswers, List.lookup_cons]
      by_cases hn : m.name = n
      · simp [hn]
      · rw [if_neg hn, beq_false_of_ne (Ne.symm hn)]

end

/-- A set has as many names as there are different ones in the bindings that it answers from. -/
theorem Bindings.size_eq_of_lookup {b : Bindings} {path : List Binding}
    (h : ∀ n, b.get? n = path.lookup n) : b.size = (path.map Prod.fst).dedup.length := by
  have hnames : ∀ n, n ∈ b.entries.map Prod.fst ↔ n ∈ (path.map Prod.fst).dedup := by
    intro n
    have hpath : (path.lookup n).isSome ↔ n ∈ path.map Prod.fst := by
      rw [List.lookup_isSome_iff, List.mem_map]
      simp only [beq_iff_eq, eq_comm (a := n)]
    rw [List.mem_dedup, ← hpath, ← h, Option.isSome_iff_exists, List.mem_map]
    constructor
    · rintro ⟨⟨n, u⟩, hmem, rfl⟩
      exact ⟨u, get?_eq_some_iff.mpr hmem⟩
    · rintro ⟨u, hu⟩
      exact ⟨(n, u), get?_eq_some_iff.mp hu, rfl⟩
  have hperm := (List.perm_ext_iff_of_nodup b.enumerates_entries.distinct
    (List.nodup_dedup (path.map Prod.fst))).mpr hnames
  rw [size, ← List.length_map (f := Prod.fst), hperm.length_eq]

/-- **Versions of a binding set.** A history in which every version is made from an earlier one can
be made. A name is bound in a version to the value in its latest binding on the way back to version
0, and is free if there is none; the size is the number of different names on the way. Two versions
are equal exactly if they answer alike, and then they are printed alike, in whatever order their
entries are met. What is made later changes no version. -/
theorem versions_by_lineage {ms : List Making} (h : Rooted ms) :
    ∃ vs, Versions.initial.make ms = some vs ∧ vs.count = ms.length + 1 ∧
      (∀ v, v ≤ ms.length → ∃ b path, vs.at? v = some b ∧ Lineage ms v path ∧
        (∀ path', Lineage ms v path' → path' = path) ∧ (∀ n, b.get? n = path.lookup n) ∧
        b.size = (path.map Prod.fst).dedup.length ∧ (b.isEmpty = true ↔ b.size = 0)) ∧
      (∀ v w b c, vs.at? v = some b → vs.at? w = some c →
        (b = c ↔ ∀ n, b.get? n = c.get? n) ∧
        (b = c → ∀ es fs, b.Enumerates es → c.Enumerates fs →
          b.text = Bindings.listed (Bindings.sorted es) ∧
            Bindings.listed (Bindings.sorted es) = Bindings.listed (Bindings.sorted fs))) ∧
      (∀ base name value, base ≤ ms.length → ∃ ws, vs.bind base name value = some ws) ∧
      ∀ more ws, vs.make more = some ws → ∀ v, v ≤ ms.length → ws.at? v = vs.at? v := by
  obtain ⟨vs, hvs⟩ : ∃ vs, Versions.initial.make ms = some vs := by
    refine exists_make_iff.mpr fun i m hi => ?_
    have hbase := h i m hi
    have hone : Versions.initial.count = 1 := rfl
    omega
  have hcount : vs.count = ms.length + 1 := (count_of_make hvs).trans (Nat.add_comm 1 _)
  refine ⟨vs, hvs, hcount, ?_, ?_, ?_, ?_⟩
  · intro v hv
    obtain ⟨path, hpath⟩ := h.exists_lineage hv
    obtain ⟨b, hb, hanswers⟩ := hpath.answers hvs
    exact ⟨b, path, hb, hpath, fun _ => hpath.unique, hanswers,
      Bindings.size_eq_of_lookup hanswers, b.isEmpty_iff⟩
  · intro v w b c _ _
    refine ⟨⟨fun hbc n => by rw [hbc], Bindings.ext_get?⟩, ?_⟩
    rintro rfl es fs hes hfs
    exact ⟨hes.text_eq, hes.text_eq.symm.trans hfs.text_eq⟩
  · intro base name value hbase
    exact exists_bind_iff.mpr (by omega)
  · intro more ws hmore v hv
    exact (keeps_of_make hmore).at?_eq v (by omega)

/-- Versions 2 and 4 bind the same names in different orders, on different branches. Version 5 is
made from version 2 by binding a name again, and stays as it is when another one is made from
version 2. -/
theorem versions_by_lineage_branches :
    let a : Term := .functor "f" [.symbol "x"]
    let ms : List Making :=
      [⟨0, "x", a⟩, ⟨1, "y", .symbol "y"⟩, ⟨0, "y", .symbol "y"⟩, ⟨3, "x", a⟩,
        ⟨2, "x", .symbol "z"⟩]
    Rooted ms ∧ ∃ vs b d, Versions.initial.make ms = some vs ∧ vs.at? 2 = some b ∧
      vs.at? 4 = some b ∧ b.get? "x" = some a ∧ b.size = 2 ∧
      vs.at? 5 = some d ∧ d.get? "x" = some (.symbol "z") ∧ d.get? "z" = none ∧ d.size = 2 ∧
      ∃ ws, vs.make [⟨2, "z", a⟩] = some ws ∧ ws.at? 5 = some d := by
  intro a ms
  have h : Rooted ms := by decide
  obtain ⟨vs, hvs, -, hversion, hequal, hmade, hkept⟩ := versions_by_lineage h
  obtain ⟨b, path, hb, -, hpath, hget, hsize, -⟩ := hversion 2 (by decide)
  obtain ⟨c, path', hc, -, hpath', hget', -, -⟩ := hversion 4 (by decide)
  obtain ⟨d, path'', hd, -, hpath'', hget'', hsize'', -⟩ := hversion 5 (by decide)
  obtain rfl := hpath _ (.made rfl (.made rfl .root))
  obtain rfl := hpath' _ (.made rfl (.made rfl .root))
  obtain rfl := hpath'' _ (.made rfl (.made rfl (.made rfl .root)))
  have hbc : b = c := by
    refine (hequal 2 4 b c hb hc).1.mpr fun n => ?_
    rw [hget, hget']
    by_cases hx : n = "x"
    · subst hx
      rfl
    · simp [List.lookup_cons, beq_false_of_ne hx]
  obtain ⟨ws, hbind⟩ := hmade 2 "z" a (by decide)
  have hws : vs.make [⟨2, "z", a⟩] = some ws := make_cons_eq_some.mpr ⟨ws, hbind, rfl⟩
  have hfive : ws.at? 5 = some d := (hkept _ ws hws 5 (by decide)).trans hd
  exact ⟨h, vs, b, d, hvs, hb, hbc ▸ hc, hget "x", hsize, hd, hget'' "x", hget'' "z", hsize'', ws,
    hws, hfive⟩

end TermRewriting
