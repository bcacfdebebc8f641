import TermRewriting.Bindings

/-!
# Histories of binding sets

A history holds every version of a binding set that was ever made. Version 0 is the empty set; each
later version is an earlier one, any of them, with one more binding. Making a version leaves all the
others as they are, so a history is a tree of sets.

Results:
* `Versions.at?_zero`: version 0 is the empty set.
* `Versions.at?_bind_old`, `Versions.at?_bind_new`: making a version changes no answer of the others,
  and the new version is the chosen one with the binding.
-/
namespace TermRewriting

/-- All versions of a binding set, by number. -/
structure Versions where
  sets : Array Bindings
  deriving Repr

namespace Versions

def initial : Versions := ⟨#[.empty]⟩

def at? (vs : Versions) (v : Nat) : Option Bindings := vs.sets[v]?

/-- The number that the next version gets. -/
def count (vs : Versions) : Nat := vs.sets.size

/-- Makes the next version by binding a name in version `v`; `none` if there is no such version. -/
def bind (vs : Versions) (v : Nat) (name : String) (value : Term) : Option Versions :=
  (vs.at? v).map fun b => ⟨vs.sets.push (b.bind name value)⟩

@[simp] theorem at?_zero : initial.at? 0 = some .empty := rfl

theorem at?_bind_old {vs ws : Versions} {v u : Nat} {name : String} {value : Term}
    (h : vs.bind v name value = some ws) (hu : u < vs.count) : ws.at? u = vs.at? u := by
  obtain ⟨b, -, rfl⟩ := Option.map_eq_some_iff.mp h
  exact Array.getElem?_push_lt hu |>.trans (Array.getElem?_eq_getElem hu).symm

theorem at?_bind_new {vs ws : Versions} {v : Nat} {name : String} {value : Term}
    (h : vs.bind v name value = some ws) :
    ws.at? vs.count = (vs.at? v).map fun b => b.bind name value := by
  obtain ⟨b, hb, rfl⟩ := Option.map_eq_some_iff.mp h
  simp only [at?, count] at hb ⊢
  simp [hb]

end Versions

end TermRewriting
