import TermRewriting.Text.Cluster.Class

/-!
# Clusters

A cluster is what a reader of a text would call one character: a character together with its marks,
a flag made of two letters, a Hangul syllable made of three, pictographs or consonants that are
joined into one. Whether a cluster goes on with the next character depends on the class of the
character before it and, for flags, joined pictographs and conjunct letters, on what came before
that.

Results:
* `flatten_clusters`: the clusters put together are the text.
* `ne_nil_of_mem_clusters`: no cluster is empty.
-/
namespace TermRewriting.Text

/-- How much of a chain of joined pictographs has been read. -/
inductive Chain where
  | none
  /-- A pictograph, perhaps with marks. -/
  | pictograph
  /-- A joiner behind that. -/
  | joined
  deriving DecidableEq, Repr

/-- How much of a conjunct letter has been read. -/
inductive Conjunct where
  | none
  /-- A consonant, perhaps with marks. -/
  | consonant
  /-- A linker behind that, perhaps with marks. -/
  | linked
  deriving DecidableEq, Repr

/-- What has to be known of the text before a place. -/
structure ClusterContext where
  /-- The class of the last character. -/
  last : ClusterClass
  /-- Whether an odd number of flag letters comes before the place. -/
  halfFlag : Bool
  chain : Chain
  conjunct : Conjunct
  deriving DecidableEq, Repr

namespace ClusterContext

def start : ClusterContext := ⟨.control, false, .none, .none⟩

def chainAfter (chain : Chain) : ClusterClass → Chain
  | .pictograph => .pictograph
  | .extending => if chain = .pictograph then .pictograph else .none
  | .joiner => if chain = .pictograph then .joined else .none
  | _ => .none

/-- The mark that keeps two consonants apart. -/
def nonJoiner : Char := '\u200c'

def conjunctAfter (conjunct : Conjunct) (c : Char) : ClusterClass → Conjunct
  | .consonant => .consonant
  | .joiner => conjunct
  | .extending =>
    if inRanges Cluster.linkerRanges c.toNat then
      if conjunct = .none then .none else .linked
    else if c = nonJoiner then .none
    else conjunct
  | _ => .none

def after (ctx : ClusterContext) (c : Char) : ClusterContext :=
  let k := ClusterClass.ofChar c
  { last := k
    halfFlag := decide (k = .regional) && !ctx.halfFlag
    chain := chainAfter ctx.chain k
    conjunct := conjunctAfter ctx.conjunct c k }

/-- Whether the cluster before a place goes on with the next character. -/
def continues (ctx : ClusterContext) (c : Char) : Bool :=
  match ClusterClass.glue ctx.last (ClusterClass.ofChar c) with
  | .whole => true
  | .parted => false
  | .flag => ctx.halfFlag
  | .joined => ctx.chain = .joined
  | .conjunct => ctx.conjunct = .linked

end ClusterContext

/-- The clusters of a text that goes on behind `current`, the characters of an unfinished cluster,
the latest first. -/
def clustersFrom (ctx : ClusterContext) (current : List Char) : List Char → List (List Char)
  | [] => [current.reverse]
  | c :: cs =>
    if ctx.continues c then clustersFrom (ctx.after c) (c :: current) cs
    else current.reverse :: clustersFrom (ctx.after c) [c] cs

def clusters : List Char → List (List Char)
  | [] => []
  | c :: cs => clustersFrom (ClusterContext.start.after c) [c] cs

theorem flatten_clustersFrom (ctx : ClusterContext) (current cs : List Char) :
    (clustersFrom ctx current cs).flatten = current.reverse ++ cs := by
  induction cs generalizing ctx current with
  | nil => simp [clustersFrom]
  | cons c cs ih =>
    unfold clustersFrom
    split <;> simp [ih]

theorem flatten_clusters (cs : List Char) : (clusters cs).flatten = cs := by
  cases cs with
  | nil => rfl
  | cons c cs => exact flatten_clustersFrom _ [c] cs

theorem ne_nil_of_mem_clustersFrom {ctx : ClusterContext} {current cs k : List Char}
    (hcurrent : current ≠ []) (h : k ∈ clustersFrom ctx current cs) : k ≠ [] := by
  induction cs generalizing ctx current with
  | nil => simpa [List.mem_singleton.mp h] using hcurrent
  | cons c cs ih =>
    unfold clustersFrom at h
    split at h
    · exact ih (List.cons_ne_nil c current) h
    · rcases List.mem_cons.mp h with rfl | h
      · simpa using hcurrent
      · exact ih (List.cons_ne_nil c []) h

theorem ne_nil_of_mem_clusters {cs k : List Char} (h : k ∈ clusters cs) : k ≠ [] := by
  cases cs with
  | nil => cases h
  | cons c cs => exact ne_nil_of_mem_clustersFrom (List.cons_ne_nil c []) h

end TermRewriting.Text
