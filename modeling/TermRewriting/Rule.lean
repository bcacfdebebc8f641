import TermRewriting.Term

/-!
# Rewriting rules

A rule `head = body` says that whatever has the shape of the head may be replaced by the body. The
symbols of the head are the rule's variables.

Results:
* `Rule.flip_flip`: exchanging the two sides twice gives the rule back.
-/
namespace TermRewriting

/-- A rule `head = body`. -/
structure Rule where
  head : Term
  body : Term
  deriving DecidableEq, Inhabited, Repr

namespace Rule

/-- The printed form, `head = body`. -/
def text (r : Rule) : String := r.head.text ++ " = " ++ r.body.text

instance : ToString Rule := ⟨text⟩

def flip (r : Rule) : Rule := ⟨r.body, r.head⟩

@[simp] theorem flip_flip (r : Rule) : r.flip.flip = r := rfl

end Rule

end TermRewriting
