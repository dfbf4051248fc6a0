import RangeScript.Scope
import RangeScript.Ty.Shape

/-!
# Types

The type of a lambda is the lambda itself with the types in its scope: its body is typed anew for
each application. Where no body is at hand, the number of parameters is all that is known
(`callable`).
-/

namespace RangeScript

inductive Ty
  | nothing
  | int
  | real
  | seq (elem : Ty)
  /-- a lambda of which only the number of parameters is known -/
  | callable (arity : Nat)
  | lambda (closure : Closure Ty)

namespace Ty

def shape : Ty → Shape
  | nothing => .nothing
  | int => .int
  | real => .real
  | seq elem => .seq elem.shape
  | callable arity => .lambda arity
  | lambda c => .lambda c.arity

/-- The type of which nothing is known but its shape. -/
def ofShape : Shape → Ty
  | .nothing => nothing
  | .int => int
  | .real => real
  | .seq elem => seq (ofShape elem)
  | .lambda arity => callable arity

@[simp] theorem shape_ofShape (s : Shape) : (ofShape s).shape = s := by
  induction s with
  | seq elem ih => simp [ofShape, shape, ih]
  | _ => rfl

end Ty

end RangeScript
