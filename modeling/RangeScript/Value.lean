import RangeScript.Error
import RangeScript.Number.Real
import RangeScript.Scope

/-!
# Values

Whole numbers, real numbers, sequences with a note of the shape of their elements, and lambdas with
their scopes. All but lambdas have a text (`Value.render`).
-/

namespace RangeScript

inductive Value
  | int (n : Int64)
  | real (x : Float)
  | seq (elements : List Value) (elem : Shape)
  | lambda (closure : Closure Value)

namespace Value

/-- The shape that a value shows, by what is noted with a sequence. -/
def shape : Value → Shape
  | int _ => .int
  | real _ => .real
  | seq _ elem => .seq elem
  | lambda c => .lambda c.arity

def toInt? : Value → Option Int64
  | int n => some n
  | _ => none

/-- The real number that a number is: whole numbers are rounded to the nearest one. -/
def toReal? : Value → Option Float
  | int n => some n.toFloat
  | real x => some x
  | _ => none

def toSeq? : Value → Option (List Value)
  | seq elements _ => some elements
  | _ => none

def toClosure? : Value → Option (Closure Value)
  | lambda c => some c
  | _ => none

mutual

/-- The text of a value put after the text `before`. -/
def renderAfter (before : String) : Value → Except RunError String
  | int n => .ok (before ++ Whole.text n)
  | real x => .ok (before ++ Real.text x)
  | seq elements _ => renderAllAfter (before ++ "[") "" elements
  | lambda _ => .error .lambdaOutput

/-- The texts of the elements of a sequence and its closing bracket put after `before`, with
`separator` in front of the first. -/
def renderAllAfter (before separator : String) : List Value → Except RunError String
  | [] => .ok (before ++ "]")
  | v :: vs =>
    match renderAfter (before ++ separator) v with
    | .ok text => renderAllAfter text ", " vs
    | .error e => .error e

end

/-- The text of a value; lambdas have none. -/
def render (v : Value) : Except RunError String := v.renderAfter ""

mutual

/-- Equality of values. The shapes noted with sequences do not count, and a real number that is not
a number differs from itself. A lambda is equal only to its copies: whether lambdas in
corresponding places are copies of one is told by `copies`. -/
def same (copies : Bool) : Value → Value → Bool
  | int a, int b => a == b
  | real a, real b => a == b
  | seq as _, seq bs _ => sameAll copies as bs
  | lambda _, lambda _ => copies
  | _, _ => false

/-- Equality of the elements of sequences. -/
def sameAll (copies : Bool) : List Value → List Value → Bool
  | [], [] => true
  | a :: as, b :: bs => a.same copies b && sameAll copies as bs
  | _, _ => false

end

end Value

end RangeScript
