/-!
# Shapes of types

The shape of a type is what values show of it and what messages name: numbers, sequences, and
lambdas by the number of their parameters. Two types are taken for equal if their shapes are.
-/

namespace RangeScript

inductive Shape
  /-- nothing is known, as of the elements of an empty sequence -/
  | nothing
  | int
  | real
  | seq (elem : Shape)
  | lambda (arity : Nat)
deriving DecidableEq, Repr

namespace Shape

def isNumeric : Shape → Bool
  | int | real => true
  | _ => false

/-- Whether values of the shape have a text: all but lambdas and sequences of them. -/
def isPrintable : Shape → Bool
  | lambda _ => false
  | seq elem => elem.isPrintable
  | _ => true

/-- The shape in messages. -/
def text : Shape → String
  | nothing => "Nothing"
  | int => "Int"
  | real => "Real"
  | seq elem => "Seq<" ++ elem.text ++ ">"
  | lambda _ => "Lambda"

/-- The shape with the number of parameters of each lambda. -/
def detail : Shape → String
  | nothing => "Nothing"
  | int => "Int"
  | real => "Real"
  | seq elem => "Seq(" ++ elem.detail ++ ")"
  | lambda arity => "Lambda(LambdaType/" ++ toString arity ++ ")"

end Shape

end RangeScript
