import RangeScript.Value

/-!
# Operators

Each operator has a rule for the shapes of its operands and a rule for their values. Two whole
numbers make a whole number, two numbers of which one is real make a real one; a power is always
real. Arithmetic on whole numbers is exact or fails.
-/

namespace RangeScript

inductive Operator
  | add | sub | mul | div | pow
deriving DecidableEq, Repr

namespace Operator

/-- The symbol by which an operator calls itself in messages. -/
def symbol : Operator → String
  | add => "+"
  | sub => "-"
  | mul => "*"
  | div => "/"
  | pow => "^"

def all : List Operator := [add, sub, mul, div, pow]

/-- The shape that two numbers have in common. -/
def promote (left right : Shape) : Except TypeError Shape :=
  match left, right with
  | .int, .int => .ok .int
  | .int, .real | .real, .int | .real, .real => .ok .real
  | _, _ => .error (.operandTypes left right)

/-- The shape of the result. -/
def resultShape (op : Operator) (left right : Shape) : Except TypeError Shape :=
  match op with
  | pow => (promote left right).map fun _ => .real
  | _ => promote left right

/-- The operator on whole numbers. -/
def onInts (op : Operator) (a b : Int64) : Except RunError Value :=
  let exact (result : Option Int64) : Except RunError Value :=
    match result with
    | some n => .ok (.int n)
    | none => .error (.overflow op.symbol)
  match op with
  | add => exact (Whole.add? a b)
  | sub => exact (Whole.sub? a b)
  | mul => exact (Whole.mul? a b)
  | div => if b = 0 then .error .divisionByZero else exact (Whole.div? a b)
  | pow => .ok (.real (a.toFloat ^ b.toFloat))

/-- The operator on real numbers. -/
def onReals : Operator → Float → Float → Float
  | add, x, y => x + y
  | sub, x, y => x - y
  | mul, x, y => x * y
  | div, x, y => x / y
  | pow, x, y => x ^ y

/-- The value of the result. -/
def apply (op : Operator) (left right : Value) : Except RunError Value :=
  match left, right with
  | .int a, .int b => op.onInts a b
  | .int a, .real y => .ok (.real (op.onReals a.toFloat y))
  | .real x, .int b => .ok (.real (op.onReals x b.toFloat))
  | .real x, .real y => .ok (.real (op.onReals x y))
  | _, _ => .error (.typing (.operandTypes left.shape right.shape))

end Operator

end RangeScript
