import RangeScript.Outcome
import RangeScript.Ty.Basic
import RangeScript.Value

/-!
# Functions

`map(s, x -> e)` applies a lambda to each element of a sequence, and
`reduce(s, initial, a x -> e)` folds a sequence from the left. Each function has a rule for the
types of its arguments and a rule for their values. Both look at the number of arguments first and
then at the arguments from left to right, before any lambda is applied. How the body of a lambda is
typed or evaluated is a parameter of the rules.
-/

namespace RangeScript

inductive Builtin
  | map | reduce
deriving DecidableEq, Repr

namespace Builtin

def name : Builtin → String
  | map => "map"
  | reduce => "reduce"

def all : List Builtin := [map, reduce]

/-- The number of arguments. -/
def argCount : Builtin → Nat
  | map => 2
  | reduce => 3

/-- The error about a wrong number of arguments. -/
def wrongCount (f : Builtin) (found : Nat) : TypeError := .argCount f.name f.argCount found

/-! ## Types -/

/-- The type of the elements of the sequence that is argument `index`. -/
def seqTy (index : Nat) : Ty → Except TypeError Ty
  | .seq elem => .ok elem
  | found => .error (.expectedSequence index found.shape)

/-- Argument `index` has to be a lambda with `arity` parameters. -/
def lambdaTy (index arity : Nat) (found : Ty) : Except TypeError Unit :=
  match found.shape with
  | .lambda n => if n = arity then .ok () else .error (.lambdaArity index arity n)
  | other => .error (.expectedLambda index other)

/-- The initial value of a reduction is no lambda. -/
def initialTy (index : Nat) (found : Ty) : Except TypeError Unit :=
  match found.shape with
  | .lambda _ => .error (.lambdaInitial index)
  | _ => .ok ()

/-- The type of a lambda's result for arguments of the given types, where `infer` types a body in
a scope. Without a body nothing is known of the result. -/
def applyTy (infer : Scope Ty → Expr → Outcome TypeError Ty) (f : Ty) (args : List Ty) :
    Outcome TypeError Ty :=
  match f with
  | .lambda c => infer (c.enter args) c.body
  | _ => .done .nothing

/-- The type of a function's result. -/
def resultTy (infer : Scope Ty → Expr → Outcome TypeError Ty) :
    Builtin → List Ty → Outcome TypeError Ty
  | map, [s, f] => do
    let elem ← .ofExcept (seqTy 1 s)
    .ofExcept (lambdaTy 2 1 f)
    let result ← applyTy infer f [elem]
    return .seq result
  | reduce, [s, initial, f] => do
    let elem ← .ofExcept (seqTy 1 s)
    .ofExcept (initialTy 2 initial)
    .ofExcept (lambdaTy 3 2 f)
    let result ← applyTy infer f [initial, elem]
    if result.shape = initial.shape then return initial
    else .failed (.reduceResult initial.shape result.shape)
  | f, args => .failed (f.wrongCount args.length)

/-! ## Values -/

/-- The elements of the sequence that is argument `index`. -/
def seqArg (index : Nat) (v : Value) : Except RunError (List Value) :=
  match v with
  | .seq elements _ => .ok elements
  | _ => .error (.typing (.expectedSequence index v.shape))

/-- The lambda with `arity` parameters that is argument `index`. -/
def lambdaArg (index arity : Nat) (v : Value) : Except RunError (Closure Value) :=
  match v with
  | .lambda c =>
    if c.arity = arity then .ok c else .error (.typing (.lambdaArity index arity c.arity))
  | _ => .error (.typing (.expectedLambda index v.shape))

/-- The initial value of a reduction, which is no lambda. -/
def initialArg (index : Nat) (v : Value) : Except RunError Unit :=
  match v with
  | .lambda _ => .error (.typing (.lambdaInitial index))
  | _ => .ok ()

/-- The value of a closure for the given arguments, where `eval` evaluates a body in a scope. -/
def applyClosure (eval : Scope Value → Expr → Outcome RunError Value) (f : Closure Value)
    (args : List Value) : Outcome RunError Value :=
  eval (f.enter args) f.body

/-- A sequence of computed elements; the first one tells the shape of all. -/
def seqOf (elements : List Value) : Value :=
  .seq elements ((elements.head?.map Value.shape).getD .nothing)

/-- The value of a function's result. -/
def call (eval : Scope Value → Expr → Outcome RunError Value) :
    Builtin → List Value → Outcome RunError Value
  | map, [s, f] => do
    let elements ← .ofExcept (seqArg 1 s)
    let f ← .ofExcept (lambdaArg 2 1 f)
    let results ← elements.mapM fun v => applyClosure eval f [v]
    return seqOf results
  | reduce, [s, initial, f] => do
    let elements ← .ofExcept (seqArg 1 s)
    .ofExcept (initialArg 2 initial)
    let f ← .ofExcept (lambdaArg 3 2 f)
    elements.foldlM (fun acc v => applyClosure eval f [acc, v]) initial
  | f, args => .failed (.typing (f.wrongCount args.length))

end Builtin

end RangeScript
