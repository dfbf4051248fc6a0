import RangeScript.Typing

/-!
# Evaluation

The value of an expression in a scope, and the effect of statements on the names bound so far.
Evaluation checks what it needs as it goes, so it is defined for expressions that have no type as
well. It recurses through applications of lambdas like typing does: `evalWith` recurses on the
expression, and `evalAt` bounds the number of active applications.
-/

namespace RangeScript

namespace Value

/-- The number of whole numbers from `lo` to `hi`. -/
def rangeLength (lo hi : Int64) : Nat := (hi.toInt - lo.toInt + 1).toNat

/-- The whole numbers from `lo` to `hi`. -/
def range (lo hi : Int64) : List Value :=
  (List.range (rangeLength lo hi)).map fun (i : Nat) => .int (Int64.ofInt (lo.toInt + i))

end Value

namespace Language

variable (lang : Language)

/-- A bound of a range has to be a whole number. -/
def boundValue (bound : Expr) (v : Value) : Outcome RunError Int64 :=
  .ofOption (.rangeBound bound.pos v.shape) v.toInt?

mutual

/-- The value of an expression, where `body` evaluates the bodies of lambdas that are applied. -/
def evalWith (body : Scope Value → Expr → Outcome RunError Value) (scope : Scope Value) :
    Expr → Outcome RunError Value
  | .int literal => do
    let n ← (Outcome.ofExcept (intLiteral literal)).mapError .typing
    return .int n
  | .real literal => do
    let x ← (Outcome.ofExcept (realLiteral literal)).mapError .typing
    return .real x
  | .var name => .ofOption (.unbound name) (scope.get? name.text)
  | .range left right => do
    let lo ← boundValue left (← evalWith body scope left)
    let hi ← boundValue right (← evalWith body scope right)
    let length := Value.rangeLength lo hi
    if length ≤ lang.rangeLimit then return .seq (Value.range lo hi) .int
    else .failed (.rangeTooLarge left.pos length)
  | .binary left op right => do
    let l ← evalWith body scope left
    let r ← evalWith body scope right
    let operator ← .ofOption (.typing (.unknownOperator op)) (lang.operator? op.text)
    (Outcome.ofExcept (operator.apply l r)).mapError (.atOperator op)
  | .call function args => do
    let f ← .ofOption (.typing (.unknownFunction function)) (lang.function? function.text)
    let values ← evalAllWith body scope args
    (f.call body values).mapError (.inFunction function)
  | .lambda params e => .done (.lambda ⟨params.map (·.text), e, scope⟩)

/-- The values of expressions, from left to right. -/
def evalAllWith (body : Scope Value → Expr → Outcome RunError Value) (scope : Scope Value) :
    List Expr → Outcome RunError (List Value)
  | [] => .done []
  | e :: es => do
    let v ← evalWith body scope e
    let vs ← evalAllWith body scope es
    return v :: vs

end

/-- The value of an expression, with at most `depth` applications of lambdas active at once. -/
def evalAt : Nat → Scope Value → Expr → Outcome RunError Value
  | 0 => evalWith lang fun _ _ => .unfinished
  | depth + 1 => evalWith lang (evalAt depth)

/-- The value of an expression. -/
def eval (scope : Scope Value) (e : Expr) : Outcome RunError Value :=
  lang.evalAt lang.callDepth scope e

/-- The value of a closure for the given arguments. -/
def applyClosure (f : Closure Value) (args : List Value) : Outcome RunError Value :=
  Builtin.applyClosure (lang.evalAt lang.callDepth) f args

/-- The value of a function for the given arguments. -/
def callBuiltin (f : Builtin) (args : List Value) : Outcome RunError Value :=
  f.call (lang.evalAt lang.callDepth) args

/-- What a statement did: the names bound after it, and the line that it printed. -/
structure Effect where
  globals : Scope Value
  line : Option String

/-- Runs a statement. One that fails has no effect. -/
def exec (globals : Scope Value) : Stmt → Outcome RunError Effect
  | .print text => .done ⟨globals, some text⟩
  | .out value => do
    let v ← lang.eval globals value
    let text ← .ofExcept v.render
    return ⟨globals, some text⟩
  | .declare name value =>
    if globals.contains name.text then .failed (.redeclared name)
    else do
      let v ← lang.eval globals value
      return ⟨globals.insert name.text v, none⟩

end Language

end RangeScript
