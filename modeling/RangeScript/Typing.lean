import RangeScript.Language

/-!
# Typing

The type of an expression in a scope, and the check of programs against the names declared so far.
Nothing is evaluated. The body of a lambda is typed when a function's rule applies the lambda, so
typing recurses through applications: `inferWith` recurses on the expression and leaves the typing
of bodies open, and `inferAt` closes it for a bounded number of active applications.
-/

namespace RangeScript.Language

/-- The whole number of a literal. -/
def intLiteral (literal : Lexeme) : Except TypeError Int64 :=
  match Whole.ofText? literal.text with
  | some n => .ok n
  | none => .error (.invalidLiteral .int literal)

/-- The real number of a literal. -/
def realLiteral (literal : Lexeme) : Except TypeError Float :=
  match Real.ofText? literal.text with
  | some x => .ok x
  | none => .error (.invalidLiteral .real literal)

/-- The first name that stands among those before it. -/
def firstRepeated? (before : List Lexeme) : List Lexeme → Option Lexeme
  | [] => none
  | p :: ps => if before.any p.same then some p else firstRepeated? (p :: before) ps

variable (lang : Language)

/-- A bound of a range has to be a whole number. -/
def boundTy (bound : Expr) (found : Ty) : Outcome TypeError Unit :=
  if found.shape = .int then .done () else .failed (.rangeBound bound.pos found.shape)

mutual

/-- The type of an expression, where `body` types the bodies of lambdas that are applied. -/
def inferWith (body : Scope Ty → Expr → Outcome TypeError Ty) (scope : Scope Ty) :
    Expr → Outcome TypeError Ty
  | .int literal => do
    let _ ← .ofExcept (intLiteral literal)
    return .int
  | .real literal => do
    let _ ← .ofExcept (realLiteral literal)
    return .real
  | .var name => .ofOption (.undeclared name) (scope.get? name.text)
  | .range left right => do
    boundTy left (← inferWith body scope left)
    boundTy right (← inferWith body scope right)
    return .seq .int
  | .binary left op right => do
    let l ← inferWith body scope left
    let r ← inferWith body scope right
    let operator ← .ofOption (.unknownOperator op) (lang.operator? op.text)
    let shape ← (Outcome.ofExcept (operator.resultShape l.shape r.shape)).mapError (.atOperator op)
    return .ofShape shape
  | .call function args => do
    let f ← .ofOption (.unknownFunction function) (lang.function? function.text)
    let tys ← inferAllWith body scope args
    (f.resultTy body tys).mapError (.inFunction function)
  | .lambda params e =>
    match firstRepeated? [] params with
    | some p => .failed (.duplicateParam p)
    | none => .done (.lambda ⟨params.map (·.text), e, scope⟩)

/-- The types of expressions, from left to right. -/
def inferAllWith (body : Scope Ty → Expr → Outcome TypeError Ty) (scope : Scope Ty) :
    List Expr → Outcome TypeError (List Ty)
  | [] => .done []
  | e :: es => do
    let t ← inferWith body scope e
    let ts ← inferAllWith body scope es
    return t :: ts

end

/-- The type of an expression, with at most `depth` applications of lambdas active at once. -/
def inferAt : Nat → Scope Ty → Expr → Outcome TypeError Ty
  | 0 => inferWith lang fun _ _ => .unfinished
  | depth + 1 => inferWith lang (inferAt depth)

/-- The type of an expression. -/
def infer (scope : Scope Ty) (e : Expr) : Outcome TypeError Ty :=
  lang.inferAt lang.callDepth scope e

/-- The type of a lambda's result for arguments of the given types. -/
def applyTy (f : Ty) (args : List Ty) : Outcome TypeError Ty :=
  Builtin.applyTy (lang.inferAt lang.callDepth) f args

/-- Checks a statement; the outcome is what is declared after it. -/
def check (globals : Scope Ty) : Stmt → Outcome TypeError (Scope Ty)
  | .print _ => .done globals
  | .out value => do
    let t ← lang.infer globals value
    if t.shape.isPrintable then return globals
    else .failed (.notPrintable value.pos t.shape)
  | .declare name value =>
    if globals.contains name.text then .failed (.redeclared name)
    else do
      let t ← lang.infer globals value
      return globals.insert name.text t

/-- Checks statements up to the first that fails: what is declared then, and how it ended. -/
def checkProgram (globals : Scope Ty) : Program → Scope Ty × Outcome TypeError Unit
  | [] => (globals, .done ())
  | s :: rest =>
    match lang.check globals s with
    | .done globals => checkProgram globals rest
    | .failed e => (globals, .failed e)
    | .unfinished => (globals, .unfinished)

end RangeScript.Language
