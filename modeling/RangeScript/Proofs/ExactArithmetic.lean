import RangeScript.Evaluation

/-!
# Evaluation on unbounded whole numbers

The whole numbers of the language are those that 64 bits can hold, and a range may only have so many elements.
This is the evaluation that has no such limits, on the same expressions and statements:

* `ExactValue` : whole numbers of any size, sequences of any length, and lambdas. There are no real numbers, so
  literals of them and powers are refused;
* `ExactStep` : a literal, an application of an operator or a range, with the numbers that are involved;
  `ExactStep.fits` tells whether the limits allow its result, and `ExactStep.error` is the error if they do not;
* `ExactRun` : how a computation ends, and the steps that it takes on the way, each with the functions that it is
  taken in (`ExactEvent`).

The steps are noted only; no limit stops the computation. Apart from that, evaluation follows the rules of the
language: operands from left to right, division toward zero and an error where the divisor is zero.
-/

namespace RangeScript

/-! ## Values -/

inductive ExactValue
  | int (n : Int)
  | seq (elements : List ExactValue) (elem : Shape)
  | lambda (closure : Closure ExactValue)

namespace ExactValue

def shape : ExactValue → Shape
  | int _ => .int
  | seq _ elem => .seq elem
  | lambda c => .lambda c.arity

def toInt? : ExactValue → Option Int
  | int n => some n
  | _ => none

/-- The whole numbers from `lo` to `hi`. -/
def range (lo hi : Int) : List ExactValue :=
  (List.range (hi - lo + 1).toNat).map fun (i : Nat) => .int (lo + i)

mutual

/-- The text of a value; lambdas have none. -/
def render : ExactValue → Except RunError String
  | int n => .ok (toString n)
  | seq elements _ => do
    let text ← renderAll "" elements
    return "[" ++ text
  | lambda _ => .error .lambdaOutput

/-- The texts of the elements of a sequence with `separator` in front of the first, and the closing bracket. -/
def renderAll (separator : String) : List ExactValue → Except RunError String
  | [] => .ok "]"
  | v :: vs => do
    let text ← v.render
    let rest ← renderAll ", " vs
    return separator ++ text ++ rest

end

end ExactValue

/-! ## Steps -/

namespace Whole

/-- Whether 64 bits can hold the number. -/
def fits (n : Int) : Bool := decide (-0x8000000000000000 ≤ n ∧ n < 0x8000000000000000)

/-- Reads an optional sign and one or more ASCII digits, whatever the value. -/
def exactOfText? (s : String) : Option Int :=
  let (minus, digits) := splitSign s.toList
  (natOfDigits? digits).map fun n => if minus then -(n : Int) else n

end Whole

/-- The exact result of an operator. Powers are real numbers; there is none of them here. -/
def Operator.exact : Operator → Int → Int → Int
  | add, a, b => a + b
  | sub, a, b => a - b
  | mul, a, b => a * b
  | div, a, b => a.tdiv b
  | pow, _, _ => 0

/-- A step of a computation whose result the limits may not allow. -/
inductive ExactStep
  | literal (literal : Lexeme) (n : Int)
  | operation (op : Lexeme) (operator : Operator) (left right : Int)
  | range (pos : Position) (lo hi : Int)

namespace ExactStep

/-- Whether the result is in the range of numbers or, for a range, has at most `limit` elements. -/
def fits (limit : Nat) : ExactStep → Bool
  | literal _ n => Whole.fits n
  | operation _ operator a b => Whole.fits (operator.exact a b)
  | range _ lo hi => decide ((hi - lo + 1).toNat ≤ limit)

/-- The error where the result is not allowed. -/
def error : ExactStep → RunError
  | literal l _ => .typing (.invalidLiteral .int l)
  | operation op operator _ _ => .atOperator op (.overflow operator.symbol)
  | range pos lo hi => .rangeTooLarge pos (hi - lo + 1).toNat

end ExactStep

/-- A step and the functions that it is taken in, the outermost first. -/
structure ExactEvent where
  functions : List Lexeme
  step : ExactStep

/-- The error where the result of the step is not allowed, as it is reported. -/
def ExactEvent.error (ev : ExactEvent) : RunError := ev.functions.foldr .inFunction ev.step.error

/-! ## Computations -/

/-- The steps of a computation, and how it ends. -/
structure ExactRun (α : Type) where
  events : List ExactEvent
  outcome : Outcome RunError α

namespace ExactRun

variable {α β : Type}

/-- A computation without steps. -/
def of (x : Outcome RunError α) : ExactRun α := ⟨[], x⟩

protected def bind (x : ExactRun α) (f : α → ExactRun β) : ExactRun β :=
  match x.outcome with
  | .done a => ⟨x.events ++ (f a).events, (f a).outcome⟩
  | .failed e => ⟨x.events, .failed e⟩
  | .unfinished => ⟨x.events, .unfinished⟩

instance : Monad ExactRun where
  pure a := of (.done a)
  bind := ExactRun.bind

/-- Takes a step. -/
def note (step : ExactStep) : ExactRun Unit := ⟨[⟨[], step⟩], .done ()⟩

/-- The computation inside a call of the function. -/
def inFunction (name : Lexeme) (x : ExactRun α) : ExactRun α where
  events := x.events.map fun ev => { ev with functions := name :: ev.functions }
  outcome := x.outcome.mapError (.inFunction name)

theorem mk_done_bind (events : List ExactEvent) (a : α) (f : α → ExactRun β) :
    ((⟨events, .done a⟩ : ExactRun α) >>= f) = ⟨events ++ (f a).events, (f a).outcome⟩ := rfl

instance : LawfulMonad ExactRun := LawfulMonad.mk' _
  (fun x => by
    obtain ⟨events, outcome⟩ := x
    cases outcome with
    | done a =>
      show ExactRun.mk (events ++ []) (.done a) = ⟨events, .done a⟩
      rw [List.append_nil]
    | failed e => rfl
    | unfinished => rfl)
  (fun _ _ => rfl)
  (fun x f g => by
    obtain ⟨events, outcome⟩ := x
    cases outcome with
    | done a =>
      rw [mk_done_bind, mk_done_bind]
      obtain ⟨more, outcome⟩ := f a
      cases outcome with
      | done b => rw [mk_done_bind, mk_done_bind, List.append_assoc]
      | failed e => rfl
      | unfinished => rfl
    | failed e => rfl
    | unfinished => rfl)

/-- What follows a computation only adds steps. -/
theorem events_bind (x : ExactRun α) (f : α → ExactRun β) :
    ∃ more, (x >>= f).events = x.events ++ more := by
  obtain ⟨events, outcome⟩ := x
  cases outcome with
  | done a => exact ⟨(f a).events, rfl⟩
  | failed e => exact ⟨[], (List.append_nil events).symm⟩
  | unfinished => exact ⟨[], (List.append_nil events).symm⟩

end ExactRun

/-! ## Functions -/

namespace Builtin

def exactSeqArg (index : Nat) (v : ExactValue) : Except RunError (List ExactValue) :=
  match v with
  | .seq elements _ => .ok elements
  | _ => .error (.typing (.expectedSequence index v.shape))

def exactLambdaArg (index arity : Nat) (v : ExactValue) : Except RunError (Closure ExactValue) :=
  match v with
  | .lambda c =>
    if c.arity = arity then .ok c else .error (.typing (.lambdaArity index arity c.arity))
  | _ => .error (.typing (.expectedLambda index v.shape))

def exactInitialArg (index : Nat) (v : ExactValue) : Except RunError Unit :=
  match v with
  | .lambda _ => .error (.typing (.lambdaInitial index))
  | _ => .ok ()

/-- A sequence of computed elements; the first one tells the shape of all. -/
def exactSeqOf (elements : List ExactValue) : ExactValue :=
  .seq elements ((elements.head?.map ExactValue.shape).getD .nothing)

/-- The value of a function's result, where `eval` evaluates the body of a lambda in a scope. -/
def exactCall (eval : Scope ExactValue → Expr → ExactRun ExactValue) :
    Builtin → List ExactValue → ExactRun ExactValue
  | map, [s, f] => do
    let elements ← .of (.ofExcept (exactSeqArg 1 s))
    let f ← .of (.ofExcept (exactLambdaArg 2 1 f))
    let results ← elements.mapM fun v => eval (f.enter [v]) f.body
    return exactSeqOf results
  | reduce, [s, initial, f] => do
    let elements ← .of (.ofExcept (exactSeqArg 1 s))
    ExactRun.of (.ofExcept (exactInitialArg 2 initial))
    let f ← .of (.ofExcept (exactLambdaArg 3 2 f))
    elements.foldlM (fun acc v => eval (f.enter [acc, v]) f.body) initial
  | f, args => .of (.failed (.typing (f.wrongCount args.length)))

end Builtin

/-! ## Expressions and statements -/

namespace Language

/-- The value of an operator at the place `op`. Division by zero fails whatever the limits. -/
def exactApply (op : Lexeme) (operator : Operator) (left right : ExactValue) : ExactRun ExactValue :=
  match left, right with
  | .int a, .int b =>
    if operator = .pow then .of (.failed (.atOperator op (.typing (.operandTypes .int .int))))
    else if operator = .div ∧ b = 0 then .of (.failed (.atOperator op .divisionByZero))
    else do
      ExactRun.note (.operation op operator a b)
      return .int (operator.exact a b)
  | _, _ => .of (.failed (.atOperator op (.typing (.operandTypes left.shape right.shape))))

def exactBound (bound : Expr) (v : ExactValue) : ExactRun Int :=
  .of (.ofOption (.rangeBound bound.pos v.shape) v.toInt?)

variable (lang : Language)

mutual

/-- The value of an expression, where `body` evaluates the bodies of lambdas that are applied. -/
def exactEvalWith (body : Scope ExactValue → Expr → ExactRun ExactValue) (scope : Scope ExactValue) :
    Expr → ExactRun ExactValue
  | .int literal => do
    let n ← .of (.ofOption (.typing (.invalidLiteral .int literal)) (Whole.exactOfText? literal.text))
    ExactRun.note (.literal literal n)
    return .int n
  | .real literal => .of (.failed (.typing (.invalidLiteral .real literal)))
  | .var name => .of (.ofOption (.unbound name) (scope.get? name.text))
  | .range left right => do
    let lo ← exactBound left (← exactEvalWith body scope left)
    let hi ← exactBound right (← exactEvalWith body scope right)
    ExactRun.note (.range left.pos lo hi)
    return .seq (ExactValue.range lo hi) .int
  | .binary left op right => do
    let l ← exactEvalWith body scope left
    let r ← exactEvalWith body scope right
    let operator ← .of (.ofOption (.typing (.unknownOperator op)) (lang.operator? op.text))
    exactApply op operator l r
  | .call function args => do
    let f ← .of (.ofOption (.typing (.unknownFunction function)) (lang.function? function.text))
    let values ← exactEvalAllWith body scope args
    (f.exactCall body values).inFunction function
  | .lambda params e => .of (.done (.lambda ⟨params.map (·.text), e, scope⟩))

/-- The values of expressions, from left to right. -/
def exactEvalAllWith (body : Scope ExactValue → Expr → ExactRun ExactValue) (scope : Scope ExactValue) :
    List Expr → ExactRun (List ExactValue)
  | [] => .of (.done [])
  | e :: es => do
    let v ← exactEvalWith body scope e
    let vs ← exactEvalAllWith body scope es
    return v :: vs

end

/-- The value of an expression, with at most `depth` applications of lambdas active at once. -/
def exactEvalAt : Nat → Scope ExactValue → Expr → ExactRun ExactValue
  | 0 => exactEvalWith lang fun _ _ => .of .unfinished
  | depth + 1 => exactEvalWith lang (exactEvalAt depth)

/-- The names bound after a statement, and the line that it printed. -/
structure ExactEffect where
  globals : Scope ExactValue
  line : Option String

/-- Runs a statement. -/
def exactExec (globals : Scope ExactValue) : Stmt → ExactRun ExactEffect
  | .print text => .of (.done ⟨globals, some text⟩)
  | .out value => do
    let v ← lang.exactEvalAt lang.callDepth globals value
    let text ← .of (.ofExcept v.render)
    return ⟨globals, some text⟩
  | .declare name value =>
    if globals.contains name.text then .of (.failed (.redeclared name))
    else do
      let v ← lang.exactEvalAt lang.callDepth globals value
      return ⟨globals.insert name.text v, none⟩

/-- Runs the statements of a program, up to the first that fails: the names bound in the end, and all lines. -/
def exactRun : Scope ExactValue → Program → ExactRun (Scope ExactValue × List String)
  | globals, [] => .of (.done (globals, []))
  | globals, stmt :: rest => do
    let effect ← lang.exactExec globals stmt
    let after ← exactRun effect.globals rest
    return (after.1, effect.line.toList ++ after.2)

end Language

end RangeScript
