import RangeScript.Parse.Program
import RangeScript.Text.Quoted
import RangeScript.Token.Scan
import RangeScript.Ty.Shape

/-!
# Errors

What can go wrong, by cause, and the texts of the messages. An error inside an operator or a
function is wrapped in a context that names the operator or function; the message then has one
more line for each context.
-/

namespace RangeScript

def Token.ScanError.message (e : Token.ScanError) : String :=
  "unexpected character " ++ Text.quotedChar e.char ++ " at " ++ e.pos.text

/-- The two sorts of numbers that a literal can stand for. -/
inductive NumberSort
  | int
  | real
deriving DecidableEq, Repr

def NumberSort.text : NumberSort → String
  | int => "Int"
  | real => "Real"

/-- Errors about types. The arguments of functions are counted from one. -/
inductive TypeError
  | undeclared (name : Lexeme)
  | redeclared (name : Lexeme)
  | unknownOperator (op : Lexeme)
  | operandTypes (left right : Shape)
  | atOperator (op : Lexeme) (cause : TypeError)
  | unknownFunction (name : Lexeme)
  | argCount (function : String) (expected found : Nat)
  | expectedSequence (index : Nat) (found : Shape)
  | expectedLambda (index : Nat) (found : Shape)
  | lambdaArity (index expected found : Nat)
  | lambdaInitial (index : Nat)
  | reduceResult (expected found : Shape)
  | duplicateParam (name : Lexeme)
  | invalidLiteral (sort : NumberSort) (literal : Lexeme)
  | rangeBound (pos : Position) (found : Shape)
  | notPrintable (pos : Position) (found : Shape)
  | inFunction (name : Lexeme) (cause : TypeError)
deriving DecidableEq, Repr

/-- A lexeme and its position in messages. -/
def Lexeme.located (l : Lexeme) : String := l.text ++ " at " ++ l.pos.text

/-- The line that an operator adds to a message. -/
def operatorContext (op : Lexeme) : String := "\nfor " ++ op.located

/-- The line that a function adds to a message. -/
def functionContext (name : Lexeme) : String := "\nfor function " ++ name.located

/-- The message about a name that is declared once more. -/
def redeclaredMessage (name : Lexeme) : String :=
  "variable " ++ name.text ++ " is already declared: at " ++ name.pos.text

/-- How messages about an argument start. -/
def argumentText (index : Nat) : String := "argument " ++ toString index ++ " should be "

def TypeError.message : TypeError → String
  | undeclared name => "use of undeclared variable " ++ name.located
  | redeclared name => redeclaredMessage name
  | unknownOperator op => "invalid operator " ++ op.located
  | operandTypes left right =>
    "wrong types, expected Int or Real, got (" ++ left.text ++ ", " ++ right.text ++ ")"
  | atOperator op cause => cause.message ++ operatorContext op
  | unknownFunction name => "no such function: " ++ name.located
  | argCount function expected found =>
    "function " ++ function ++ " expects " ++ toString expected ++ " arguments, got " ++
      toString found
  | expectedSequence index found => argumentText index ++ "a sequence, got " ++ found.text
  | expectedLambda index found => argumentText index ++ "a lambda, got " ++ found.text
  | lambdaArity index expected found =>
    argumentText index ++ "a lambda of " ++ toString expected ++ " parameters, got " ++
      toString found
  | lambdaInitial index => argumentText index ++ "an expression, not a lambda"
  | reduceResult expected found =>
    "reduction result " ++ found.text ++ ", but expected " ++ expected.text
  | duplicateParam name =>
    "lambda parameter " ++ name.text ++ " declared twice at " ++ name.pos.text
  | invalidLiteral sort literal =>
    "\"" ++ literal.text ++ "\" at " ++ literal.pos.text ++ " isn't a valid " ++ sort.text ++
      " value"
  | rangeBound pos found => "expected Int range bound at " ++ pos.text ++ ", got " ++ found.text
  | notPrintable pos found =>
    "value of type " ++ found.text ++ " at " ++ pos.text ++ " can't be printed"
  | inFunction name cause => cause.message ++ functionContext name

/-- Errors of evaluation, errors about types among them. -/
inductive RunError
  | typing (cause : TypeError)
  | unbound (name : Lexeme)
  | redeclared (name : Lexeme)
  | rangeBound (pos : Position) (found : Shape)
  | rangeTooLarge (pos : Position) (length : Nat)
  | lambdaOutput
  | divisionByZero
  | overflow (symbol : String)
  | atOperator (op : Lexeme) (cause : RunError)
  | inFunction (name : Lexeme) (cause : RunError)
deriving DecidableEq, Repr

def RunError.message : RunError → String
  | typing cause => cause.message
  | unbound name => "variable " ++ name.text ++ " wasn't declared at " ++ name.pos.text
  | redeclared name => redeclaredMessage name
  | rangeBound pos found => "expected Int in sequence at " ++ pos.text ++ ", got " ++ found.text
  | rangeTooLarge pos length =>
    "sequence at " ++ pos.text ++ " has " ++ toString length ++ " elements, too many to allocate"
  | lambdaOutput => "lambda can't be converted to output"
  | divisionByZero => "division by zero"
  | overflow symbol => "integer overflow in " ++ symbol
  | atOperator op cause => cause.message ++ operatorContext op
  | inFunction name cause => cause.message ++ functionContext name

/-- Everything that can be wrong with a submission. -/
inductive Error
  | scan (cause : Token.ScanError)
  | parse (cause : Parse.ParseError)
  | run (cause : RunError)
deriving DecidableEq, Repr

def Error.message : Error → String
  | scan cause => cause.message
  | parse cause => cause.message
  | run cause => cause.message

/-- The error about types that a check of a submission found. -/
def Error.typing (cause : TypeError) : Error := .run (.typing cause)

end RangeScript
