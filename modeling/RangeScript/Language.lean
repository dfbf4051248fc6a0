import RangeScript.Builtin
import RangeScript.Expr.Outline
import RangeScript.Operator

/-!
# Languages

Which operators and functions there are, how operators bind, and the limits on what programs may
use. The standard language has all operators and functions.
-/

namespace RangeScript

structure Language where
  operators : Scope Operator
  functions : List Builtin
  precedence : Precedence
  /-- How many applications of lambdas may be active at once. A program that is read from a text
  never needs more than `Parse.maxNesting`; one that is built by hand may apply a lambda to itself
  and go as deep as the limit. -/
  callDepth : Nat
  /-- How many elements a range may have. -/
  rangeLimit : Nat

namespace Language

/-- The five operators under their own symbols. -/
def standardOperators : Scope Operator := Operator.all.map fun op => (op.symbol, op)

def standard : Language where
  operators := standardOperators
  functions := Builtin.all
  precedence := .standard
  callDepth := 1000000000
  rangeLimit := 10000000

def operator? (lang : Language) (symbol : String) : Option Operator := lang.operators.get? symbol

def function? (lang : Language) (name : String) : Option Builtin :=
  lang.functions.find? (·.name == name)

/-- The symbols of the operators, in order. -/
def symbols (lang : Language) : List String := lang.operators.names

/-- The names of the functions, in order. -/
def functionNames (lang : Language) : List String :=
  Scope.names (lang.functions.map fun f => (f.name, f))

/-- An outline of the operators and functions. -/
def outline (lang : Language) : Outline :=
  .record "Registry"
    [("operators", .record "Operators" [("symbols", .list (lang.symbols.map .ofText))]),
     ("functions", .record "Functions" [("names", .list (lang.functionNames.map .ofText))])]

/-- Reads a program. -/
def parse (lang : Language) (source : String) : Except Error Program :=
  match Token.scan source with
  | .error e => .error (.scan e)
  | .ok stream =>
    match Parse.program lang.precedence stream with
    | .error e => .error (.parse e)
    | .ok program => .ok program

end Language

/-- Reads an expression with the standard precedence of operators. -/
def Expr.parse (source : String) : Except Error Expr :=
  match Token.scan source with
  | .error e => .error (.scan e)
  | .ok stream =>
    match Parse.expression .standard stream with
    | .error e => .error (.parse e)
    | .ok e => .ok e

end RangeScript
