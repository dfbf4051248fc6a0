import RangeScript.Expr.Precedence
import RangeScript.Parse.Parser

/-!
# Reading expressions

    atom   := call | name | number | '(' expr ')' | '{' expr ',' expr '}'
    expr   := atom (operator atom)*
    number := ('+' | '-')? (real | int)
    call   := name '(' arg (',' arg)* ')'
    arg    := lambda | expr
    lambda := name+ '->' expr

Calls, parentheses and ranges are read only while there is room for one more level of nesting, so
reading recurses on the room that is left. With no room a name is read alone, also before a
parenthesis.
-/

namespace RangeScript.Parse

open RangeScript.Parse.Parser

/-- How deep calls, parentheses and ranges may be nested. -/
def maxNesting : Nat := 256

/-- The text of a number without underscores, with a minus sign if there was one. -/
def numberText (minus : Bool) (text : String) : String :=
  String.ofList ((if minus then ['-'] else []) ++ text.toList.filter (· != '_'))

/-- An optional sign: whether it is a minus. -/
def sign : Parser Bool := do
  match ← nextKind? with
  | some .minus => let _ ← token .minus; return true
  | some .plus => let _ ← token .plus; return false
  | _ => return false

/-- A number with an optional sign. It stands where its digits do. -/
def number : Parser Expr := do
  let minus ← sign
  let t ← tokenWhere (fun t => t.kind == .int || t.kind == .real) .number
  let literal : Lexeme := ⟨numberText minus t.text, t.pos⟩
  return if t.kind == .int then .int literal else .real literal

/-- A name that stands alone. -/
def variableName : Parser Expr := do
  let t ← token .name
  return .var t.lexeme

/-- An operator that has a precedence. -/
def operator (prec : Precedence) : Parser Lexeme := do
  let t ← tokenWhere (fun t => t.kind.isOperator && prec.knows t.text) .operator
  return t.lexeme

/-! ## Parts that hold expressions

The parser `inner` of the expressions inside is a parameter. -/

def parenthesized (inner : Parser Expr) : Parser Expr := do
  let _ ← token .leftParen
  let e ← inner
  let _ ← token .rightParen
  return e

def range (inner : Parser Expr) : Parser Expr := do
  let _ ← token .leftBrace
  let left ← inner
  let _ ← token .comma
  let right ← inner
  let _ ← token .rightBrace
  return .range left right

def lambda (inner : Parser Expr) : Parser Expr := do
  let first ← token .name
  let more ← manyWhile (· == .name) (token .name)
  let _ ← token .arrow
  let body ← inner
  return .lambda ((first :: more).map Token.lexeme) body

def arg (inner : Parser Expr) : Parser Expr := orElse (lambda inner) inner

def call (inner : Parser Expr) : Parser Expr := do
  let function ← token .name
  let _ ← token .leftParen
  let first ← arg inner
  let more ← manyWhile (· == .comma) (do let _ ← token .comma; arg inner)
  let _ ← token .rightParen
  return .call function.lexeme (first :: more)

/-- A part that is one level deeper, if there is room for it. -/
def within (inner : Option (Parser Expr)) (part : Parser Expr → Parser Expr) : Parser Expr :=
  match inner with
  | some inner => part inner
  | none => fail .shallowerNesting

/-- An atom; without a parser of the expressions inside there is no room for any. -/
def atomOver (inner : Option (Parser Expr)) : Parser Expr := do
  match ← nextKind? with
  | some .name =>
    if (← secondKind?) == some .leftParen then orElse (within inner call) variableName
    else variableName
  | some .plus | some .minus | some .int | some .real => number
  | some .leftParen => within inner parenthesized
  | some .leftBrace => within inner range
  | _ => fail .expression

/-- An expression made of the given atoms. -/
def exprOver (prec : Precedence) (atom : Parser Expr) : Parser Expr := do
  let first ← atom
  let rest ← many (do let op ← operator prec; let term ← atom; return (op, term))
  match prec.foldChain first rest with
  | .ok e => return e
  | .error _ => fail .rankedOperator

/-- An atom with room for the given number of levels. -/
def atom (prec : Precedence) : Nat → Parser Expr
  | 0 => atomOver none
  | room + 1 => atomOver (some (exprOver prec (atom prec room)))

/-- An expression. -/
def expr (prec : Precedence) : Parser Expr := exprOver prec (atom prec maxNesting)

end RangeScript.Parse
