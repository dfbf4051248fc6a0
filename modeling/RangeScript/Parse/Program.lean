import RangeScript.Parse.Expr

/-!
# Reading programs

    statement := 'var' name '=' expr | 'out' expr | 'print' string
    program   := statement*

Nothing separates statements. The whole input has to be read; otherwise the error tells the
furthest token that was reached and what was expected there.
-/

namespace RangeScript.Parse

open RangeScript.Parse.Parser

/-- The text between the quotes of a string token. -/
def unquoted (text : String) : String :=
  match text.toList with
  | '"' :: rest => if rest.getLast? = some '"' then String.ofList rest.dropLast else text
  | _ => text

def statement (prec : Precedence) : Parser Stmt := do
  match ← nextKind? with
  | some .var =>
    let _ ← token .var
    let name ← token .name
    let _ ← token .assign
    let value ← expr prec
    return .declare name.lexeme value
  | some .out =>
    let _ ← token .out
    let value ← expr prec
    return .out value
  | some .print =>
    let _ ← token .print
    let t ← token .string
    return .print (unquoted t.text)
  | _ => fail .statement

/-- A token that cannot go on what was read before it: the number of tokens before it, the token
itself, which is `none` at the end of the input, and what was expected in its place. -/
structure ParseError where
  index : Nat
  found : Option Token
  pos : Position
  expected : List Expectation
deriving DecidableEq, Repr

def ParseError.message (e : ParseError) : String :=
  "parse error at " ++ e.pos.text ++ ": unexpected " ++
    (match e.found with | some t => t.shown | none => Token.endOfInput) ++
    ", expected " ++ " or ".intercalate (e.expected.map Expectation.text)

/-- The error that the notes tell about a stream of tokens. -/
def Notes.error (n : Notes) (s : Token.Stream) : ParseError :=
  let found := s.tokens[n.index]?
  { index := n.index
    found
    pos := (found.map (·.pos)).getD s.stop
    expected := if n.expected.isEmpty then [.endOfInput] else n.expected }

/-- Reads a whole stream of tokens. -/
def run {α : Type} (p : Parser α) (s : Token.Stream) : Except ParseError α :=
  let attempt := p ⟨0, s.tokens⟩
  match attempt.result with
  | some (a, _) => .ok a
  | none => .error (attempt.notes.error s)

/-- Reads a program. -/
def program (prec : Precedence) (s : Token.Stream) : Except ParseError Program :=
  run (manyWhile (fun _ => true) (statement prec)) s

/-- Reads an expression that stands alone. -/
def expression (prec : Precedence) (s : Token.Stream) : Except ParseError Expr :=
  run (do let e ← expr prec; atEnd; return e) s

end RangeScript.Parse
