import RangeScript.Expr.Basic
import RangeScript.Text.Quoted

/-!
# Outlines

An outline is a tree of named nodes, fields and lists. It is written on one line (`compact`) or
with one part to a line and four spaces of indentation (`pretty`). Programs have an outline that
shows every node and position.
-/

namespace RangeScript

/-- A tree of named nodes. -/
inductive Outline
  | leaf (text : String)
  /-- a name with fields, in braces -/
  | record (name : String) (fields : List (String × Outline))
  /-- a name with one part, in parentheses -/
  | wrap (name : String) (part : Outline)
  | list (parts : List Outline)

namespace Outline

mutual

/-- The outline on one line. -/
def compact : Outline → String
  | leaf text => text
  | record name fields => name ++ " \x7b " ++ ", ".intercalate (compactFields fields) ++ " \x7d"
  | wrap name part => name ++ "(" ++ part.compact ++ ")"
  | list parts => "[" ++ ", ".intercalate (compactParts parts) ++ "]"

def compactFields : List (String × Outline) → List String
  | [] => []
  | (name, part) :: more => (name ++ ": " ++ part.compact) :: compactFields more

def compactParts : List Outline → List String
  | [] => []
  | part :: more => part.compact :: compactParts more

end

/-- A new line and the indentation of the given depth. -/
def newline (depth : Nat) : String := "\n" ++ String.ofList (List.replicate (4 * depth) ' ')

mutual

/-- The outline with one part to a line; what is inside the outline stands at `depth + 1`. -/
def prettyAt (depth : Nat) : Outline → String
  | leaf text => text
  | record name fields => name ++ " \x7b" ++ prettyFields depth fields ++ newline depth ++ "\x7d"
  | wrap name part =>
    name ++ "(" ++ newline (depth + 1) ++ prettyAt (depth + 1) part ++ "," ++ newline depth ++ ")"
  | list [] => "[]"
  | list (part :: more) => "[" ++ prettyParts depth (part :: more) ++ newline depth ++ "]"

def prettyFields (depth : Nat) : List (String × Outline) → String
  | [] => ""
  | (name, part) :: more =>
    newline (depth + 1) ++ name ++ ": " ++ prettyAt (depth + 1) part ++ "," ++
      prettyFields depth more

def prettyParts (depth : Nat) : List Outline → String
  | [] => ""
  | part :: more =>
    newline (depth + 1) ++ prettyAt (depth + 1) part ++ "," ++ prettyParts depth more

end

def pretty (o : Outline) : String := o.prettyAt 0

/-- A text as a leaf, in quotes. -/
def ofText (s : String) : Outline := leaf (Text.quoted s)

def ofNat (n : Nat) : Outline := leaf (toString n)

end Outline

def Position.outline (p : Position) : Outline :=
  .record "Pos" [("line", .ofNat p.line), ("col", .ofNat p.column)]

/-- The outline of a lexeme of the given sort, which names its text `field`. -/
def Lexeme.outline (sort field : String) (l : Lexeme) : Outline :=
  .record sort [(field, .ofText l.text), ("pos", l.pos.outline)]

def Lexeme.nameOutline : Lexeme → Outline := Lexeme.outline "Id" "name"

def Lexeme.symbolOutline : Lexeme → Outline := Lexeme.outline "Op" "symbol"

def Lexeme.literalOutline : Lexeme → Outline := Lexeme.outline "Literal" "text"

namespace Expr

mutual

def outline : Expr → Outline
  | var name => .wrap "Id" name.nameOutline
  | int literal => .wrap "NInt" literal.literalOutline
  | real literal => .wrap "NReal" literal.literalOutline
  | binary left op right =>
    .record "BinOp" [("left", left.outline), ("op", op.symbolOutline), ("right", right.outline)]
  | range left right => .record "NSequence" [("left", left.outline), ("right", right.outline)]
  | call function args =>
    .record "FuncCall" [("name", function.nameOutline), ("args", .list (outlines args))]
  | lambda params body =>
    .record "Lambda" [("params", .list (params.map Lexeme.nameOutline)), ("body", body.outline)]

def outlines : List Expr → List Outline
  | [] => []
  | e :: es => e.outline :: outlines es

end

end Expr

def Stmt.outline : Stmt → Outline
  | declare name value =>
    .record "VarDeclaration" [("name", name.nameOutline), ("expr", value.outline)]
  | out value => .wrap "OutExpr" value.outline
  | print text => .wrap "PrintString" (.ofText text)

def Program.outline (p : Program) : Outline :=
  .record "Program" [("statements", .list (p.map Stmt.outline))]

end RangeScript
