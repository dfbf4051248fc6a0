import RangeScript.Position

/-!
# Tokens

A token has a kind, the text it was read from and the position of its first character. The end of
the input is no token: a text is a list of tokens and the position where it ends.
-/

namespace RangeScript.Token

/-- The kinds of tokens. -/
inductive Kind
  | var | out | print
  | assign | leftParen | rightParen | leftBrace | rightBrace | comma | arrow
  | plus | minus | star | slash | caret
  | name | real | int | string
deriving DecidableEq, Repr

/-- How a kind is called in messages. -/
def Kind.describe : Kind → String
  | .var => "'var'"
  | .out => "'out'"
  | .print => "'print'"
  | .assign => "'='"
  | .leftParen => "'('"
  | .rightParen => "')'"
  | .leftBrace => "'\x7b'"
  | .rightBrace => "'\x7d'"
  | .comma => "','"
  | .arrow => "'->'"
  | .plus => "'+'"
  | .minus => "'-'"
  | .star => "'*'"
  | .slash => "'/'"
  | .caret => "'^'"
  | .name => "identifier"
  | .real => "real literal"
  | .int => "integer literal"
  | .string => "string literal"

/-- The kinds that stand between two operands. -/
def Kind.isOperator : Kind → Bool
  | .plus | .minus | .star | .slash | .caret => true
  | _ => false

/-- The kinds whose tokens differ in their texts. -/
def Kind.hasContent : Kind → Bool
  | .name | .real | .int | .string => true
  | _ => false

end RangeScript.Token

namespace RangeScript

/-- A token of a source text. -/
structure Token where
  kind : Token.Kind
  text : String
  pos : Position
deriving DecidableEq, Repr

namespace Token

/-- How a token is shown in messages. -/
def shown (t : Token) : String :=
  if t.kind.hasContent then t.kind.describe ++ " " ++ t.text else t.kind.describe

def lexeme (t : Token) : Lexeme := ⟨t.text, t.pos⟩

/-- How the end of the input is called in messages. -/
def endOfInput : String := "end of input"

/-- The tokens of a text and the position where the text ends. -/
structure Stream where
  tokens : List Token
  stop : Position
deriving DecidableEq, Repr

end Token

end RangeScript
