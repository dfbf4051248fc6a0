/-!
# Positions in a source text

Lines and columns count characters from one, and only a line feed starts a new line.
-/

namespace RangeScript

structure Position where
  line : Nat
  column : Nat
deriving DecidableEq, Repr, Inhabited

namespace Position

/-- The position of a text's first character. -/
def start : Position := ⟨1, 1⟩

/-- The position after the character `c`. -/
def next (p : Position) (c : Char) : Position :=
  if c = '\n' then ⟨p.line + 1, 1⟩ else ⟨p.line, p.column + 1⟩

/-- The position after the characters `cs`. -/
def after (p : Position) (cs : List Char) : Position := cs.foldl next p

@[simp] theorem after_nil (p : Position) : p.after [] = p := rfl

@[simp] theorem after_cons (p : Position) (c : Char) (cs : List Char) :
    p.after (c :: cs) = (p.next c).after cs := rfl

theorem after_append (p : Position) (cs ds : List Char) :
    p.after (cs ++ ds) = (p.after cs).after ds := by
  simp [after]

def text (p : Position) : String := toString p.line ++ ":" ++ toString p.column

end Position

/-- A piece of source text and where it stands: a name, an operator symbol or a number. -/
structure Lexeme where
  text : String
  pos : Position
deriving DecidableEq, Repr, Inhabited

/-- The same piece of text, wherever it stands. -/
def Lexeme.same (a b : Lexeme) : Bool := a.text == b.text

end RangeScript
