import RangeScript.Position

/-!
# Expressions and programs

Names, operator symbols and numbers keep the positions where they were read. Two expressions are
the same if they differ in positions only (`Expr.same`).
-/

namespace RangeScript

/-- Expressions. Numbers keep their text, which is read when the expression is checked or
evaluated. -/
inductive Expr
  | var (name : Lexeme)
  | int (literal : Lexeme)
  | real (literal : Lexeme)
  | binary (left : Expr) (op : Lexeme) (right : Expr)
  /-- the whole numbers from `left` to `right`, both included -/
  | range (left right : Expr)
  | call (function : Lexeme) (args : List Expr)
  | lambda (params : List Lexeme) (body : Expr)
deriving Inhabited

/-- Statements. -/
inductive Stmt
  | declare (name : Lexeme) (value : Expr)
  | out (value : Expr)
  | print (text : String)
deriving Inhabited

/-- A program is run statement by statement. -/
abbrev Program := List Stmt

namespace Expr

/-- The position that stands for an expression in messages. -/
def pos : Expr → Position
  | var name => name.pos
  | int literal => literal.pos
  | real literal => literal.pos
  | binary _ op _ => op.pos
  | range left _ => left.pos
  | call function _ => function.pos
  | lambda [] body => body.pos
  | lambda (p :: _) _ => p.pos

/-- The same names, wherever they stand. -/
def sameLexemes : List Lexeme → List Lexeme → Bool
  | [], [] => true
  | a :: as, b :: bs => a.same b && sameLexemes as bs
  | _, _ => false

mutual

/-- The same expression, up to positions. -/
def same : Expr → Expr → Bool
  | var a, var b => a.same b
  | int a, int b => a.same b
  | real a, real b => a.same b
  | binary l a r, binary l' b r' => l.same l' && a.same b && r.same r'
  | range l r, range l' r' => l.same l' && r.same r'
  | call f as, call g bs => f.same g && sameAll as bs
  | lambda ps b, lambda qs c => sameLexemes ps qs && b.same c
  | _, _ => false

/-- The same expressions one by one, up to positions. -/
def sameAll : List Expr → List Expr → Bool
  | [], [] => true
  | a :: as, b :: bs => a.same b && sameAll as bs
  | _, _ => false

end

end Expr

/-- The same statement, up to positions. -/
def Stmt.same : Stmt → Stmt → Bool
  | declare a v, declare b w => a.same b && v.same w
  | out v, out w => v.same w
  | print s, print t => s == t
  | _, _ => false

/-- The same program, up to positions. -/
def Program.same : Program → Program → Bool
  | [], [] => true
  | s :: ss, t :: ts => s.same t && Program.same ss ts
  | _, _ => false

end RangeScript
