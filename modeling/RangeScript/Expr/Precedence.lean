import RangeScript.Expr.Basic

/-!
# Precedence of operators

A table of levels says which operators bind tighter. A chain `t₀ o₁ t₁ … oₙ tₙ` becomes one
expression by one pass per level, tightest first: a pass joins every pair of neighbours with an
operator of its level, from left to right, so operators of one level associate to the left.
-/

namespace RangeScript

/-- The levels of operator symbols, the tightest first. -/
structure Precedence where
  levels : List (List String)
deriving DecidableEq, Repr

/-- Operators of no level between terms that could therefore not be joined. -/
structure FoldError where
  terms : Nat
  symbols : List String
deriving DecidableEq, Repr

def FoldError.message (e : FoldError) : String :=
  "internal error: precedence fold left " ++ toString e.terms ++ " terms and operators [" ++
    ", ".intercalate e.symbols ++ "]"

namespace Precedence

/-- Powers bind tightest, then products and quotients, then sums and differences. -/
def standard : Precedence := ⟨[["^"], ["*", "/"], ["+", "-"]]⟩

/-- Whether the symbol is on some level. -/
def knows (p : Precedence) (symbol : String) : Bool := p.levels.any (·.contains symbol)

/-- One pass over the chain of `first` and `rest`: operators of `level` are joined at once, the
others are left for a later pass. -/
def foldLevel (level : List String) (first : Expr) :
    List (Lexeme × Expr) → Expr × List (Lexeme × Expr)
  | [] => (first, [])
  | (op, term) :: rest =>
    if level.contains op.text then foldLevel level (.binary first op term) rest
    else
      let (next, left) := foldLevel level term rest
      (first, (op, next) :: left)

/-- The passes of all levels over a chain. -/
def foldLevels : List (List String) → Expr → List (Lexeme × Expr) → Expr × List (Lexeme × Expr)
  | [], first, rest => (first, rest)
  | level :: levels, first, rest =>
    let (first, rest) := foldLevel level first rest
    foldLevels levels first rest

/-- The expression of the chain of `first` and `rest`. -/
def foldChain (p : Precedence) (first : Expr) (rest : List (Lexeme × Expr)) :
    Except FoldError Expr :=
  match foldLevels p.levels first rest with
  | (e, []) => .ok e
  | (_, left@(_ :: _)) => .error ⟨left.length + 1, left.map (·.1.text)⟩

/-- The expression of the terms with the operators between them: one term more than operators. -/
def fold (p : Precedence) (terms : List Expr) (ops : List Lexeme) : Except FoldError Expr :=
  match terms with
  | first :: rest =>
    if rest.length = ops.length then p.foldChain first (ops.zip rest)
    else .error ⟨terms.length, ops.map (·.text)⟩
  | [] => .error ⟨0, ops.map (·.text)⟩

end Precedence

end RangeScript
