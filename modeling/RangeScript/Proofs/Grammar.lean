import RangeScript.Parse.Program

/-!
# The grammar, apart from any parser

Each nonterminal is a relation between a list of tokens and what the tokens stand for:

* `IsSign`, `IsNumber`, `IsArg`, `IsMoreArgs`, `IsAtomOver`, `IsTail`, `IsExprOver` : one
  constructor for each production, over the expressions or atoms that stand inside;
* `IsAtom prec depth`, `IsExpr prec depth` : atoms and expressions none of whose atoms is enclosed
  in more than `depth` parentheses, ranges and calls;
* `IsStatement`, `IsProgram` : statements and programs, with up to 256 enclosing levels.

Nothing here says in which order alternatives are tried or how far ahead to look.
-/

namespace RangeScript.Grammar

/-- The token is an operator of some level. -/
def IsOperator (prec : Precedence) (t : Token) : Prop :=
  t.kind.isOperator = true ∧ prec.knows t.text = true

/-- `('+' | '-')?`, and whether it is a minus -/
inductive IsSign : List Token → Bool → Prop
  | none : IsSign [] false
  | plus {s : Token} : s.kind = .plus → IsSign [s] false
  | minus {s : Token} : s.kind = .minus → IsSign [s] true

/-- The text of a number: a minus sign is kept, underscores are dropped. -/
def signedDigits (minus : Bool) (digits : String) : String :=
  (if minus then "-" else "") ++ String.ofList (digits.toList.filter (· ≠ '_'))

/-- `number := ('+' | '-')? (real | int)`; a plus sign is dropped -/
inductive IsNumber : List Token → Expr → Prop
  | int {ts : List Token} {t : Token} {minus : Bool} :
    IsSign ts minus → t.kind = .int →
    IsNumber (ts ++ [t]) (.int ⟨signedDigits minus t.text, t.pos⟩)
  | real {ts : List Token} {t : Token} {minus : Bool} :
    IsSign ts minus → t.kind = .real →
    IsNumber (ts ++ [t]) (.real ⟨signedDigits minus t.text, t.pos⟩)

section Inside
variable (expr : List Token → Expr → Prop)

/-- `arg := lambda | expr` and `lambda := name+ '->' expr` -/
inductive IsArg : List Token → Expr → Prop
  | expr {ts : List Token} {e : Expr} : expr ts e → IsArg ts e
  | lambda {params : List Token} {arrow : Token} {ts : List Token} {body : Expr} :
    params ≠ [] → (∀ p ∈ params, p.kind = .name) → arrow.kind = .arrow → expr ts body →
    IsArg (params ++ arrow :: ts) (.lambda (params.map Token.lexeme) body)

/-- `(',' arg)*` -/
inductive IsMoreArgs : List Token → List Expr → Prop
  | nil : IsMoreArgs [] []
  | cons {comma : Token} {ts us : List Token} {e : Expr} {es : List Expr} :
    comma.kind = .comma → IsArg expr ts e → IsMoreArgs us es →
    IsMoreArgs (comma :: (ts ++ us)) (e :: es)

/-- `atom := call | name | number | '(' expr ')' | '{' expr ',' expr '}'` and
`call := name '(' arg (',' arg)* ')'` -/
inductive IsAtomOver : List Token → Expr → Prop
  | name {t : Token} : t.kind = .name → IsAtomOver [t] (.var t.lexeme)
  | number {ts : List Token} {e : Expr} : IsNumber ts e → IsAtomOver ts e
  | parenthesized {l r : Token} {ts : List Token} {e : Expr} :
    l.kind = .leftParen → expr ts e → r.kind = .rightParen → IsAtomOver (l :: (ts ++ [r])) e
  | range {l comma r : Token} {ts us : List Token} {lo hi : Expr} :
    l.kind = .leftBrace → expr ts lo → comma.kind = .comma → expr us hi → r.kind = .rightBrace →
    IsAtomOver (l :: (ts ++ comma :: (us ++ [r]))) (.range lo hi)
  | call {f l r : Token} {ts us : List Token} {first : Expr} {more : List Expr} :
    f.kind = .name → l.kind = .leftParen → IsArg expr ts first → IsMoreArgs expr us more →
    r.kind = .rightParen →
    IsAtomOver (f :: l :: (ts ++ (us ++ [r]))) (.call f.lexeme (first :: more))

end Inside

section Chains
variable (prec : Precedence) (atom : List Token → Expr → Prop)

/-- `(operator atom)*` -/
inductive IsTail : List Token → List (Lexeme × Expr) → Prop
  | nil : IsTail [] []
  | cons {op : Token} {ts us : List Token} {e : Expr} {rest : List (Lexeme × Expr)} :
    IsOperator prec op → atom ts e → IsTail us rest →
    IsTail (op :: (ts ++ us)) ((op.lexeme, e) :: rest)

/-- `expr := atom (operator atom)*`, joined by the precedence of the operators -/
inductive IsExprOver : List Token → Expr → Prop
  | chain {ts us : List Token} {first e : Expr} {rest : List (Lexeme × Expr)} :
    atom ts first → IsTail prec atom us rest →
    prec.fold (first :: rest.map (·.2)) (rest.map (·.1)) = .ok e → IsExprOver (ts ++ us) e

end Chains

variable (prec : Precedence)

/-- Atoms in which no atom is enclosed in more than `depth` parentheses, ranges and calls. -/
def IsAtom : Nat → List Token → Expr → Prop
  | 0 => IsAtomOver fun _ _ => False
  | depth + 1 => IsAtomOver (IsExprOver prec (IsAtom depth))

/-- Expressions in which no atom is enclosed in more than `depth` parentheses, ranges and calls. -/
def IsExpr (depth : Nat) : List Token → Expr → Prop := IsExprOver prec (IsAtom prec depth)

/-- `statement := 'var' name '=' expr | 'out' expr | 'print' string` -/
inductive IsStatement : List Token → Stmt → Prop
  | declare {var name assign : Token} {ts : List Token} {e : Expr} :
    var.kind = .var → name.kind = .name → assign.kind = .assign → IsExpr prec 256 ts e →
    IsStatement (var :: name :: assign :: ts) (.declare name.lexeme e)
  | out {out : Token} {ts : List Token} {e : Expr} :
    out.kind = .out → IsExpr prec 256 ts e → IsStatement (out :: ts) (.out e)
  | print {print text : Token} :
    print.kind = .print → text.kind = .string →
    IsStatement [print, text] (.print (Parse.unquoted text.text))

/-- `program := statement*` -/
inductive IsProgram : List Token → Program → Prop
  | nil : IsProgram [] []
  | cons {ts us : List Token} {s : Stmt} {p : Program} :
    IsStatement prec ts s → IsProgram us p → IsProgram (ts ++ us) (s :: p)

end RangeScript.Grammar
