import RangeScript.Language
import RangeScript.Proofs.Exactness

/-!
# Expressions that can be written

In a text a lambda stands only as an argument of a call, so a program that was read never has a
lambda for a value of its own (`surface_of_parse`). Trees that are built by hand may have lambdas
anywhere.
-/

namespace RangeScript

mutual

/-- Lambdas stand only as arguments of calls. -/
inductive Expr.Surface : Expr → Prop
  | var (name : Lexeme) : Surface (.var name)
  | int (literal : Lexeme) : Surface (.int literal)
  | real (literal : Lexeme) : Surface (.real literal)
  | binary {left right : Expr} (op : Lexeme) :
    Surface left → Surface right → Surface (.binary left op right)
  | range {left right : Expr} : Surface left → Surface right → Surface (.range left right)
  | call {args : List Expr} (function : Lexeme) :
    (∀ a ∈ args, SurfaceArg a) → Surface (.call function args)

/-- What may be an argument: an expression, or a lambda with a body that may be written. -/
inductive Expr.SurfaceArg : Expr → Prop
  | expr {e : Expr} : Surface e → SurfaceArg e
  | lambda {body : Expr} (params : List Lexeme) : Surface body → SurfaceArg (.lambda params body)

end

namespace Expr

theorem surfaceArg_binary {left right : Expr} {op : Lexeme} :
    (binary left op right).SurfaceArg ↔ left.Surface ∧ right.Surface := by
  constructor
  · intro h
    cases h with
    | expr h =>
      cases h with
      | binary _ hleft hright => exact ⟨hleft, hright⟩
  · exact fun ⟨hleft, hright⟩ => .expr (.binary op hleft hright)

theorem surfaceArg_range {left right : Expr} :
    (range left right).SurfaceArg ↔ left.Surface ∧ right.Surface := by
  constructor
  · intro h
    cases h with
    | expr h =>
      cases h with
      | range hleft hright => exact ⟨hleft, hright⟩
  · exact fun ⟨hleft, hright⟩ => .expr (.range hleft hright)

theorem surfaceArg_call {function : Lexeme} {args : List Expr} :
    (call function args).SurfaceArg ↔ ∀ a ∈ args, a.SurfaceArg := by
  constructor
  · intro h
    cases h with
    | expr h =>
      cases h with
      | call _ hargs => exact hargs
  · exact fun hargs => .expr (.call function hargs)

theorem surfaceArg_lambda {params : List Lexeme} {body : Expr} :
    (lambda params body).SurfaceArg ↔ body.Surface := by
  constructor
  · intro h
    cases h with
    | expr h => cases h
    | lambda _ hbody => exact hbody
  · exact .lambda params

end Expr

/-- The statement holds an expression that can be written, if any. -/
def Stmt.Surface : Stmt → Prop
  | declare _ value => value.Surface
  | out value => value.Surface
  | print _ => True

namespace Grammar

variable {prec : Precedence}

section Inside
variable {E : List Token → Expr → Prop} (hE : ∀ {ts : List Token} {e : Expr}, E ts e → e.Surface)
include hE

theorem surfaceArg_of_isArg {ts : List Token} {e : Expr} (h : IsArg E ts e) : e.SurfaceArg := by
  cases h with
  | expr he => exact .expr (hE he)
  | lambda _ _ _ hbody => exact .lambda _ (hE hbody)

theorem surfaceArg_of_isMoreArgs {ts : List Token} {es : List Expr} (h : IsMoreArgs E ts es) :
    ∀ e ∈ es, e.SurfaceArg := by
  induction h with
  | nil => simp
  | cons _ he _ ih => exact List.forall_mem_cons.2 ⟨surfaceArg_of_isArg hE he, ih⟩

theorem surface_of_isAtomOver {ts : List Token} {e : Expr} (h : IsAtomOver E ts e) : e.Surface := by
  cases h with
  | name _ => exact .var _
  | number h =>
    cases h with
    | int _ _ => exact .int _
    | real _ _ => exact .real _
  | parenthesized _ he _ => exact hE he
  | range _ hlo _ hhi _ => exact .range (hE hlo) (hE hhi)
  | call _ _ hfirst hmore _ =>
    refine .call _ (List.forall_mem_cons.2 ⟨?_, ?_⟩)
    · exact surfaceArg_of_isArg hE hfirst
    · exact surfaceArg_of_isMoreArgs hE hmore

theorem surface_of_isTail {ts : List Token} {rest : List (Lexeme × Expr)} (h : IsTail prec E ts rest) :
    ∀ pair ∈ rest, pair.2.Surface := by
  induction h with
  | nil => simp
  | cons _ he _ ih => exact List.forall_mem_cons.2 ⟨hE he, ih⟩

theorem surface_of_isExprOver {ts : List Token} {e : Expr} (h : IsExprOver prec E ts e) :
    e.Surface := by
  cases h with
  | chain hfirst htail hfold =>
    rw [prec.fold_eq_foldChain] at hfold
    exact Precedence.forall_foldChain (fun l op r => .binary op) (hE hfirst)
      (surface_of_isTail hE htail) hfold

end Inside

theorem surface_of_isAtom {depth : Nat} {ts : List Token} {e : Expr} (h : IsAtom prec depth ts e) :
    e.Surface := by
  induction depth generalizing ts e with
  | zero => exact surface_of_isAtomOver (fun h => h.elim) h
  | succ depth ih => exact surface_of_isAtomOver (surface_of_isExprOver ih) h

theorem surface_of_isStatement {ts : List Token} {s : Stmt} (h : IsStatement prec ts s) :
    s.Surface := by
  cases h with
  | declare _ _ _ he => exact surface_of_isExprOver surface_of_isAtom he
  | out _ he => exact surface_of_isExprOver surface_of_isAtom he
  | print _ _ => trivial

theorem surface_of_isProgram {ts : List Token} {p : Program} (h : IsProgram prec ts p) :
    ∀ s ∈ p, s.Surface := by
  induction h with
  | nil => simp
  | cons hs _ ih => exact List.forall_mem_cons.2 ⟨surface_of_isStatement hs, ih⟩

end Grammar

/-- A program that was read has lambdas only as arguments of calls. -/
theorem surface_of_parse {lang : Language} {source : String} {p : Program}
    (h : lang.parse source = .ok p) : ∀ s ∈ p, s.Surface := by
  unfold Language.parse at h
  split at h
  · cases h
  · split at h
    · cases h
    · next hread =>
      cases h
      exact Grammar.surface_of_isProgram (Parse.isProgram_of_program hread)

end RangeScript
