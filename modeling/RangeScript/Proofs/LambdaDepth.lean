import RangeScript.Proofs.Preservation

/-!
# How deep lambdas are nested

* `Expr.lambdaDepth e` : the largest number of lambdas of `e` that stand inside each other;
* `Expr.Written lang e` : `e` was read, alone or as part of a statement of a text. A lambda is an argument of
  a call and calls are nested up to a limit, so no more than `Parse.maxNesting` lambdas are nested in
  what was read (`Expr.Written.lambdaDepth_le`).
-/

namespace RangeScript

mutual

/-- How many lambdas stand inside each other. -/
def Expr.lambdaDepth : Expr → Nat
  | var _ | int _ | real _ => 0
  | binary left _ right | range left right => Nat.max left.lambdaDepth right.lambdaDepth
  | call _ args => lambdaDepthAll args
  | lambda _ body => body.lambdaDepth + 1

/-- The largest depth of some expressions. -/
def Expr.lambdaDepthAll : List Expr → Nat
  | [] => 0
  | e :: es => Nat.max e.lambdaDepth (lambdaDepthAll es)

end

theorem Expr.lambdaDepth_binary_le {left right : Expr} {op : Lexeme} {d : Nat} :
    (Expr.binary left op right).lambdaDepth ≤ d ↔ left.lambdaDepth ≤ d ∧ right.lambdaDepth ≤ d := by
  rw [lambdaDepth]
  exact Nat.max_le

theorem Expr.lambdaDepth_range_le {left right : Expr} {d : Nat} :
    (Expr.range left right).lambdaDepth ≤ d ↔ left.lambdaDepth ≤ d ∧ right.lambdaDepth ≤ d := by
  rw [lambdaDepth]
  exact Nat.max_le

theorem Expr.lambdaDepthAll_cons_le {e : Expr} {es : List Expr} {d : Nat} :
    lambdaDepthAll (e :: es) ≤ d ↔ e.lambdaDepth ≤ d ∧ lambdaDepthAll es ≤ d := by
  rw [lambdaDepthAll]
  exact Nat.max_le

theorem Expr.lambdaDepth_le_of_mem {e : Expr} {es : List Expr} {d : Nat} (h : lambdaDepthAll es ≤ d)
    (he : e ∈ es) : e.lambdaDepth ≤ d := by
  induction es with
  | nil => cases he
  | cons e' es ih =>
    obtain ⟨he', hes⟩ := lambdaDepthAll_cons_le.1 h
    rcases List.mem_cons.1 he with rfl | he
    · exact he'
    · exact ih hes he

/-- The expression in a statement. -/
def Stmt.value? : Stmt → Option Expr
  | declare _ value | out value => some value
  | print _ => none

/-- How many lambdas stand inside each other in a statement. -/
def Stmt.lambdaDepth : Stmt → Nat
  | declare _ value | out value => value.lambdaDepth
  | print _ => 0

/-! ## What is read -/

namespace Grammar

open RangeScript.Expr

variable {prec : Precedence}

section Inside
variable {E : List Token → Expr → Prop} {d : Nat}
  (hE : ∀ {ts : List Token} {e : Expr}, E ts e → e.lambdaDepth + 1 ≤ d)
include hE

/-- A lambda adds one to the depth of its body. -/
theorem lambdaDepth_le_of_isArg {ts : List Token} {e : Expr} (h : IsArg E ts e) :
    e.lambdaDepth ≤ d := by
  cases h with
  | expr he => exact Nat.le_of_succ_le (hE he)
  | lambda _ _ _ hbody =>
    rw [lambdaDepth]
    exact hE hbody

theorem lambdaDepthAll_le_of_isMoreArgs {ts : List Token} {es : List Expr}
    (h : IsMoreArgs E ts es) : lambdaDepthAll es ≤ d := by
  induction h with
  | nil => exact Nat.zero_le d
  | cons _ he _ ih => exact lambdaDepthAll_cons_le.2 ⟨lambdaDepth_le_of_isArg hE he, ih⟩

theorem lambdaDepth_le_of_isAtomOver {ts : List Token} {e : Expr} (h : IsAtomOver E ts e) :
    e.lambdaDepth ≤ d := by
  cases h with
  | name _ => exact Nat.zero_le d
  | number h => cases h <;> exact Nat.zero_le d
  | parenthesized _ he _ => exact Nat.le_of_succ_le (hE he)
  | range _ hlo _ hhi _ =>
    exact lambdaDepth_range_le.2 ⟨Nat.le_of_succ_le (hE hlo), Nat.le_of_succ_le (hE hhi)⟩
  | call _ _ hfirst hmore _ =>
    rw [lambdaDepth]
    exact lambdaDepthAll_cons_le.2
      ⟨lambdaDepth_le_of_isArg hE hfirst, lambdaDepthAll_le_of_isMoreArgs hE hmore⟩

end Inside

section Chains
variable {E : List Token → Expr → Prop} {d : Nat}
  (hE : ∀ {ts : List Token} {e : Expr}, E ts e → e.lambdaDepth ≤ d)
include hE

theorem lambdaDepth_le_of_isTail {ts : List Token} {rest : List (Lexeme × Expr)}
    (h : IsTail prec E ts rest) : ∀ pair ∈ rest, pair.2.lambdaDepth ≤ d := by
  induction h with
  | nil => simp
  | cons _ he _ ih => exact List.forall_mem_cons.2 ⟨hE he, ih⟩

theorem lambdaDepth_le_of_isExprOver {ts : List Token} {e : Expr} (h : IsExprOver prec E ts e) :
    e.lambdaDepth ≤ d := by
  cases h with
  | chain hfirst htail hfold =>
    rw [prec.fold_eq_foldChain] at hfold
    have hjoin : ∀ l op r, l.lambdaDepth ≤ d → r.lambdaDepth ≤ d →
        (Expr.binary l op r).lambdaDepth ≤ d :=
      fun l op r hl hr => lambdaDepth_binary_le.2 ⟨hl, hr⟩
    exact Precedence.forall_foldChain (P := (·.lambdaDepth ≤ d)) hjoin (hE hfirst)
      (lambdaDepth_le_of_isTail hE htail) hfold

end Chains

theorem lambdaDepth_le_of_isAtom {depth : Nat} {ts : List Token} {e : Expr}
    (h : IsAtom prec depth ts e) : e.lambdaDepth ≤ depth := by
  induction depth generalizing ts e with
  | zero => exact lambdaDepth_le_of_isAtomOver (fun h => h.elim) h
  | succ depth ih =>
    refine lambdaDepth_le_of_isAtomOver (fun h => ?_) h
    exact Nat.succ_le_succ (lambdaDepth_le_of_isExprOver ih h)

theorem lambdaDepth_le_of_isExpr {depth : Nat} {ts : List Token} {e : Expr}
    (h : IsExpr prec depth ts e) : e.lambdaDepth ≤ depth :=
  lambdaDepth_le_of_isExprOver lambdaDepth_le_of_isAtom h

theorem lambdaDepth_le_of_isProgram {ts : List Token} {p : Program} (h : IsProgram prec ts p) :
    ∀ stmt ∈ p, stmt.lambdaDepth ≤ 256 := by
  induction h with
  | nil => simp
  | cons hs _ ih =>
    refine List.forall_mem_cons.2 ⟨?_, ih⟩
    cases hs with
    | declare _ _ _ he => exact lambdaDepth_le_of_isExpr he
    | out _ he => exact lambdaDepth_le_of_isExpr he
    | print _ _ => exact Nat.zero_le _

end Grammar

theorem lambdaDepth_le_of_parse {lang : Language} {source : String} {p : Program}
    (h : lang.parse source = .ok p) : ∀ stmt ∈ p, stmt.lambdaDepth ≤ Parse.maxNesting := by
  unfold Language.parse at h
  split at h
  · cases h
  · split at h
    · cases h
    · next hread =>
      cases h
      exact Grammar.lambdaDepth_le_of_isProgram (Parse.isProgram_of_program hread)

/-- The expression was read, alone or in a statement of a text. -/
inductive Expr.Written (lang : Language) : Expr → Prop
  | alone {prec : Precedence} {stream : Token.Stream} {e : Expr} :
    Parse.expression prec stream = .ok e → Written lang e
  | inside {text : String} {p : Program} {stmt : Stmt} {e : Expr} :
    lang.parse text = .ok p → stmt ∈ p → stmt.value? = some e → Written lang e

namespace Expr.Written

variable {lang : Language} {e : Expr}

theorem surface (h : e.Written lang) : e.Surface := by
  cases h with
  | alone hread => exact surface_of_expression hread
  | @inside _ _ stmt _ hparse hmem hvalue =>
    have hstmt : stmt.Surface := surface_of_parse hparse stmt hmem
    cases stmt <;> cases hvalue <;> exact hstmt

theorem lambdaDepth_le (h : e.Written lang) : e.lambdaDepth ≤ Parse.maxNesting := by
  cases h with
  | alone hread =>
    obtain ⟨ts, hts⟩ := Parse.isExpr_of_expression hread
    exact Grammar.lambdaDepth_le_of_isExpr hts
  | @inside _ _ stmt _ hparse hmem hvalue =>
    have hstmt : stmt.lambdaDepth ≤ Parse.maxNesting := lambdaDepth_le_of_parse hparse stmt hmem
    cases stmt <;> cases hvalue <;> exact hstmt

end Expr.Written

end RangeScript
