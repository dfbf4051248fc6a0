import RangeScript.Proofs.Fold
import RangeScript.Token.Basic

/-!
# Moving positions

`relocate f` puts whatever stands at a position `p` to the position `f p`, in tokens and in syntax trees,
and changes nothing else. With `Position.forget`, which sends every position to one, it forgets positions:
two trees are the same up to positions exactly if they are equal once these are forgotten
(`Program.same_iff`). Folding a chain of operators commutes with moving (`foldChain_relocate`).
-/

namespace RangeScript

/-- All positions are sent to one. -/
def Position.forget (_ : Position) : Position := .start

/-- The lexeme moved. -/
def Lexeme.relocate (f : Position → Position) (l : Lexeme) : Lexeme := { l with pos := f l.pos }

/-- The token moved. -/
def Token.relocate (f : Position → Position) (t : Token) : Token := { t with pos := f t.pos }

/-- The stream with its tokens and its end moved. -/
def Token.Stream.relocate (f : Position → Position) (s : Token.Stream) : Token.Stream :=
  ⟨s.tokens.map (Token.relocate f), f s.stop⟩

mutual

/-- The expression with all its parts moved. -/
def Expr.relocate (f : Position → Position) : Expr → Expr
  | var name => .var (name.relocate f)
  | int literal => .int (literal.relocate f)
  | real literal => .real (literal.relocate f)
  | binary left op right => .binary (left.relocate f) (op.relocate f) (right.relocate f)
  | range left right => .range (left.relocate f) (right.relocate f)
  | call function args => .call (function.relocate f) (relocateAll f args)
  | lambda params body => .lambda (params.map (Lexeme.relocate f)) (body.relocate f)

def Expr.relocateAll (f : Position → Position) : List Expr → List Expr
  | [] => []
  | e :: es => e.relocate f :: relocateAll f es

end

def Stmt.relocate (f : Position → Position) : Stmt → Stmt
  | declare name value => .declare (name.relocate f) (value.relocate f)
  | out value => .out (value.relocate f)
  | print text => .print text

def Program.relocate (f : Position → Position) (p : Program) : Program := p.map (Stmt.relocate f)

variable (f : Position → Position)

@[simp] theorem Lexeme.text_relocate (l : Lexeme) : (l.relocate f).text = l.text := rfl

@[simp] theorem Token.kind_relocate (t : Token) : (t.relocate f).kind = t.kind := rfl

@[simp] theorem Token.text_relocate (t : Token) : (t.relocate f).text = t.text := rfl

theorem Expr.relocateAll_eq_map (es : List Expr) : relocateAll f es = es.map (relocate f) := by
  induction es with
  | nil => rfl
  | cons e es ih => rw [relocateAll, ih, List.map_cons]

/-- What stands for an expression in messages moves with it. -/
theorem Expr.pos_relocate : (e : Expr) → (e.relocate f).pos = f e.pos
  | var _ | int _ | real _ | binary _ _ _ | call _ _ => rfl
  | range left _ => pos_relocate left
  | lambda [] body => pos_relocate body
  | lambda (_ :: _) _ => rfl

/-! ## Moving twice -/

mutual

theorem Expr.relocate_relocate (g : Position → Position) (e : Expr) :
    (e.relocate f).relocate g = e.relocate (g ∘ f) := by
  cases e <;> simp [relocate, Lexeme.relocate, relocate_relocate, relocateAll_relocateAll]

theorem Expr.relocateAll_relocateAll (g : Position → Position) (es : List Expr) :
    relocateAll g (relocateAll f es) = relocateAll (g ∘ f) es := by
  cases es <;> simp [relocateAll, relocate_relocate, relocateAll_relocateAll]

end

theorem Stmt.relocate_relocate (g : Position → Position) (s : Stmt) :
    (s.relocate f).relocate g = s.relocate (g ∘ f) := by
  cases s <;> simp [relocate, Lexeme.relocate, Expr.relocate_relocate]

theorem Program.relocate_relocate (g : Position → Position) (p : Program) :
    Program.relocate g (Program.relocate f p) = Program.relocate (g ∘ f) p := by
  simp [Program.relocate, Stmt.relocate_relocate]

/-! ## The same up to positions -/

theorem Lexeme.same_iff (a b : Lexeme) :
    a.same b = true ↔ a.relocate Position.forget = b.relocate Position.forget := by
  simp [same, relocate, Position.forget]

theorem Expr.sameLexemes_iff (as bs : List Lexeme) :
    sameLexemes as bs = true ↔
      as.map (Lexeme.relocate Position.forget) = bs.map (Lexeme.relocate Position.forget) := by
  induction as generalizing bs with
  | nil => cases bs <;> simp [sameLexemes]
  | cons a as ih => cases bs <;> simp [sameLexemes, Lexeme.same_iff, ih]

mutual

theorem Expr.same_iff (a b : Expr) :
    a.same b = true ↔ a.relocate Position.forget = b.relocate Position.forget := by
  cases a <;> cases b <;>
    simp [same, relocate, Lexeme.same_iff, sameLexemes_iff, same_iff, sameAll_iff, and_assoc]

theorem Expr.sameAll_iff (as bs : List Expr) :
    sameAll as bs = true ↔ relocateAll Position.forget as = relocateAll Position.forget bs := by
  cases as <;> cases bs <;> simp [sameAll, relocateAll, same_iff, sameAll_iff]

end

theorem Stmt.same_iff (s t : Stmt) :
    s.same t = true ↔ s.relocate Position.forget = t.relocate Position.forget := by
  cases s <;> cases t <;> simp [same, relocate, Lexeme.same_iff, Expr.same_iff]

theorem Program.same_iff (p q : Program) :
    Program.same p q = true ↔
      Program.relocate Position.forget p = Program.relocate Position.forget q := by
  unfold Program.relocate
  induction p generalizing q with
  | nil => cases q <;> simp [Program.same]
  | cons s p ih => cases q <;> simp [Program.same, Stmt.same_iff, ih]

/-! ## Chains -/

/-- An operator and its operand moved. -/
def relocatePair (pair : Lexeme × Expr) : Lexeme × Expr := (pair.1.relocate f, pair.2.relocate f)

namespace Precedence

theorem foldLevel_relocate (level : List String) (first : Expr) (rest : List (Lexeme × Expr)) :
    foldLevel level (first.relocate f) (rest.map (relocatePair f)) =
      ((foldLevel level first rest).1.relocate f,
        (foldLevel level first rest).2.map (relocatePair f)) := by
  induction rest generalizing first with
  | nil => rfl
  | cons pair rest ih =>
    obtain ⟨op, term⟩ := pair
    rw [List.map_cons, relocatePair, foldLevel, foldLevel, Lexeme.text_relocate]
    by_cases h : level.contains op.text = true
    · rw [if_pos h, if_pos h, ← ih, Expr.relocate]
    · rw [if_neg h, if_neg h, ih]
      rfl

theorem foldLevels_relocate (levels : List (List String)) (first : Expr)
    (rest : List (Lexeme × Expr)) :
    foldLevels levels (first.relocate f) (rest.map (relocatePair f)) =
      ((foldLevels levels first rest).1.relocate f,
        (foldLevels levels first rest).2.map (relocatePair f)) := by
  induction levels generalizing first rest with
  | nil => rfl
  | cons level levels ih =>
    rw [foldLevels, foldLevel_relocate]
    exact ih _ _

/-- The expression of a chain that was moved. An error names no position. -/
theorem foldChain_relocate (prec : Precedence) (first : Expr) (rest : List (Lexeme × Expr)) :
    prec.foldChain (first.relocate f) (rest.map (relocatePair f)) =
      (prec.foldChain first rest).map (Expr.relocate f) := by
  unfold foldChain
  rw [foldLevels_relocate]
  rcases foldLevels prec.levels first rest with ⟨e, _ | ⟨pair, left⟩⟩
  · rfl
  · simp [relocatePair, Except.map, Function.comp_def]

end Precedence

end RangeScript
