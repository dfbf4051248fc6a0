import RangeScript.Number.Whole
import RangeScript.Proofs.LambdaDepth

/-!
# Free names

* `Expr.hasFree x e` : `x` occurs in `e` and no lambda around it has it as a parameter;
* `Expr.captures x y e` : a free `x` of `e` stands in the body of a lambda with a parameter `y`;
* `Expr.replace place σ e` : the free names of `e` are replaced as `σ` tells, by other names or by numbers; what
  takes the place of a name stands at `place` of its position;
* `Expr.Context`, `Program.Context` : an expression or a program with a hole, and `fill` for what is in the hole.
-/

namespace RangeScript

/-! ## Names that occur -/

/-- One of the parameters has the name. -/
def binds (params : List Lexeme) (x : String) : Bool := params.any (·.text == x)

theorem binds_iff {params : List Lexeme} {x : String} :
    binds params x = true ↔ x ∈ params.map (·.text) := by
  simp [binds]

theorem binds_eq_false {params : List Lexeme} {x : String} :
    binds params x = false ↔ x ∉ params.map (·.text) := by
  rw [← binds_iff, Bool.not_eq_true]

mutual

/-- The name occurs, and not as that of a parameter of a lambda around it. -/
def Expr.hasFree (x : String) : Expr → Bool
  | var name => name.text == x
  | int _ | real _ => false
  | binary left _ right | range left right => left.hasFree x || right.hasFree x
  | call _ args => anyFree x args
  | lambda params body => !binds params x && body.hasFree x

def Expr.anyFree (x : String) : List Expr → Bool
  | [] => false
  | e :: es => e.hasFree x || anyFree x es

end

/-- The statement declares the name or asks what it stands for. -/
def Stmt.uses (x : String) : Stmt → Bool
  | declare name value => name.text == x || value.hasFree x
  | out value => value.hasFree x
  | print _ => false

mutual

/-- A free `x` stands in the body of a lambda with a parameter `y`. -/
def Expr.captures (x y : String) : Expr → Bool
  | var _ | int _ | real _ => false
  | binary left _ right | range left right => left.captures x y || right.captures x y
  | call _ args => anyCaptures x y args
  | lambda params body =>
    !binds params x && (binds params y && body.hasFree x || body.captures x y)

def Expr.anyCaptures (x y : String) : List Expr → Bool
  | [] => false
  | e :: es => e.captures x y || anyCaptures x y es

end

/-! ## Replacing names -/

/-- What takes the place of a name: another name, or a number. -/
inductive Replacement
  | name (text : String)
  | number (n : Int64)

def Replacement.expr (pos : Position) : Replacement → Expr
  | name text => .var ⟨text, pos⟩
  | number n => .int ⟨Whole.text n, pos⟩

/-- The replacements of names that are no parameters. -/
def Scope.without {α : Type} (params : List Lexeme) (s : Scope α) : Scope α :=
  s.filter fun binding => !binds params binding.1

theorem Scope.get?_without {α : Type} (params : List Lexeme) (s : Scope α) (x : String) :
    (s.without params).get? x = if binds params x then none else s.get? x := by
  unfold without
  induction s with
  | nil => simp [get?]
  | cons binding rest ih =>
    obtain ⟨bound, a⟩ := binding
    by_cases hbound : binds params bound = true
    · rw [List.filter_cons_of_neg (by simpa using hbound), ih]
      split
      · rfl
      · next hx =>
        have hne : x ≠ bound := fun h => hx (h ▸ hbound)
        rw [get?, if_neg hne]
    · rw [List.filter_cons_of_pos (by simpa using hbound), get?, get?, ih]
      by_cases hx : x = bound
      · rw [if_pos hx, if_pos hx, hx, if_neg hbound]
      · rw [if_neg hx, if_neg hx]

mutual

/-- The expression with its free names replaced. -/
def Expr.replace (place : Position → Position) (σ : Scope Replacement) : Expr → Expr
  | var name =>
    match σ.get? name.text with
    | some r => r.expr (place name.pos)
    | none => var name
  | int literal => int literal
  | real literal => real literal
  | binary left op right => binary (left.replace place σ) op (right.replace place σ)
  | range left right => range (left.replace place σ) (right.replace place σ)
  | call function args => call function (replaceAll place σ args)
  | lambda params body => lambda params (body.replace place (σ.without params))

def Expr.replaceAll (place : Position → Position) (σ : Scope Replacement) : List Expr → List Expr
  | [] => []
  | e :: es => e.replace place σ :: replaceAll place σ es

end

section Nothing
variable (place : Position → Position)

mutual

/-- Nothing is replaced. -/
theorem Expr.replace_nil : (e : Expr) → e.replace place [] = e
  | var _ | int _ | real _ => rfl
  | binary left op right => by rw [replace, replace_nil left, replace_nil right]
  | range left right => by rw [replace, replace_nil left, replace_nil right]
  | call function args => by rw [replace, replaceAll_nil args]
  | lambda params body => congrArg (lambda params) (replace_nil body)

theorem Expr.replaceAll_nil : (es : List Expr) → replaceAll place [] es = es
  | [] => rfl
  | e :: es => by rw [replaceAll, replace_nil e, replaceAll_nil es]

end

end Nothing

/-- The name `y` in the place of the name `x`. -/
def renamed (x y name : String) : String := if name = x then y else name

def Lexeme.rename (x y : String) (l : Lexeme) : Lexeme := ⟨renamed x y l.text, l.pos⟩

/-! ## Holes -/

/-- An expression with a hole. -/
inductive Expr.Context
  | hole
  | left (inside : Context) (op : Lexeme) (other : Expr)
  | right (other : Expr) (op : Lexeme) (inside : Context)
  | lower (inside : Context) (other : Expr)
  | upper (other : Expr) (inside : Context)
  | arg (function : Lexeme) (before : List Expr) (inside : Context) (after : List Expr)
  | body (params : List Lexeme) (inside : Context)

namespace Expr.Context

/-- The expression with `e` in the hole. -/
def fill (e : Expr) : Context → Expr
  | hole => e
  | left inside op other => .binary (inside.fill e) op other
  | right other op inside => .binary other op (inside.fill e)
  | lower inside other => .range (inside.fill e) other
  | upper other inside => .range other (inside.fill e)
  | arg function before inside after => .call function (before ++ inside.fill e :: after)
  | body params inside => .lambda params (inside.fill e)

end Expr.Context

/-- A statement with a hole in its expression. -/
inductive Stmt.Context
  | declare (name : Lexeme) (inside : Expr.Context)
  | out (inside : Expr.Context)

def Stmt.Context.fill (e : Expr) : Stmt.Context → Stmt
  | declare name inside => .declare name (inside.fill e)
  | out inside => .out (inside.fill e)

/-- A program with a hole in one of its statements. -/
structure Program.Context where
  before : Program
  stmt : Stmt.Context
  after : Program

def Program.Context.fill (e : Expr) (c : Program.Context) : Program :=
  c.before ++ c.stmt.fill e :: c.after

end RangeScript
