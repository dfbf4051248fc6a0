import RangeScript.Expr.Basic
import RangeScript.Outcome
import RangeScript.Ty.Basic

/-!
# Equality of syntax trees, types and outcomes can be decided

Trees with their positions, so this is finer than `Expr.same`, and types with the bodies and scopes of
their lambdas, so this is finer than equality of shapes. It lets facts about what is read from a given
text, and about how it ends, be decided by evaluation.
-/

namespace RangeScript

namespace Expr

mutual

/-- Whether two expressions are equal, positions included. -/
def beq : Expr → Expr → Bool
  | var a, var b => decide (a = b)
  | int a, int b => decide (a = b)
  | real a, real b => decide (a = b)
  | binary l op r, binary l' op' r' => l.beq l' && decide (op = op') && r.beq r'
  | range l r, range l' r' => l.beq l' && r.beq r'
  | call f as, call g bs => decide (f = g) && beqAll as bs
  | lambda ps b, lambda qs c => decide (ps = qs) && b.beq c
  | _, _ => false

/-- Whether two lists of expressions are equal, positions included. -/
def beqAll : List Expr → List Expr → Bool
  | [], [] => true
  | a :: as, b :: bs => a.beq b && beqAll as bs
  | _, _ => false

end

mutual

theorem beq_iff (a b : Expr) : a.beq b = true ↔ a = b := by
  cases a <;> cases b <;> simp [beq, beq_iff, beqAll_iff, and_assoc]

theorem beqAll_iff (as bs : List Expr) : beqAll as bs = true ↔ as = bs := by
  cases as <;> cases bs <;> simp [beqAll, beq_iff, beqAll_iff]

end

instance : DecidableEq Expr := fun a b => decidable_of_iff _ (beq_iff a b)

end Expr

namespace Ty

mutual

/-- Whether two types are equal, the bodies and scopes of lambdas included. -/
def beq : Ty → Ty → Bool
  | nothing, nothing => true
  | int, int => true
  | real, real => true
  | seq a, seq b => a.beq b
  | callable m, callable n => decide (m = n)
  | lambda ⟨ps, e, s⟩, lambda ⟨qs, e', s'⟩ => decide (ps = qs) && decide (e = e') && beqScope s s'
  | _, _ => false

/-- Whether two scopes of types are equal. -/
def beqScope : List (String × Ty) → List (String × Ty) → Bool
  | [], [] => true
  | (name, t) :: s, (name', t') :: s' => decide (name = name') && t.beq t' && beqScope s s'
  | _, _ => false

end

mutual

theorem beq_iff (a b : Ty) : a.beq b = true ↔ a = b := by
  cases a with
  | lambda c =>
    obtain ⟨ps, e, s⟩ := c
    cases b with
    | lambda c' =>
      obtain ⟨ps', e', s'⟩ := c'
      simp [beq, beqScope_iff, and_assoc]
    | _ => simp [beq]
  | _ => cases b <;> simp [beq, beq_iff]

theorem beqScope_iff : (s s' : List (String × Ty)) → (beqScope s s' = true ↔ s = s')
  | [], [] | [], _ :: _ | _ :: _, [] => by simp [beqScope]
  | (name, t) :: s, (name', t') :: s' => by simp [beqScope, beq_iff, beqScope_iff, and_assoc]

end

instance : DecidableEq Ty := fun a b => decidable_of_iff _ (beq_iff a b)

end Ty

deriving instance DecidableEq for Stmt

deriving instance DecidableEq for Outcome

end RangeScript
