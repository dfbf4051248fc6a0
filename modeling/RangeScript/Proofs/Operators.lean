import RangeScript.Operator

/-!
# What operators do

An operator has a rule for shapes, `Operator.resultShape`, and one for values, `Operator.apply`. Both refuse what is not
two numbers, with the same error. Of two numbers they make a number of the same shape, unless there is a fault with
whole numbers (`Operator.apply_cases`).
-/

namespace RangeScript

namespace Operator

/-- Operands that are not both numbers are refused, and the error names both. -/
theorem apply_eq_error (operator : Operator) {v w : Value}
    (h : (v.shape.isNumeric && w.shape.isNumeric) = false) :
    operator.apply v w = .error (.typing (.operandTypes v.shape w.shape)) := by
  cases v <;> cases w <;> first | rfl | cases h

theorem resultShape_eq_error (operator : Operator) {left right : Shape}
    (h : (left.isNumeric && right.isNumeric) = false) :
    operator.resultShape left right = .error (.operandTypes left right) := by
  have hpromote : promote left right = .error (.operandTypes left right) := by
    cases left <;> cases right <;> first | rfl | cases h
  cases operator with
  | pow =>
    rw [resultShape, hpromote]
    rfl
  | _ => exact hpromote

theorem resultShape_eq_ok (operator : Operator) {left right : Shape}
    (h : (left.isNumeric && right.isNumeric) = true) :
    ∃ s, operator.resultShape left right = .ok s := by
  obtain ⟨s, hpromote⟩ : ∃ s, promote left right = .ok s := by
    cases left <;> cases right <;> first | exact ⟨_, rfl⟩ | cases h
  cases operator with
  | pow =>
    rw [resultShape, hpromote]
    exact ⟨_, rfl⟩
  | _ => exact ⟨s, hpromote⟩

theorem isNumeric_of_promote {left right s : Shape} (h : promote left right = .ok s) :
    left.isNumeric = true ∧ right.isNumeric = true ∧ s.isNumeric = true := by
  unfold promote at h
  split at h <;> cases h <;> exact ⟨rfl, rfl, rfl⟩

/-- Only numbers have a result type, and the result is a number. -/
theorem isNumeric_of_resultShape {operator : Operator} {left right s : Shape}
    (h : operator.resultShape left right = .ok s) :
    left.isNumeric = true ∧ right.isNumeric = true ∧ s.isNumeric = true := by
  cases operator with
  | pow =>
    rw [resultShape] at h
    rcases hp : promote left right with e | s'
    · rw [hp] at h
      cases h
    · rw [hp] at h
      cases h
      obtain ⟨hleft, hright, -⟩ := isNumeric_of_promote hp
      exact ⟨hleft, hright, rfl⟩
  | _ => exact isNumeric_of_promote h

/-- Whole numbers make a number of the shape that is told for them, or there is a fault. -/
theorem onInts_cases (op : Operator) (a b : Int64) :
    (∃ v, op.onInts a b = .ok v ∧ op.resultShape .int .int = .ok v.shape) ∨
      ∃ e, op.onInts a b = .error e ∧ (e = .overflow op.symbol ∨ e = .divisionByZero) := by
  cases op with
  | add | sub | mul =>
    unfold onInts
    dsimp only
    split
    · exact .inl ⟨_, rfl, rfl⟩
    · exact .inr ⟨_, rfl, .inl rfl⟩
  | div =>
    unfold onInts
    dsimp only
    split
    · exact .inr ⟨_, rfl, .inr rfl⟩
    · split
      · exact .inl ⟨_, rfl, rfl⟩
      · exact .inr ⟨_, rfl, .inl rfl⟩
  | pow => exact .inl ⟨_, rfl, rfl⟩

/-- Operands are refused with the error that is told for their shapes, or make a value of the shape that is told for
them, or are whole numbers with which there is a fault. -/
theorem apply_cases (op : Operator) (l r : Value) :
    (op.apply l r = .error (.typing (.operandTypes l.shape r.shape)) ∧
        op.resultShape l.shape r.shape = .error (.operandTypes l.shape r.shape)) ∨
      (∃ v, op.apply l r = .ok v ∧ op.resultShape l.shape r.shape = .ok v.shape) ∨
      ∃ a b e s, l = .int a ∧ r = .int b ∧ op.apply l r = .error e ∧
        (e = .overflow op.symbol ∨ e = .divisionByZero) ∧ op.resultShape l.shape r.shape = .ok s := by
  cases hnumeric : l.shape.isNumeric && r.shape.isNumeric with
  | false => exact .inl ⟨op.apply_eq_error hnumeric, op.resultShape_eq_error hnumeric⟩
  | true =>
    refine .inr ?_
    cases l with
    | int a =>
      cases r with
      | int b =>
        rcases op.onInts_cases a b with hvalue | ⟨e, he, hfault⟩
        · exact .inl hvalue
        · obtain ⟨s, hs⟩ := op.resultShape_eq_ok hnumeric
          exact .inr ⟨a, b, e, s, rfl, rfl, he, hfault, hs⟩
      | real y => exact .inl ⟨_, rfl, by cases op <;> rfl⟩
      | _ => cases hnumeric
    | real x =>
      cases r with
      | int _ | real _ => exact .inl ⟨_, rfl, by cases op <;> rfl⟩
      | _ => cases hnumeric
    | _ => cases hnumeric

end Operator

end RangeScript
