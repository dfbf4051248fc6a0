import RangeScript.Evaluation
import RangeScript.Proofs.Equality
import RangeScript.Proofs.Outcomes

/-!
# What reductions take for one type

A reduction is typed if the result of its lambda has the type of its initial value. The two are compared
by shape, so lambdas of any bodies are taken for one type if they have equally many parameters.
`Language.comparedAt` lists the pairs of types that are taken for one in this way while an expression is
typed, bodies of applied lambdas included, and `Language.comparedIn` those of a program. What is typed is
steady if these are pairs of equal types (`Steady`): then accumulators have the type of the initial value
in every round.
-/

namespace RangeScript

/-- The pairs are pairs of equal types. -/
def Steady (pairs : List (Ty × Ty)) : Prop := ∀ pair ∈ pairs, pair.2 = pair.1

instance (pairs : List (Ty × Ty)) : Decidable (Steady pairs) :=
  inferInstanceAs (Decidable (∀ pair ∈ pairs, pair.2 = pair.1))

@[simp] theorem steady_nil : Steady [] := by
  intro pair hpair
  cases hpair

theorem steady_append {pairs more : List (Ty × Ty)} :
    Steady (pairs ++ more) ↔ Steady pairs ∧ Steady more := List.forall_mem_append

namespace Builtin

/-! ## What it takes for a function to be typed -/

theorem seqTy_eq_ok {index : Nat} {t elem : Ty} : seqTy index t = .ok elem ↔ t = .seq elem := by
  cases t <;> simp [seqTy]

theorem lambdaTy_eq_ok {index arity : Nat} {t : Ty} :
    lambdaTy index arity t = .ok () ↔ t.shape = .lambda arity := by
  unfold lambdaTy
  rcases t.shape with _ | _ | _ | _ | n
  case lambda => by_cases h : n = arity <;> simp [h]
  all_goals simp

/-- The arguments of a function that is typed, the type of the body of its lambda, and the type of its
result. -/
theorem resultTy_cases {infer : Scope Ty → Expr → Outcome TypeError Ty} {f : Builtin}
    {tys : List Ty} {t : Ty} (h : f.resultTy infer tys = .done t) :
    (∃ elem tf result, f = map ∧ tys = [.seq elem, tf] ∧ tf.shape = .lambda 1 ∧
      applyTy infer tf [elem] = .done result ∧ t = .seq result) ∨
    ∃ elem initial tf result, f = reduce ∧ tys = [.seq elem, initial, tf] ∧
      initialTy 2 initial = .ok () ∧ tf.shape = .lambda 2 ∧
      applyTy infer tf [initial, elem] = .done result ∧ result.shape = initial.shape ∧
      t = initial := by
  unfold resultTy at h
  split at h
  · next s tf =>
    simp only [Outcome.bind_eq_done, Outcome.ofExcept_eq_done, seqTy_eq_ok] at h
    obtain ⟨elem, rfl, ⟨⟩, hlambda, result, hresult, hreturn⟩ := h
    cases hreturn
    exact .inl ⟨elem, tf, result, rfl, rfl, lambdaTy_eq_ok.1 hlambda, hresult, rfl⟩
  · next s initial tf =>
    simp only [Outcome.bind_eq_done, Outcome.ofExcept_eq_done, seqTy_eq_ok] at h
    obtain ⟨elem, rfl, ⟨⟩, hinitial, ⟨⟩, hlambda, result, hresult, hreturn⟩ := h
    split at hreturn
    · next hshape =>
      cases hreturn
      refine .inr ⟨elem, _, tf, result, rfl, rfl, hinitial, ?_, hresult, hshape, rfl⟩
      exact lambdaTy_eq_ok.1 hlambda
    · cases hreturn
  · cases h

/-! ## Pairs -/

/-- The types of an initial value and of a result, if a reduction takes them for one. -/
def accepted (initial : Ty) : Outcome TypeError Ty → List (Ty × Ty)
  | .done result => if result.shape = initial.shape then [(initial, result)] else []
  | _ => []

/-- The pairs that are taken for one when a function is typed, where `body` lists those of the body of
a lambda. -/
def compared (infer : Scope Ty → Expr → Outcome TypeError Ty)
    (body : Scope Ty → Expr → List (Ty × Ty)) : Builtin → List Ty → List (Ty × Ty)
  | map, [.seq elem, .lambda c] => body (c.enter [elem]) c.body
  | reduce, [.seq elem, initial, .lambda c] =>
    match initialTy 2 initial with
    | .ok () =>
      body (c.enter [initial, elem]) c.body ++
        accepted initial (infer (c.enter [initial, elem]) c.body)
    | .error _ => []
  | _, _ => []

end Builtin

namespace Language

variable (lang : Language)

section With
variable (infer : Scope Ty → Expr → Outcome TypeError Ty) (body : Scope Ty → Expr → List (Ty × Ty))

/-- The pairs of a call, beside those of its arguments. -/
def comparedByCall (types : Scope Ty) (function : Lexeme) (args : List Expr) : List (Ty × Ty) :=
  match lang.function? function.text, lang.inferAllWith infer types args with
  | some f, .done tys => f.compared infer body tys
  | _, _ => []

mutual

/-- The pairs of types that reductions take for one while an expression is typed. -/
def comparedWith (types : Scope Ty) : Expr → List (Ty × Ty)
  | .binary left _ right => comparedWith types left ++ comparedWith types right
  | .range left right => comparedWith types left ++ comparedWith types right
  | .call function args =>
    comparedAllWith types args ++ comparedByCall lang infer body types function args
  | .var _ | .int _ | .real _ | .lambda _ _ => []

/-- The pairs of expressions. -/
def comparedAllWith (types : Scope Ty) : List Expr → List (Ty × Ty)
  | [] => []
  | e :: es => comparedWith types e ++ comparedAllWith types es

end

end With

/-- The pairs of an expression, with at most `depth` applications of lambdas active at once. -/
def comparedAt : Nat → Scope Ty → Expr → List (Ty × Ty)
  | 0 => comparedWith lang (fun _ _ => .unfinished) fun _ _ => []
  | depth + 1 => comparedWith lang (lang.inferAt depth) (comparedAt depth)

/-- The pairs of a statement. -/
def comparedBy (types : Scope Ty) : Stmt → List (Ty × Ty)
  | .declare _ value | .out value => lang.comparedAt lang.callDepth types value
  | .print _ => []

/-- The pairs of a program, as far as it passes its check. -/
def comparedIn (types : Scope Ty) : Program → List (Ty × Ty)
  | [] => []
  | stmt :: rest =>
    lang.comparedBy types stmt ++
      match lang.check types stmt with
      | .done types => comparedIn types rest
      | _ => []

end Language

end RangeScript
