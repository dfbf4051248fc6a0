import RangeScript.Proofs.Comparison
import RangeScript.Proofs.Inhabitation
import RangeScript.Proofs.Operators

/-!
# Steady expressions have values of their types

Lambdas may stand anywhere here: bound to names, returned by lambdas, collected in sequences. A steady
expression that has a type evaluates to a value that inhabits it, or fails at a limit of numbers and
ranges. The type of a lambda has its body and the types of its scope, so an application is typed in a
scope that is related to the one in which it is evaluated; this is an induction on the bound on active
applications and within it on the expression. Only a reduction needs more: its lambda is typed once, for
the type of the initial value, and applied to accumulators that its own results are.
-/

namespace RangeScript

/-- What `infer` types, taking only equal types for one, `eval` evaluates to a value that inhabits the
type, or up to a limit, in related scopes. -/
def Preserves (infer : Scope Ty → Expr → Outcome TypeError Ty)
    (compared : Scope Ty → Expr → List (Ty × Ty))
    (eval : Scope Value → Expr → Outcome RunError Value) : Prop :=
  ∀ ⦃values : Scope Value⦄ ⦃types : Scope Ty⦄ ⦃e : Expr⦄ ⦃t : Ty⦄,
    Scope.Related Value.Inhabits values types → Steady (compared types e) →
    infer types e = .done t → (eval values e).Sound (·.Inhabits t)

/-! ## Functions -/

/-- A value of a type that is a lambda by its shape is this lambda, in a related scope. -/
theorem Value.Inhabits.closure {v : Value} {t : Ty} {arity : Nat} (hv : v.Inhabits t)
    (h : t.shape = .lambda arity) :
    ∃ params body values types, v = .lambda ⟨params, body, values⟩ ∧
      t = .lambda ⟨params, body, types⟩ ∧ params.length = arity ∧
      Scope.Related Value.Inhabits values types := by
  cases hv with
  | @lambda values types params body hscope =>
    injection h with harity
    exact ⟨params, body, values, types, rfl, rfl, harity, hscope⟩
  | _ => cases h

namespace Builtin

theorem initialArg_of_initialTy {index : Nat} {v : Value} {t : Ty} (hv : v.Inhabits t)
    (h : initialTy index t = .ok ()) : initialArg index v = .ok () := by
  cases hv with
  | lambda _ _ _ => cases h
  | _ => rfl

section Apply
variable {infer : Scope Ty → Expr → Outcome TypeError Ty} {body : Scope Ty → Expr → List (Ty × Ty)}
  {eval : Scope Value → Expr → Outcome RunError Value}

theorem preserves_map (hbody : Preserves infer body eval) {s f : Value} {elem tf result : Ty}
    (hs : s.Inhabits (.seq elem)) (hf : f.Inhabits tf) (hlambda : tf.shape = .lambda 1)
    (hresult : applyTy infer tf [elem] = .done result)
    (hsteady : Steady (map.compared infer body [.seq elem, tf])) :
    (map.call eval [s, f]).Sound (·.Inhabits (.seq result)) := by
  obtain ⟨params, e, values, types, rfl, rfl, harity, hscope⟩ := hf.closure hlambda
  cases hs with
  | @seq elements _ _ _ hall =>
    have hclosure : lambdaArg 2 1 (.lambda ⟨params, e, values⟩) = .ok ⟨params, e, values⟩ :=
      if_pos harity
    simp only [call, seqArg, hclosure, Outcome.ofExcept, Outcome.done_bind]
    refine Outcome.Obeys.bind (Outcome.Obeys.mapM hall ?_) fun vs hvs => Value.inhabits_seqOf hvs
    intro v hv
    exact hbody (hscope.enter (.cons hv .nil) params e) hsteady hresult

/-- The accumulator stays of the type of the initial value, which is the type of the body. -/
theorem preserves_reduce (hbody : Preserves infer body eval) {s v f : Value}
    {elem initial tf result : Ty} (hs : s.Inhabits (.seq elem)) (hv : v.Inhabits initial)
    (hinitial : initialTy 2 initial = .ok ()) (hf : f.Inhabits tf)
    (hlambda : tf.shape = .lambda 2) (hresult : applyTy infer tf [initial, elem] = .done result)
    (hshape : result.shape = initial.shape)
    (hsteady : Steady (reduce.compared infer body [.seq elem, initial, tf])) :
    (reduce.call eval [s, v, f]).Sound (·.Inhabits initial) := by
  obtain ⟨params, e, values, types, rfl, rfl, harity, hscope⟩ := hf.closure hlambda
  replace hresult : infer (Closure.enter ⟨params, e, types⟩ [initial, elem]) e = .done result :=
    hresult
  simp only [compared, hinitial, hresult, accepted, if_pos hshape] at hsteady
  obtain ⟨hinside, hpair⟩ := steady_append.1 hsteady
  have hsame : result = initial := hpair _ List.mem_cons_self
  subst hsame
  cases hs with
  | @seq elements _ _ _ hall =>
    have hclosure : lambdaArg 3 2 (.lambda ⟨params, e, values⟩) = .ok ⟨params, e, values⟩ :=
      if_pos harity
    simp only [call, seqArg, initialArg_of_initialTy hv hinitial, hclosure, Outcome.ofExcept,
      Outcome.done_bind]
    refine Outcome.Obeys.foldlM hall hv ?_
    intro acc x hacc hx
    exact hbody (hscope.enter (.cons hacc (.cons hx .nil)) params e) hinside hresult

theorem preserves_call (hbody : Preserves infer body eval) (f : Builtin) {args : List Value}
    {tys : List Ty} {t : Ty} (hargs : List.Forall₂ Value.Inhabits args tys)
    (hsteady : Steady (f.compared infer body tys))
    (h : f.resultTy infer tys = .done t) : (f.call eval args).Sound (·.Inhabits t) := by
  rcases resultTy_cases h with ⟨elem, tf, result, rfl, rfl, hlambda, hresult, rfl⟩ |
    ⟨elem, initial, tf, result, rfl, rfl, hinitial, hlambda, hresult, hshape, rfl⟩
  · obtain _ | ⟨hs, _ | ⟨hf, _ | _⟩⟩ := hargs
    exact preserves_map hbody hs hf hlambda hresult hsteady
  · obtain _ | ⟨hs, _ | ⟨hv, _ | ⟨hf, _ | _⟩⟩⟩ := hargs
    exact preserves_reduce hbody hs hv hinitial hf hlambda hresult hshape hsteady

end Apply

end Builtin

/-! ## Expressions -/

theorem Ty.isData_of_isNumeric {t : Ty} (h : t.shape.isNumeric = true) : t.IsData := by
  unfold IsData
  rcases hs : t.shape with _ | _ | _ | _ | _ <;> rw [hs] at h <;> cases h <;> rfl

/-- Operands of types that have a result type make a value that inhabits it, or the arithmetic fails. -/
theorem Operator.preserves_apply (operator : Operator) {v w : Value} {t u : Ty} (hv : v.Inhabits t)
    (hw : w.Inhabits u) (op : Lexeme) {s : Shape}
    (h : operator.resultShape t.shape u.shape = .ok s) :
    ((Outcome.ofExcept (operator.apply v w)).mapError (.atOperator op)).Sound
      (·.Inhabits (.ofShape s)) := by
  obtain ⟨ht, hu, hs⟩ := isNumeric_of_resultShape h
  rw [← hv.shape_eq_of_isNumeric ht, ← hw.shape_eq_of_isNumeric hu] at h
  rcases operator.apply_cases v w with ⟨-, hrefused⟩ | ⟨x, happly, hx⟩ |
    ⟨_, _, e, _, -, -, happly, hfault, -⟩
  · cases hrefused.symm.trans h
  · cases hx.symm.trans h
    rw [happly]
    exact Value.inhabits_of_isNumeric hs
  · rw [happly]
    rcases hfault with rfl | rfl <;> rfl

namespace Language

variable {lang : Language}

theorem boundValue_of_inhabits {bound : Expr} {v : Value} {t : Ty} (hv : v.Inhabits t)
    (h : boundTy bound t = .done ()) : ∃ n, boundValue bound v = .done n := by
  cases hv with
  | int n => exact ⟨n, rfl⟩
  | _ => cases h

section With
variable {infer : Scope Ty → Expr → Outcome TypeError Ty} {body : Scope Ty → Expr → List (Ty × Ty)}
  {eval : Scope Value → Expr → Outcome RunError Value} {values : Scope Value} {types : Scope Ty}

mutual

/-- The induction is on the expression; bodies of lambdas are left to `hbody`. -/
theorem preserves_evalWith (hbody : Preserves infer body eval)
    (hscope : Scope.Related Value.Inhabits values types) :
    (e : Expr) → Steady (lang.comparedWith infer body types e) →
    {t : Ty} → lang.inferWith infer types e = .done t →
    (lang.evalWith eval values e).Sound (·.Inhabits t)
  | .int literal, _, t, h => by
    simp only [inferWith, Outcome.bind_eq_done, Outcome.ofExcept_eq_done] at h
    obtain ⟨n, hn, hreturn⟩ := h
    cases hreturn
    rw [evalWith, hn]
    exact .int n
  | .real literal, _, t, h => by
    simp only [inferWith, Outcome.bind_eq_done, Outcome.ofExcept_eq_done] at h
    obtain ⟨x, hx, hreturn⟩ := h
    cases hreturn
    rw [evalWith, hx]
    exact .real x
  | .var name, _, t, h => by
    rw [inferWith, Outcome.ofOption_eq_done] at h
    obtain ⟨v, hv, hty⟩ := hscope.lookup h
    rw [evalWith, hv]
    exact hty
  | .range left right, hsteady, t, h => by
    rw [comparedWith] at hsteady
    obtain ⟨hleft, hright⟩ := steady_append.1 hsteady
    simp only [inferWith, Outcome.bind_eq_done] at h
    obtain ⟨tl, htl, ⟨⟩, hbl, tr, htr, ⟨⟩, hbr, hreturn⟩ := h
    cases hreturn
    rw [evalWith]
    refine (preserves_evalWith hbody hscope left hleft htl).bind fun l hl => ?_
    obtain ⟨lo, hlo⟩ := boundValue_of_inhabits hl hbl
    rw [hlo, Outcome.done_bind]
    refine (preserves_evalWith hbody hscope right hright htr).bind fun r hr => ?_
    obtain ⟨hi, hhi⟩ := boundValue_of_inhabits hr hbr
    rw [hhi, Outcome.done_bind]
    dsimp only
    split
    · exact Value.inhabits_range lo hi
    · rfl
  | .binary left op right, hsteady, t, h => by
    rw [comparedWith] at hsteady
    obtain ⟨hleft, hright⟩ := steady_append.1 hsteady
    simp only [inferWith, Outcome.bind_eq_done, Outcome.ofOption_eq_done, Outcome.mapError_eq_done,
      Outcome.ofExcept_eq_done] at h
    obtain ⟨tl, htl, tr, htr, operator, hop, s, hs, hreturn⟩ := h
    cases hreturn
    rw [evalWith]
    refine (preserves_evalWith hbody hscope left hleft htl).bind fun l hl => ?_
    refine (preserves_evalWith hbody hscope right hright htr).bind fun r hr => ?_
    rw [hop]
    exact operator.preserves_apply hl hr op hs
  | .call function args, hsteady, t, h => by
    rw [comparedWith] at hsteady
    obtain ⟨hargs, hcall⟩ := steady_append.1 hsteady
    simp only [inferWith, Outcome.bind_eq_done, Outcome.ofOption_eq_done,
      Outcome.mapError_eq_done] at h
    obtain ⟨f, hf, tys, htys, hresult⟩ := h
    simp only [comparedByCall, hf, htys] at hcall
    rw [evalWith, hf]
    refine (preserves_evalAllWith hbody hscope args hargs htys).bind fun vs hvs => ?_
    exact (f.preserves_call hbody hvs hcall hresult).inFunction function
  | .lambda params e, _, t, h => by
    rw [inferWith] at h
    split at h
    · cases h
    · cases h
      exact .lambda _ e hscope

theorem preserves_evalAllWith (hbody : Preserves infer body eval)
    (hscope : Scope.Related Value.Inhabits values types) :
    (es : List Expr) → Steady (lang.comparedAllWith infer body types es) →
    {ts : List Ty} → lang.inferAllWith infer types es = .done ts →
    (lang.evalAllWith eval values es).Sound (List.Forall₂ Value.Inhabits · ts)
  | [], _, ts, h => by
    cases h
    exact .nil
  | e :: es, hsteady, ts, h => by
    rw [comparedAllWith] at hsteady
    obtain ⟨he, hes⟩ := steady_append.1 hsteady
    simp only [inferAllWith, Outcome.bind_eq_done] at h
    obtain ⟨t, ht, ts, hts, hreturn⟩ := h
    cases hreturn
    rw [evalAllWith]
    refine (preserves_evalWith hbody hscope e he ht).bind fun v hv => ?_
    refine (preserves_evalAllWith hbody hscope es hes hts).bind fun vs hvs => ?_
    exact .cons hv hvs

end

end With

/-- Types are preserved for each bound on active applications. -/
theorem preserves_at (depth : Nat) :
    Preserves (lang.inferAt depth) (lang.comparedAt depth) (lang.evalAt depth) := by
  induction depth with
  | zero =>
    intro values types e t hscope hsteady h
    refine preserves_evalWith ?_ hscope e hsteady h
    intro values types e t _ _ h
    cases h
  | succ depth ih =>
    intro values types e t hscope hsteady h
    exact preserves_evalWith ih hscope e hsteady h

end Language

end RangeScript
