import RangeScript.Proofs.ClosureSoundness
import RangeScript.Proofs.Surface

/-!
# Types of expressions that can be written

In a text a lambda stands only as an argument, so no name is ever bound to one. Where all names have
types of data, an expression that can be written has a type of data, and reductions take only equal types
for one, because shape tells types of data apart (`Tame`). So such expressions are steady.
-/

namespace RangeScript

theorem Scope.mem_of_get? {α : Type} {s : Scope α} {name : String} {a : α}
    (h : s.get? name = some a) : (name, a) ∈ s := by
  induction s with
  | nil => cases h
  | cons binding rest ih =>
    obtain ⟨bound, b⟩ := binding
    unfold get? at h
    by_cases hname : name = bound
    · rw [if_pos hname] at h
      cases h
      rw [hname]
      exact List.mem_cons_self
    · rw [if_neg hname] at h
      exact List.mem_cons_of_mem _ (ih h)

/-- All names have types of data. -/
def Scope.IsData (types : Scope Ty) : Prop := ∀ binding ∈ types, binding.2.IsData

theorem Scope.IsData.enter {types : Scope Ty} (h : IsData types) {args : List Ty}
    (hargs : ∀ t ∈ args, t.IsData) (params : List String) (body : Expr) :
    IsData (Closure.enter ⟨params, body, types⟩ args) := by
  intro binding hbinding
  rcases List.mem_append.1 hbinding with hparam | hrest
  · exact hargs binding.2 (List.of_mem_zip (List.mem_reverse.1 hparam)).2
  · exact h binding hrest

/-- The type of an argument that is written in the scope: a type of data, or a lambda. -/
inductive Ty.IsArg (types : Scope Ty) : Ty → Prop
  | data {t : Ty} : t.IsData → IsArg types t
  | lambda {body : Expr} (params : List String) :
    body.Surface → IsArg types (.lambda ⟨params, body, types⟩)

theorem Ty.IsArg.elem {types : Scope Ty} {elem : Ty} (h : IsArg types (.seq elem)) : elem.IsData := by
  cases h with
  | data h => exact h

/-- An argument that is a lambda by its shape was written where it stands. -/
theorem Ty.IsArg.closure {types : Scope Ty} {t : Ty} {arity : Nat} (h : IsArg types t)
    (hshape : t.shape = .lambda arity) :
    ∃ params body, t = .lambda ⟨params, body, types⟩ ∧ body.Surface := by
  cases h with
  | data h =>
    unfold IsData at h
    rw [hshape] at h
    cases h
  | @lambda body params hbody => exact ⟨params, body, rfl, hbody⟩

/-- In scopes of data, what can be written has a type of data and takes only equal types for one. -/
structure Tame (infer : Scope Ty → Expr → Outcome TypeError Ty)
    (compared : Scope Ty → Expr → List (Ty × Ty)) : Prop where
  isData : ∀ {types : Scope Ty} {e : Expr} {t : Ty}, types.IsData → e.Surface →
    infer types e = .done t → t.IsData
  steady : ∀ {types : Scope Ty} {e : Expr}, types.IsData → e.Surface → Steady (compared types e)

section Inside
variable {lang : Language} {infer : Scope Ty → Expr → Outcome TypeError Ty}
  {body : Scope Ty → Expr → List (Ty × Ty)} {types : Scope Ty}

/-! ## Functions -/

namespace Builtin

theorem isData_of_initialTy {index : Nat} {t : Ty} (ht : t.IsArg types)
    (h : initialTy index t = .ok ()) : t.IsData := by
  cases ht with
  | data ht => exact ht
  | lambda params _ => cases h

theorem isData_resultTy (hbody : Tame infer body) (hscope : types.IsData) {f : Builtin}
    {tys : List Ty} (htys : ∀ ty ∈ tys, ty.IsArg types) {t : Ty}
    (h : f.resultTy infer tys = .done t) : t.IsData := by
  rcases resultTy_cases h with ⟨elem, tf, result, rfl, rfl, hlambda, hresult, rfl⟩ |
    ⟨elem, initial, tf, result, rfl, rfl, hinitial, -, -, -, rfl⟩
  · have helem : elem.IsData := (htys _ List.mem_cons_self).elem
    obtain ⟨params, e, rfl, he⟩ := (htys tf (by simp)).closure hlambda
    have hinside : Scope.IsData (Closure.enter ⟨params, e, types⟩ [elem]) :=
      hscope.enter (by simpa using helem) params e
    show result.IsData
    exact hbody.isData hinside he hresult
  · exact isData_of_initialTy (htys t (by simp)) hinitial

/-- The two types that a reduction compares are types of data, so if their shapes are the same they are
equal. -/
theorem steady_accepted (hbody : Tame infer body) (hscope : types.IsData) {e : Expr}
    (he : e.Surface) (initial : Ty) :
    Steady (accepted initial (infer types e)) := by
  rcases hresult : infer types e with result | err | _
  · unfold accepted
    dsimp only
    split
    · next hshape =>
      intro pair hpair
      rw [List.mem_singleton.1 hpair]
      exact (hbody.isData hscope he hresult).eq_of_shape hshape
    · simp
  · simp [accepted]
  · simp [accepted]

theorem steady_compared (hbody : Tame infer body) (hscope : types.IsData) (f : Builtin)
    {tys : List Ty} (htys : ∀ ty ∈ tys, ty.IsArg types) :
    Steady (f.compared infer body tys) := by
  unfold compared
  split
  · next elem c =>
    have helem : elem.IsData := (htys _ List.mem_cons_self).elem
    obtain ⟨params, e, hc, he⟩ := (htys (.lambda c) (by simp)).closure rfl
    cases hc
    have hinside : Scope.IsData (Closure.enter ⟨params, e, types⟩ [elem]) :=
      hscope.enter (by simpa using helem) params e
    exact hbody.steady hinside he
  · next elem initial c =>
    have helem : elem.IsData := (htys _ List.mem_cons_self).elem
    obtain ⟨params, e, hc, he⟩ := (htys (.lambda c) (by simp)).closure rfl
    cases hc
    split
    · next hinitial =>
      have hdata : initial.IsData := isData_of_initialTy (htys initial (by simp)) hinitial
      have hinside : Scope.IsData (Closure.enter ⟨params, e, types⟩ [initial, elem]) :=
        hscope.enter (by simp [hdata, helem]) params e
      exact steady_append.2
        ⟨hbody.steady hinside he, steady_accepted hbody hinside he initial⟩
    · simp
  · simp

end Builtin

/-! ## Expressions -/

namespace Language

mutual

/-- The type of what can be written, by induction on it. -/
theorem isData_inferWith (hbody : Tame infer body) (hscope : types.IsData) :
    (e : Expr) → e.Surface → {t : Ty} → lang.inferWith infer types e = .done t → t.IsData
  | .int _, _, t, h => by
    simp only [inferWith, Outcome.bind_eq_done] at h
    obtain ⟨_, -, hreturn⟩ := h
    cases hreturn
    rfl
  | .real _, _, t, h => by
    simp only [inferWith, Outcome.bind_eq_done] at h
    obtain ⟨_, -, hreturn⟩ := h
    cases hreturn
    rfl
  | .var name, _, t, h => by
    rw [inferWith, Outcome.ofOption_eq_done] at h
    exact hscope (name.text, t) (Scope.mem_of_get? h)
  | .range _ _, _, t, h => by
    simp only [inferWith, Outcome.bind_eq_done] at h
    obtain ⟨_, -, _, -, _, -, _, -, hreturn⟩ := h
    cases hreturn
    rfl
  | .binary left op right, _, t, h => by
    simp only [inferWith, Outcome.bind_eq_done, Outcome.mapError_eq_done,
      Outcome.ofExcept_eq_done] at h
    obtain ⟨_, -, _, -, operator, -, s, hs, hreturn⟩ := h
    cases hreturn
    have hnumeric : s.isNumeric = true := (Operator.isNumeric_of_resultShape hs).2.2
    exact Ty.isData_of_isNumeric (by rwa [Ty.shape_ofShape])
  | .call function args, .call _ hargs, t, h => by
    simp only [inferWith, Outcome.bind_eq_done, Outcome.mapError_eq_done] at h
    obtain ⟨f, -, tys, htys, hresult⟩ := h
    exact Builtin.isData_resultTy hbody hscope (isArg_inferAllWith hbody hscope args hargs htys) hresult

theorem isArg_inferAllWith (hbody : Tame infer body) (hscope : types.IsData) :
    (es : List Expr) → (∀ e ∈ es, e.SurfaceArg) → {tys : List Ty} →
    lang.inferAllWith infer types es = .done tys → ∀ t ∈ tys, t.IsArg types
  | [], _, tys, h => by
    cases h
    simp
  | e :: es, hes, tys, h => by
    simp only [inferAllWith, Outcome.bind_eq_done] at h
    obtain ⟨t, ht, ts, hts, hreturn⟩ := h
    cases hreturn
    obtain ⟨he, hes⟩ := List.forall_mem_cons.1 hes
    refine List.forall_mem_cons.2 ⟨?_, isArg_inferAllWith hbody hscope es hes hts⟩
    cases he with
    | expr he => exact .data (isData_inferWith hbody hscope e he ht)
    | @lambda e params he =>
      rw [inferWith] at ht
      split at ht
      · cases ht
      · cases ht
        exact .lambda _ he

end

mutual

theorem steady_comparedWith (hbody : Tame infer body) (hscope : types.IsData) :
    (e : Expr) → e.Surface → Steady (lang.comparedWith infer body types e)
  | .int _, _ | .real _, _ | .var _, _ => by simp [comparedWith]
  | .range left right, .range hleft hright | .binary left _ right, .binary _ hleft hright => by
    rw [comparedWith]
    exact steady_append.2 ⟨steady_comparedWith hbody hscope left hleft,
      steady_comparedWith hbody hscope right hright⟩
  | .call function args, .call _ hargs => by
    rw [comparedWith]
    refine steady_append.2 ⟨steady_comparedAllWith hbody hscope args hargs, ?_⟩
    unfold comparedByCall
    split
    · next f tys _ htys =>
      exact f.steady_compared hbody hscope (isArg_inferAllWith hbody hscope args hargs htys)
    · simp

theorem steady_comparedAllWith (hbody : Tame infer body) (hscope : types.IsData) :
    (es : List Expr) → (∀ e ∈ es, e.SurfaceArg) →
    Steady (lang.comparedAllWith infer body types es)
  | [], _ => by simp [comparedAllWith]
  | e :: es, hes => by
    obtain ⟨he, hes⟩ := List.forall_mem_cons.1 hes
    rw [comparedAllWith]
    refine steady_append.2 ⟨?_, steady_comparedAllWith hbody hscope es hes⟩
    cases he with
    | expr he => exact steady_comparedWith hbody hscope e he
    | lambda params _ => simp [comparedWith]

end

end Language

end Inside

/-- Where no application is typed there is nothing to show. -/
theorem Tame.unfinished : Tame (fun _ _ => .unfinished) fun _ _ => [] where
  isData _ _ h := by cases h
  steady _ _ _ h := by cases h

/-- What can be written is tame for each bound on active applications. -/
theorem Language.tame_at (lang : Language) (depth : Nat) :
    Tame (lang.inferAt depth) (lang.comparedAt depth) := by
  induction depth with
  | zero =>
    exact ⟨fun hscope he => isData_inferWith .unfinished hscope _ he,
      fun hscope he => steady_comparedWith .unfinished hscope _ he⟩
  | succ depth ih =>
    exact ⟨fun hscope he => isData_inferWith ih hscope _ he,
      fun hscope he => steady_comparedWith ih hscope _ he⟩

end RangeScript
