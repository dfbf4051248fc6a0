import RangeScript.Proofs.CorrespondingRuns
import RangeScript.Proofs.Termination

/-!
# Application is substitution

A lambda that is applied to whole numbers gives what its body gives in the scope of the lambda, with the
parameters replaced by literals of the numbers (`application_is_substitution`). Literals stand where names stood,
so errors agree up to positions.
-/

namespace RangeScript

/-! ## What stands in a hole -/

namespace Expr.Context

variable {e : Expr}

/-- What stands in a hole of a written expression is written as well. -/
theorem surfaceArg_of_fill (c : Context) (h : (c.fill e).SurfaceArg) : e.SurfaceArg := by
  induction c with
  | hole => exact h
  | left inside op other ih => exact ih (.expr (surfaceArg_binary.1 h).1)
  | right other op inside ih => exact ih (.expr (surfaceArg_binary.1 h).2)
  | lower inside other ih => exact ih (.expr (surfaceArg_range.1 h).1)
  | upper other inside ih => exact ih (.expr (surfaceArg_range.1 h).2)
  | arg function before inside after ih =>
    exact ih (surfaceArg_call.1 h _ (List.mem_append_right _ List.mem_cons_self))
  | body params inside ih => exact ih (.expr (surfaceArg_lambda.1 h))

theorem lambdaDepth_le_of_fill (c : Context) {d : Nat} (h : (c.fill e).lambdaDepth ≤ d) :
    e.lambdaDepth ≤ d := by
  induction c with
  | hole => exact h
  | left inside op other ih => exact ih (lambdaDepth_binary_le.1 h).1
  | right other op inside ih => exact ih (lambdaDepth_binary_le.1 h).2
  | lower inside other ih => exact ih (lambdaDepth_range_le.1 h).1
  | upper other inside ih => exact ih (lambdaDepth_range_le.1 h).2
  | arg function before inside after ih =>
    exact ih (lambdaDepth_le_of_mem h (List.mem_append_right _ List.mem_cons_self))
  | body params inside ih => exact ih (Nat.le_of_succ_le h)

end Expr.Context

/-! ## Literals for parameters -/

/-- Numbers in the place of parameters; of a repeated parameter the last one counts. -/
def instantiation (params : List Lexeme) (values : List Int64) : Scope Replacement :=
  ((params.map (·.text)).zip (values.map .number)).reverse

theorem Scope.get?_zip_map {α β : Type} (f : α → β) (names : List String) (as : List α) (name : String) :
    Scope.get? (names.zip (as.map f)).reverse name =
      (Scope.get? (names.zip as).reverse name).map f := by
  rw [List.zip_map_right, ← List.map_reverse]
  exact get?_map f fun _ _ => Iff.rfl

/-- A parameter stands for the number that replaces it, and other names for what they do outside. -/
theorem carries_instantiation (params : List Lexeme) (values : List Int64) (body : Expr)
    (scope : Scope Value) (name : String) :
    Carries .int (instantiation params values)
      (Closure.enter ⟨params.map (·.text), body, scope⟩ (values.map .int)) scope name := by
  have hnumbers := Scope.get?_zip_map Replacement.number (params.map (·.text)) values name
  have hvalues := Scope.get?_zip_map Value.int (params.map (·.text)) values name
  cases hget : Scope.get? ((params.map (·.text)).zip values).reverse name with
  | none =>
    rw [hget, Option.map_none] at hnumbers hvalues
    refine (carries_of_none hnumbers).2 ?_
    rw [Closure.enter, Scope.get?_append, hvalues, Option.none_or]
  | some n =>
    rw [hget, Option.map_some] at hnumbers hvalues
    exact (carries_of_number hnumbers).2 (Closure.get?_enter_of_zip hvalues body scope)

/-- An instantiation has no names in it that a parameter could capture. -/
theorem get?_instantiation_ne_name (params : List Lexeme) (values : List Int64) (x y : String) :
    (instantiation params values).get? x ≠ some (.name y) := by
  intro h
  rw [instantiation, Scope.get?_zip_map] at h
  obtain ⟨n, -, hn⟩ := Option.map_eq_some_iff.1 h
  cases hn

/-! ## Application -/

namespace Language

variable (lang : Language)

theorem eval_lambda (scope : Scope Value) (params : List Lexeme) (body : Expr) :
    lang.eval scope (.lambda params body) = .done (.lambda ⟨params.map (·.text), body, scope⟩) := by
  obtain ⟨apply, heval⟩ := lang.exists_eval_eq
  rw [heval, evalWith]

/-- The body finds numbers under its parameters, or has literals of them in their places. -/
theorem alike_applyClosure_instantiation {body : Expr} (hbody : body.Surface) (params : List Lexeme)
    (values : List Int64) (scope : Scope Value) (place : Position → Position) :
    (lang.applyClosure ⟨params.map (·.text), body, scope⟩ (values.map .int)).Alike Eq RunError.forget
      (lang.eval scope (body.replace place (instantiation params values))) := by
  refine lang.respects_evalAt tolerates_forget lang.callDepth ?_
  refine hbody.corresponds (fun _ => trivial) (fun _ => trivial) ?_ ?_
  · exact fun name _ => carries_instantiation params values body scope name
  · exact fun x y h => absurd h (get?_instantiation_ne_name params values x y)

/-- A written lambda that is applied to data, in a scope of data, ends. -/
theorem applyClosure_ne_unfinished {body : Expr} (hbody : body.Surface)
    (hdepth : body.lambdaDepth ≤ lang.callDepth) (params : List String) {scope : Scope Value}
    (hscope : scope.All (·.isData = true)) {args : List Value} (hargs : ∀ v ∈ args, v.isData = true) :
    lang.applyClosure ⟨params, body, scope⟩ args ≠ .unfinished := by
  have henter : (Closure.enter ⟨params, body, scope⟩ args).All (·.isData = true) := by
    intro binding hbinding
    rcases List.mem_append.1 hbinding with hbinding | hbinding
    · exact hargs _ (List.of_mem_zip (List.mem_reverse.1 hbinding)).2
    · exact hscope binding hbinding
  exact (lang.obeys_evalAt Value.kept_isData henter hbody lang.callDepth).ne_unfinished
    (Nat.not_lt_of_le hdepth)

end Language

open Session

/-- A written lambda, created in a session that was fed texts and in any frames, is a closure. Applied to whole
numbers it gives what its body gives in the same scope with literals of the numbers for the parameters: the same
value, or errors that differ in positions only. In frames of data it ends with one or the other. -/
theorem application_is_substitution (reader lang : Language) {c : Expr.Context} {params : List Lexeme}
    {body : Expr} (hwritten : (c.fill (.lambda params body)).Written reader) (texts : List String)
    (frames : Scope Value) (values : List Int64) (place : Position → Position) :
    let scope := frames ++ (fresh.after lang (texts.map .source)).values
    let closure : Closure Value := ⟨params.map (·.text), body, scope⟩
    let result := lang.applyClosure closure (values.map .int)
    lang.eval scope (.lambda params body) = .done (.lambda closure) ∧
      result.Alike Eq RunError.forget
        (lang.eval scope (body.replace place (instantiation params values))) ∧
      (frames.All (·.isData = true) → Parse.maxNesting ≤ lang.callDepth → result ≠ .unfinished) := by
  intro scope closure result
  have hlambda := c.surfaceArg_of_fill (.expr hwritten.surface)
  have hbody := Expr.surfaceArg_lambda.1 hlambda
  have halike := lang.alike_applyClosure_instantiation hbody params values scope place
  refine ⟨lang.eval_lambda scope params body, halike, fun hframes hdepth => ?_⟩
  have hnesting : body.lambdaDepth + 1 ≤ Parse.maxNesting := c.lambdaDepth_le_of_fill hwritten.lambdaDepth_le
  have hglobals : (fresh.after lang (texts.map .source)).values.All (·.isData = true) :=
    all_after Value.kept_isData all_fresh texts
  have hscope : scope.All (·.isData = true) := fun binding hbinding =>
    (List.mem_append.1 hbinding).elim (hframes binding) (hglobals binding)
  refine lang.applyClosure_ne_unfinished hbody (by omega) _ hscope fun v hv => ?_
  obtain ⟨n, -, rfl⟩ := List.mem_map.1 hv
  rfl

/-- The inner lambda has a parameter `x` of its own, which is not replaced. -/
theorem application_is_substitution_rebound :
    let lang := Language.standard
    let text := "out reduce({1, 3}, k, x y -> reduce({1, y}, x, a x -> a + x * k))"
    let call (x y : Expr) : Expr := .call ⟨"reduce", ⟨1, 30⟩⟩ [.range (.int ⟨"1", ⟨1, 38⟩⟩) y, x,
      .lambda [⟨"a", ⟨1, 48⟩⟩, ⟨"x", ⟨1, 50⟩⟩] (.binary (.var ⟨"a", ⟨1, 55⟩⟩) ⟨"+", ⟨1, 57⟩⟩
        (.binary (.var ⟨"x", ⟨1, 59⟩⟩) ⟨"*", ⟨1, 61⟩⟩ (.var ⟨"k", ⟨1, 63⟩⟩)))]
    let params : List Lexeme := [⟨"x", ⟨1, 23⟩⟩, ⟨"y", ⟨1, 25⟩⟩]
    let body := call (.var ⟨"x", ⟨1, 45⟩⟩) (.var ⟨"y", ⟨1, 41⟩⟩)
    let c : Expr.Context := .arg ⟨"reduce", ⟨1, 5⟩⟩
      [.range (.int ⟨"1", ⟨1, 13⟩⟩) (.int ⟨"3", ⟨1, 16⟩⟩), .var ⟨"k", ⟨1, 20⟩⟩] .hole []
    let scope := [("z", .int 7)] ++ (fresh.after lang (["var k = 2"].map .source)).values
    let result := lang.applyClosure ⟨["x", "y"], body, scope⟩ [.int (-5), .int 3]
    lang.parse text = .ok [.out (c.fill (.lambda params body))] ∧
      (result >>= fun v => .ofExcept v.render) = .done "7" ∧
      result.Alike Eq RunError.forget
        (lang.eval scope (call (.int ⟨"-5", ⟨1, 45⟩⟩) (.int ⟨"3", ⟨1, 41⟩⟩))) := by
  intro lang text call params body c scope result
  have hread : lang.parse text = .ok [.out (c.fill (.lambda params body))] := by decide +kernel
  have hwritten : (c.fill (.lambda params body)).Written lang :=
    .inside hread List.mem_cons_self rfl
  obtain ⟨-, halike, -⟩ := application_is_substitution lang lang hwritten ["var k = 2"] [("z", .int 7)]
    [-5, 3] id
  exact ⟨hread, by decide +kernel, halike⟩

end RangeScript
