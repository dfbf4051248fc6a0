import Mathlib.Data.List.Nodup
import RangeScript.Proofs.CorrespondingRuns

/-!
# Names of parameters

A parameter of a lambda may get another name, along with the places in the body that it binds, if the new name
is free there and no parameter inside captures it: the lambdas correspond (`correspondsArg_rename`). In any
context they may be exchanged (`correspondsArg_fill`), and programs that differ in corresponding expressions
do the same (`parameters_renamable`).
-/

namespace RangeScript

open RangeScript.Language (firstRepeated?)

/-! ## Distinct parameters -/

theorem firstRepeated?_eq_none {before params : List Lexeme} (h : (params.map (·.text)).Nodup)
    (hbefore : ∀ p ∈ params, ∀ q ∈ before, p.text ≠ q.text) : firstRepeated? before params = none := by
  induction params generalizing before with
  | nil => rfl
  | cons p params ih =>
    obtain ⟨hp, hparams⟩ := List.nodup_cons.1 h
    obtain ⟨hpbefore, hbefore⟩ := List.forall_mem_cons.1 hbefore
    have hnew : before.any p.same = false :=
      List.any_eq_false.2 fun q hq hsame => hpbefore q hq (beq_iff_eq.1 hsame)
    rw [firstRepeated?, hnew]
    refine ih hparams fun q hq => List.forall_mem_cons.2 ⟨fun hqp => hp ?_, hbefore q hq⟩
    exact List.mem_map.2 ⟨q, hq, hqp⟩

section Renaming
variable {x y : String}

theorem renamed_self (x y : String) : renamed x y x = y := if_pos rfl

theorem renamed_of_ne {name : String} (h : name ≠ x) : renamed x y name = name := if_neg h

/-- A name that is renamed apart from all parameters comes from one of them only. -/
theorem renamed_eq_iff {params : List String} (hy : ∀ p ∈ params, p ≠ x → p ≠ y) {name : String}
    (hname : name ≠ x → name ≠ y) {p : String} (hp : p ∈ params) :
    renamed x y p = renamed x y name ↔ p = name := by
  refine ⟨fun h => ?_, fun h => h ▸ rfl⟩
  by_cases hpx : p = x
  · by_cases hnx : name = x
    · rw [hpx, hnx]
    · rw [hpx, renamed_self, renamed_of_ne hnx] at h
      exact absurd h.symm (hname hnx)
  · by_cases hnx : name = x
    · rw [hnx, renamed_self, renamed_of_ne hpx] at h
      exact absurd h (hy p hp hpx)
    · rwa [renamed_of_ne hpx, renamed_of_ne hnx] at h

theorem texts_rename (params : List Lexeme) :
    (params.map (Lexeme.rename x y)).map (·.text) = (params.map (·.text)).map (renamed x y) := by
  rw [List.map_map, List.map_map]
  rfl

end Renaming

/-- What the body of a lambda finds under a name, it finds under the changed name if the parameters are
changed as well. -/
theorem Closure.get?_enter_map {α : Type} {f : String → String} {name : String} {params : List String}
    (h : ∀ p ∈ params, f p = f name ↔ p = name) (args : List α) (body : Expr) (scope : Scope α) :
    (enter ⟨params.map f, body, scope⟩ args).get? (f name) =
      (Scope.get? (params.zip args).reverse name).or (scope.get? (f name)) := by
  unfold enter
  rw [Scope.get?_append, List.zip_map_left, ← List.map_reverse, Scope.get?_map, Option.map_id, id]
  intro bound hbound
  obtain ⟨pair, hpair, rfl⟩ := List.mem_map.1 hbound
  exact h _ (List.of_mem_zip (List.mem_reverse.1 hpair)).1

/-! ## Renaming a parameter -/

section Lambdas
variable {α : Type} {number : Int64 → α} {params : List Lexeme} {x y : String}

/-- In the body the renamed parameter stands for what it did under its old name, and so do the names that are
neither. -/
theorem carries_rename (hx : x ∈ params.map (·.text)) (hy : ∀ p ∈ params.map (·.text), p ≠ x → p ≠ y)
    {args : List α} (hargs : args.length = params.length) (body body' : Expr) (s : Scope α) {name : String}
    (hname : name ≠ y) :
    Carries number [(x, .name y)] (Closure.enter ⟨params.map (·.text), body, s⟩ args)
      (Closure.enter ⟨(params.map (Lexeme.rename x y)).map (·.text), body', s⟩ args) name := by
  have hget := Closure.get?_enter_map (fun p hp => renamed_eq_iff hy (fun _ => hname) hp) args body' s
  rw [texts_rename]
  by_cases hnx : name = x
  · subst hnx
    have hlength : args.length = (params.map (·.text)).length := by rwa [List.length_map]
    obtain ⟨a, ha⟩ := Closure.exists_get?_zip hx hlength
    have hσ : Scope.get? [(name, Replacement.name y)] name = some (.name y) := if_pos rfl
    rw [renamed_self, ha, Option.some_or] at hget
    exact (carries_of_name hσ).2 ⟨a, Closure.get?_enter_of_zip ha _ _, hget⟩
  · have hσ : Scope.get? [(x, Replacement.name y)] name = none := if_neg hnx
    rw [renamed_of_ne hnx] at hget
    rw [carries_of_none hσ, hget, Closure.enter, Scope.get?_append]

/-- A lambda corresponds to itself with a parameter renamed. -/
theorem correspondsArg_rename {body : Expr} (hdistinct : (params.map (·.text)).Nodup)
    (hx : x ∈ params.map (·.text)) (hy : ∀ p ∈ params.map (·.text), p ≠ x → p ≠ y)
    (hfree : body.hasFree y = false) (hcapture : body.captures x y = false)
    (h : (Expr.lambda params body).SurfaceArg) (s : Scope α) :
    CorrespondsArg number Eq s s (.lambda params body)
      (.lambda (params.map (Lexeme.rename x y)) (body.replace id [(x, .name y)])) := by
  have hbody := Expr.surfaceArg_lambda.1 h
  have hdistinct' : ((params.map (Lexeme.rename x y)).map (·.text)).Nodup := by
    rw [texts_rename]
    exact hdistinct.map_on fun p hp q hq => (renamed_eq_iff hy (hy q hq) hp).1
  refine .lambda ?_ (List.length_map _).symm fun args hargs => ?_
  · rw [firstRepeated?_eq_none hdistinct (by simp), firstRepeated?_eq_none hdistinct' (by simp)]
  refine hbody.corresponds (fun _ => rfl) (fun _ => rfl) ?_ ?_
  · intro name hname
    refine carries_rename hx hy hargs _ _ s ?_
    rintro rfl
    rw [hfree] at hname
    cases hname
  · intro x' y' hσ
    by_cases hxx : x' = x
    · obtain rfl : y' = y := by
        rw [Scope.get?, if_pos hxx] at hσ
        cases hσ
        rfl
      rw [hxx, hcapture]
    · rw [Scope.get?, if_neg hxx] at hσ
      cases hσ

end Lambdas

/-! ## Contexts -/

section Contexts
variable {α : Type} {number : Int64 → α} {e e' : Expr}

theorem CorrespondsArgs.append {near : Position → Position → Prop} {s s' : Scope α}
    {before before' after after' : List Expr} (h : CorrespondsArgs number near s s' before before')
    (h' : CorrespondsArgs number near s s' after after') :
    CorrespondsArgs number near s s' (before ++ after) (before' ++ after') :=
  match h with
  | .nil => h'
  | .cons he hes => .cons he (hes.append h')

theorem correspondsArgs_self {es : List Expr} (h : ∀ e ∈ es, e.SurfaceArg) (s : Scope α) :
    CorrespondsArgs number Eq s s es es := by
  induction es with
  | nil => exact .nil
  | cons e es ih =>
    obtain ⟨he, hes⟩ := List.forall_mem_cons.1 h
    exact .cons (he.corresponds_self fun _ _ => rfl) (ih hes)

/-- Arguments that correspond in all scopes may be exchanged in any context. -/
theorem correspondsArg_fill (h : e.SurfaceArg → ∀ s : Scope α, CorrespondsArg number Eq s s e e')
    (c : Expr.Context) (hc : (c.fill e).SurfaceArg) (s : Scope α) :
    CorrespondsArg number Eq s s (c.fill e) (c.fill e') := by
  have hsame {e : Expr} (he : e.Surface) (s : Scope α) : Corresponds number Eq s s e e :=
    he.corresponds_self fun _ _ => rfl
  induction c generalizing s with
  | hole => exact h hc s
  | left inside op other ih =>
    obtain ⟨hinside, hother⟩ := Expr.surfaceArg_binary.1 hc
    exact .expr (.binary op ((ih (.expr hinside) s).corresponds hinside) (hsame hother s))
  | right other op inside ih =>
    obtain ⟨hother, hinside⟩ := Expr.surfaceArg_binary.1 hc
    exact .expr (.binary op (hsame hother s) ((ih (.expr hinside) s).corresponds hinside))
  | lower inside other ih =>
    obtain ⟨hinside, hother⟩ := Expr.surfaceArg_range.1 hc
    exact .expr (.range ((ih (.expr hinside) s).corresponds hinside) (hsame hother s))
  | upper other inside ih =>
    obtain ⟨hother, hinside⟩ := Expr.surfaceArg_range.1 hc
    exact .expr (.range (hsame hother s) ((ih (.expr hinside) s).corresponds hinside))
  | arg function before inside after ih =>
    obtain ⟨hbefore, hrest⟩ := List.forall_mem_append.1 (Expr.surfaceArg_call.1 hc)
    obtain ⟨hinside, hafter⟩ := List.forall_mem_cons.1 hrest
    refine .expr (.call function ((correspondsArgs_self hbefore s).append ?_))
    exact .cons (ih hinside s) (correspondsArgs_self hafter s)
  | body params inside ih =>
    have hinside := Expr.surfaceArg_lambda.1 hc
    exact .lambda rfl rfl fun args _ => (ih (.expr hinside) _).corresponds hinside

end Contexts

/-! ## Programs -/

section Programs
variable (lang : Language)

/-- The statements have the same effect on all types and all values. -/
structure Stmt.Agree (stmt stmt' : Stmt) : Prop where
  check_eq (types : Scope Ty) : lang.check types stmt = lang.check types stmt'
  exec_eq (globals : Scope Value) : lang.exec globals stmt = lang.exec globals stmt'

/-- Arguments that correspond in all scopes, by their types and by their values, may be exchanged in
statements. -/
theorem Stmt.Context.agree_fill {e e' : Expr}
    (htypes : e.SurfaceArg → ∀ s, CorrespondsArg (fun _ => Ty.int) Eq s s e e')
    (hvalues : e.SurfaceArg → ∀ s, CorrespondsArg Value.int Eq s s e e') (c : Stmt.Context)
    (hc : (c.fill e).Surface) : Stmt.Agree lang (c.fill e) (c.fill e') := by
  have htyping (inside : Expr.Context) (h : (inside.fill e).Surface) (types : Scope Ty) :
      Corresponds (fun _ => Ty.int) Eq types types (inside.fill e) (inside.fill e') :=
    (correspondsArg_fill htypes inside (.expr h) types).corresponds h
  have hevaluation (inside : Expr.Context) (h : (inside.fill e).Surface) (globals : Scope Value) :
      Corresponds Value.int Eq globals globals (inside.fill e) (inside.fill e') :=
    (correspondsArg_fill hvalues inside (.expr h) globals).corresponds h
  cases c with
  | declare name inside =>
    refine ⟨fun types => ?_, fun globals => ?_⟩
    · rw [fill, fill, Language.check, Language.check,
        lang.infer_eq_of_corresponds (htyping inside hc types)]
    · rw [fill, fill, Language.exec, Language.exec,
        lang.eval_eq_of_corresponds (hevaluation inside hc globals)]
  | out inside =>
    refine ⟨fun types => ?_, fun globals => ?_⟩
    · have hcorresponds := htyping inside hc types
      rw [fill, fill, Language.check, Language.check, lang.infer_eq_of_corresponds hcorresponds,
        hcorresponds.near_pos fun _ => rfl]
    · rw [fill, fill, Language.exec, Language.exec,
        lang.eval_eq_of_corresponds (hevaluation inside hc globals)]

variable {lang} {stmt stmt' : Stmt}

theorem Stmt.Agree.checkProgram_eq (h : Stmt.Agree lang stmt stmt') (before after : Program)
    (types : Scope Ty) : lang.checkProgram types (before ++ stmt :: after) =
      lang.checkProgram types (before ++ stmt' :: after) := by
  induction before generalizing types with
  | nil => rw [List.nil_append, List.nil_append, Language.checkProgram, Language.checkProgram, h.check_eq]
  | cons first before ih =>
    rw [List.cons_append, List.cons_append, Language.checkProgram, Language.checkProgram]
    simp only [ih]

theorem Stmt.Agree.step_eq (h : Stmt.Agree lang stmt stmt') (s : Session) :
    s.step lang stmt = s.step lang stmt' := by
  unfold Session.step
  rw [h.exec_eq, h.check_eq]

theorem Stmt.Agree.steps_eq (h : Stmt.Agree lang stmt stmt') (before after : Program) (s : Session) :
    Session.steps lang s (before ++ stmt :: after) = Session.steps lang s (before ++ stmt' :: after) := by
  induction before generalizing s with
  | nil => rw [List.nil_append, List.nil_append, Session.steps, Session.steps, h.step_eq]
  | cons first before ih =>
    rw [List.cons_append, List.cons_append, Session.steps, Session.steps]
    simp only [ih]

theorem Stmt.Agree.run_eq (h : Stmt.Agree lang stmt stmt') (before after : Program) (s : Session) :
    s.run lang (before ++ stmt :: after) = s.run lang (before ++ stmt' :: after) := by
  unfold Session.run Session.check
  rw [h.checkProgram_eq before after, h.steps_eq before after]

end Programs

open Session

/-- A parameter `x` of a lambda with distinct parameters, anywhere in a program, and the places that it binds may
be renamed to `y`, if `y` is no other parameter of the lambda, is not free in its body, and is no parameter of a
lambda in whose body the same `x` is free. Checking and running the program are not changed by it. -/
theorem parameters_renamable (reader lang : Language) {text : String} {c : Program.Context}
    {params : List Lexeme} {body : Expr} (hread : reader.parse text = .ok (c.fill (.lambda params body)))
    (hdistinct : (params.map (·.text)).Nodup) {x y : String} (hx : x ∈ params.map (·.text))
    (hy : ∀ p ∈ params.map (·.text), p ≠ x → p ≠ y) (hfree : body.hasFree y = false)
    (hcapture : body.captures x y = false) (s : Session) :
    let renamed := c.fill (.lambda (params.map (Lexeme.rename x y)) (body.replace id [(x, .name y)]))
    lang.checkProgram s.types (c.fill (.lambda params body)) = lang.checkProgram s.types renamed ∧
      s.run lang (c.fill (.lambda params body)) = s.run lang renamed := by
  have hstmt : (c.stmt.fill (.lambda params body)).Surface :=
    surface_of_parse hread _ (List.mem_append_right _ List.mem_cons_self)
  have hagree := c.stmt.agree_fill lang
    (correspondsArg_rename hdistinct hx hy hfree hcapture)
    (correspondsArg_rename hdistinct hx hy hfree hcapture) hstmt
  exact ⟨hagree.checkProgram_eq c.before c.after s.types, hagree.run_eq c.before c.after s⟩

/-- The parameter `a` gets the name of a declared `k`, which the call around the lambda uses. -/
theorem parameters_renamable_shadowing :
    let lang := Language.standard
    let text := "var k = 5 out map({1, 3}, x -> reduce({1, x}, k, a b -> a + b * x))"
    let c : Program.Context := {
      before := [.declare ⟨"k", ⟨1, 5⟩⟩ (.int ⟨"5", ⟨1, 9⟩⟩)]
      stmt := .out (.arg ⟨"map", ⟨1, 15⟩⟩ [.range (.int ⟨"1", ⟨1, 20⟩⟩) (.int ⟨"3", ⟨1, 23⟩⟩)]
        (.body [⟨"x", ⟨1, 27⟩⟩] (.arg ⟨"reduce", ⟨1, 32⟩⟩
          [.range (.int ⟨"1", ⟨1, 40⟩⟩) (.var ⟨"x", ⟨1, 43⟩⟩), .var ⟨"k", ⟨1, 47⟩⟩] .hole [])) [])
      after := [] }
    let params : List Lexeme := [⟨"a", ⟨1, 50⟩⟩, ⟨"b", ⟨1, 52⟩⟩]
    let body (x : String) : Expr := .binary (.var ⟨x, ⟨1, 57⟩⟩) ⟨"+", ⟨1, 59⟩⟩
      (.binary (.var ⟨"b", ⟨1, 61⟩⟩) ⟨"*", ⟨1, 63⟩⟩ (.var ⟨"x", ⟨1, 65⟩⟩))
    lang.parse text = .ok (c.fill (.lambda params (body "a"))) ∧
      (body "a").hasFree "k" = false ∧ (body "a").captures "a" "k" = false ∧
      (fresh.run lang (c.fill (.lambda params (body "a")))).transcript.lines = ["[6, 11, 23]"] ∧
      lang.checkProgram fresh.types (c.fill (.lambda params (body "a"))) =
        lang.checkProgram fresh.types
          (c.fill (.lambda [⟨"k", ⟨1, 50⟩⟩, ⟨"b", ⟨1, 52⟩⟩] (body "k"))) ∧
      fresh.run lang (c.fill (.lambda params (body "a"))) =
        fresh.run lang (c.fill (.lambda [⟨"k", ⟨1, 50⟩⟩, ⟨"b", ⟨1, 52⟩⟩] (body "k"))) := by
  intro lang text c params body
  have hread : lang.parse text = .ok (c.fill (.lambda params (body "a"))) := by decide +kernel
  have hfree : (body "a").hasFree "k" = false := by decide +kernel
  have hcapture : (body "a").captures "a" "k" = false := by decide +kernel
  exact ⟨hread, hfree, hcapture, by decide +kernel,
    parameters_renamable lang lang hread (by decide +kernel) (by decide +kernel) (by decide +kernel) hfree
      hcapture fresh⟩

end RangeScript
