import RangeScript.Proofs.Equality
import RangeScript.Proofs.History
import RangeScript.Proofs.ScopeRelation

/-!
# Types and values in lock-step

A session has two tables, and a submission changes them statement by statement: a statement that has
been carried out is checked once more, into the table of types. Whatever a host calls (`Call`), both
tables declare the same names (`Session.InStep`) and forget nothing (`Session.Keeps`). The check of a
whole submission goes through the same types as the checks of its statements one by one, so none of
these fails, and no statement that is reached declares a name again (`lock_step`).
-/

namespace RangeScript

/-! ## Errors about declarations -/

/-- Any error but that of a name declared once more. -/
def RunError.isOther : RunError → Bool
  | .redeclared _ => false
  | _ => true

/-- If it fails, then with such an error. -/
def Outcome.Raises {ε α : Type} (p : ε → Bool) : Outcome ε α → Prop
  | failed e => p e = true
  | _ => True

namespace Outcome.Raises

variable {ε ε' α β : Type} {p : ε → Bool}

theorem bind {x : Outcome ε α} {f : α → Outcome ε β} (hx : Raises p x) (hf : ∀ a, Raises p (f a)) :
    Raises p (x >>= f) := by
  rcases x with a | e | _
  · exact hf a
  · exact hx
  · trivial

theorem mapError {f : ε' → ε} (hf : ∀ e, p (f e) = true) (x : Outcome ε' α) :
    Raises p (x.mapError f) := by
  rcases x with a | e | _
  · trivial
  · exact hf e
  · trivial

theorem ofOption {e : ε} (he : p e = true) (x : Option α) : Raises p (ofOption e x) := by
  rcases x with _ | a
  · exact he
  · trivial

theorem ofExcept {x : Except ε α} (hx : ∀ e, x = .error e → p e = true) : Raises p (ofExcept x) := by
  rcases x with e | a
  · exact hx e rfl
  · trivial

end Outcome.Raises

mutual

/-- A value has no text only for a lambda in it. -/
theorem Value.renderAfter_eq_error (before : String) :
    (v : Value) → {e : RunError} → v.renderAfter before = .error e → e = .lambdaOutput
  | .int n, _, h => by cases h
  | .real x, _, h => by cases h
  | .seq elements _, _, h => by
    rw [renderAfter] at h
    exact renderAllAfter_eq_error _ _ elements h
  | .lambda c, _, h => by
    cases h
    rfl

theorem Value.renderAllAfter_eq_error (before separator : String) :
    (vs : List Value) → {e : RunError} → renderAllAfter before separator vs = .error e →
    e = .lambdaOutput
  | [], _, h => by cases h
  | v :: vs, e, h => by
    rw [renderAllAfter] at h
    rcases hv : v.renderAfter (before ++ separator) with e' | text
    · rw [hv] at h
      cases h
      exact renderAfter_eq_error _ v hv
    · rw [hv] at h
      exact renderAllAfter_eq_error _ _ vs h

end

namespace Language

variable {lang : Language}

section With
variable (body : Scope Value → Expr → Outcome RunError Value) (scope : Scope Value)

mutual

theorem raises_evalWith : (e : Expr) → (lang.evalWith body scope e).Raises RunError.isOther
  | .int literal => by
    rw [evalWith]
    exact .bind (.mapError (fun _ => rfl) _) fun _ => trivial
  | .real literal => by
    rw [evalWith]
    exact .bind (.mapError (fun _ => rfl) _) fun _ => trivial
  | .var name => by
    rw [evalWith]
    exact .ofOption rfl _
  | .range left right => by
    rw [evalWith]
    refine (raises_evalWith left).bind fun l => .bind (.ofOption rfl _) fun lo => ?_
    refine (raises_evalWith right).bind fun r => .bind (.ofOption rfl _) fun hi => ?_
    dsimp only
    split
    · trivial
    · rfl
  | .binary left op right => by
    rw [evalWith]
    refine (raises_evalWith left).bind fun l => (raises_evalWith right).bind fun r => ?_
    exact .bind (.ofOption rfl _) fun operator => .mapError (fun _ => rfl) _
  | .call function args => by
    rw [evalWith]
    refine .bind (.ofOption rfl _) fun f => (raises_evalAllWith args).bind fun vs => ?_
    exact .mapError (fun _ => rfl) _
  | .lambda params e => by
    rw [evalWith]
    trivial

theorem raises_evalAllWith :
    (es : List Expr) → (lang.evalAllWith body scope es).Raises RunError.isOther
  | [] => by
    rw [evalAllWith]
    trivial
  | e :: es => by
    rw [evalAllWith]
    exact (raises_evalWith e).bind fun v => (raises_evalAllWith es).bind fun vs => trivial

end

end With

theorem raises_eval (globals : Scope Value) (e : Expr) :
    (lang.eval globals e).Raises RunError.isOther := by
  unfold eval
  rcases lang.callDepth with _ | depth
  · exact raises_evalWith _ globals e
  · exact raises_evalWith _ globals e

end Language

/-! ## What a statement does to a table -/

/-- The name that a statement declares. -/
def Stmt.declared? : Stmt → Option String
  | .declare name _ => some name.text
  | _ => none

namespace Language

variable {lang : Language} {stmt : Stmt}

/-- A check that succeeds declares the name of the statement, which is new, and nothing else. -/
theorem declares_of_check {types types' : Scope Ty} (h : lang.check types stmt = .done types') :
    (stmt.declared? = none ∧ types' = types) ∨
      ∃ name t, stmt.declared? = some name ∧ types.contains name = false ∧
        types' = types.insert name t := by
  rcases check_cases h with ⟨text, rfl, rfl⟩ | ⟨value, t, rfl, -, -, rfl⟩ |
    ⟨name, value, t, rfl, hnew, -, rfl⟩
  · exact .inl ⟨rfl, rfl⟩
  · exact .inl ⟨rfl, rfl⟩
  · exact .inr ⟨name.text, t, rfl, hnew, rfl⟩

/-- A statement that succeeds binds the name that it declares, which is new, and nothing else. -/
theorem binds_of_exec {values : Scope Value} {effect : Effect}
    (h : lang.exec values stmt = .done effect) :
    (stmt.declared? = none ∧ effect.globals = values) ∨
      ∃ name v, stmt.declared? = some name ∧ values.contains name = false ∧
        effect.globals = values.insert name v := by
  cases stmt with
  | print text =>
    cases h
    exact .inl ⟨rfl, rfl⟩
  | out value =>
    obtain ⟨v, -, hrender⟩ := Outcome.bind_eq_done.1 h
    obtain ⟨text, -, hreturn⟩ := Outcome.bind_eq_done.1 hrender
    cases hreturn
    exact .inl ⟨rfl, rfl⟩
  | declare name value =>
    rw [exec] at h
    split at h
    · cases h
    · next hnew =>
      obtain ⟨v, -, hreturn⟩ := Outcome.bind_eq_done.1 h
      cases hreturn
      exact .inr ⟨name.text, v, rfl, Bool.eq_false_iff.2 hnew, rfl⟩

/-- A statement whose name is new does not fail for that. -/
theorem raises_exec {values : Scope Value}
    (h : ∀ name, stmt.declared? = some name → values.contains name = false) :
    (lang.exec values stmt).Raises RunError.isOther := by
  cases stmt with
  | print text => trivial
  | out value =>
    rw [exec]
    refine (raises_eval values value).bind fun v => .bind (.ofExcept ?_) fun text => trivial
    intro e he
    rw [Value.renderAfter_eq_error "" v he]
    rfl
  | declare name value =>
    rw [exec, h name.text rfl]
    exact (raises_eval values value).bind fun v => trivial

end Language

/-! ## Sessions -/

/-- What a host may ask of a session. -/
inductive Call
  | submit (sub : Submission)
  | parse (text : String)
  | check (p : Program)

namespace Session

/-- The session after a call. Reading and checking leave no trace. -/
def perform (lang : Language) (s : Session) : Call → Session
  | .submit sub => (s.submit lang sub).session
  | .parse _ | .check _ => s

/-- The session after calls in order. -/
def afterCalls (lang : Language) : Session → List Call → Session
  | s, [] => s
  | s, call :: rest => afterCalls lang (s.perform lang call) rest

/-- The same names are declared and bound. -/
def InStep (s : Session) : Prop := Scope.Related (fun _ _ => True) s.types s.values

/-- All declarations are still there, with the same types and values. -/
structure Keeps (s t : Session) : Prop where
  types : s.types.Keeps t.types
  values : s.values.Keeps t.values

theorem Keeps.refl (s : Session) : s.Keeps s := ⟨.refl _, .refl _⟩

theorem Keeps.trans {s t u : Session} (h : s.Keeps t) (h' : t.Keeps u) : s.Keeps u :=
  ⟨h.types.trans h'.types, h.values.trans h'.values⟩

/-- From a session in step, the call or statement led to one that is in step and keeps all. -/
structure Follows (s t : Session) : Prop where
  inStep : t.InStep
  keeps : s.Keeps t

theorem Follows.refl {s : Session} (hs : s.InStep) : s.Follows s := ⟨hs, .refl s⟩

theorem Follows.trans {s t u : Session} (h : s.Follows t) (h' : t.Follows u) : s.Follows u :=
  ⟨h'.inStep, h.keeps.trans h'.keeps⟩

variable {lang : Language} {s : Session} {stmt : Stmt}

/-- A statement that is carried out and committed changes both tables alike. -/
theorem follows_commit {types : Scope Ty} {effect : Language.Effect} (hs : s.InStep)
    (hcheck : lang.check s.types stmt = .done types)
    (hexec : lang.exec s.values stmt = .done effect) : s.Follows ⟨types, effect.globals⟩ := by
  rcases Language.declares_of_check hcheck with ⟨hnone, htypes⟩ | ⟨name, t, hname, hnew, htypes⟩
  · rcases Language.binds_of_exec hexec with ⟨-, hvalues⟩ | ⟨name, v, hname, -⟩
    · rw [htypes, hvalues]
      exact .refl hs
    · rw [hnone] at hname
      cases hname
  · rcases Language.binds_of_exec hexec with ⟨hnone, -⟩ | ⟨name', v, hname', hfree, hvalues⟩
    · rw [hnone] at hname
      cases hname
    · rw [hname] at hname'
      cases hname'
      rw [htypes, hvalues]
      exact ⟨.cons trivial hs, .insert hnew t, .insert hfree v⟩

/-- By induction on the statements of a submission that passed its check. -/
theorem follows_steps {p : Program} (hs : s.InStep)
    (h : (lang.checkProgram s.types p).2 = .done ()) : s.Follows (steps lang s p).session := by
  induction p generalizing s with
  | nil => exact .refl hs
  | cons stmt p ih =>
    obtain ⟨types, hcheck, hrest⟩ := checkProgram_cons h
    rcases hexec : lang.exec s.values stmt with effect | e | _
    · have hcommit := follows_commit hs hcheck hexec
      rw [steps_of_done p hcheck hexec]
      exact hcommit.trans (ih hcommit.inStep hrest)
    · rw [steps_of_failed p hexec]
      exact .refl hs
    · rw [steps_of_unfinished p hexec]
      exact .refl hs

theorem follows_run (hs : s.InStep) (p : Program) : s.Follows (s.run lang p).session := by
  unfold run
  split
  · next hcheck => exact follows_steps hs (check_eq_done.1 hcheck)
  · exact .refl hs
  · exact .refl hs

theorem follows_perform (hs : s.InStep) (call : Call) : s.Follows (s.perform lang call) := by
  cases call with
  | submit sub =>
    cases sub with
    | program p => exact follows_run hs p
    | source text =>
      change s.Follows (s.runSource lang text).session
      unfold runSource
      split
      · exact follows_run hs _
      · exact .refl hs
  | parse text => exact .refl hs
  | check p => exact .refl hs

theorem follows_afterCalls (hs : s.InStep) (calls : List Call) :
    s.Follows (s.afterCalls lang calls) := by
  induction calls generalizing s with
  | nil => exact .refl hs
  | cons call calls ih =>
    have hcall : s.Follows (s.perform lang call) := follows_perform hs call
    exact hcall.trans (ih hcall.inStep)

/-! ## Inside a submission -/

/-- A submission that passed its check and has come past its first statements: they pass alone, the
others pass where it has come to, and it ends as they do. -/
theorem steps_append {before rest : Program}
    (h : (lang.checkProgram s.types (before ++ rest)).2 = .done ())
    (hdone : (steps lang s before).result = .done ()) :
    let u := (steps lang s before).session
    (lang.checkProgram s.types before).2 = .done () ∧
      (lang.checkProgram u.types rest).2 = .done () ∧
      (steps lang s (before ++ rest)).session = (steps lang u rest).session ∧
      (steps lang s (before ++ rest)).result = (steps lang u rest).result := by
  induction before generalizing s with
  | nil => exact ⟨rfl, h, rfl, rfl⟩
  | cons stmt before ih =>
    obtain ⟨types, hcheck, hrest⟩ := checkProgram_cons h
    rcases hexec : lang.exec s.values stmt with effect | e | _
    · rw [steps_of_done before hcheck hexec] at hdone ⊢
      rw [List.cons_append, steps_of_done (before ++ rest) hcheck hexec]
      obtain ⟨hbefore, hends⟩ := ih (s := ⟨types, effect.globals⟩) hrest hdone
      refine ⟨?_, hends⟩
      rw [Language.checkProgram, hcheck]
      exact hbefore
    · rw [steps_of_failed before hexec] at hdone
      cases hdone
    · rw [steps_of_unfinished before hexec] at hdone
      cases hdone

/-- The statement of a submission that comes next: it declares no name again, and once it has been
carried out it is committed. -/
theorem step_of_checkProgram {rest : Program} (hs : s.InStep)
    (h : (lang.checkProgram s.types (stmt :: rest)).2 = .done ()) :
    (∀ effect, lang.exec s.values stmt = .done effect → ∃ types,
      s.step lang stmt = (⟨types, effect.globals⟩, effect.line.toList, .done ())) ∧
    ∀ name, lang.exec s.values stmt ≠ .failed (.redeclared name) := by
  obtain ⟨types, hcheck, -⟩ := checkProgram_cons h
  constructor
  · intro effect hexec
    refine ⟨types, ?_⟩
    unfold step
    rw [hexec]
    simp only [hcheck]
  · intro name hexec
    have hnew : ∀ name, stmt.declared? = some name → s.values.contains name = false := by
      intro name hname
      rw [← hs.contains_eq name]
      rcases Language.declares_of_check hcheck with ⟨hnone, -⟩ | ⟨name', t, hname', hfree, -⟩
      · rw [hnone] at hname
        cases hname
      · rw [hname] at hname'
        cases hname'
        exact hfree
    have hraises : (lang.exec s.values stmt).Raises RunError.isOther := Language.raises_exec hnew
    rw [hexec] at hraises
    cases hraises

theorem inStep_fresh : fresh.InStep := .nil

/-- After any calls the names with a type are the names with a value, and later calls change neither. A
submission that passes its check, when it has come to one of its statements, has kept both tables in
step as well: a statement that is carried out there is committed, and none fails for a name that is
declared already. -/
theorem lock_step (lang : Language) (calls later : List Call) :
    let s := fresh.afterCalls lang calls
    (∀ name, s.types.contains name = s.values.contains name) ∧
    s.Keeps (s.afterCalls lang later) ∧
    ∀ before stmt rest, s.check lang (before ++ stmt :: rest) = .done () →
      (steps lang s before).result = .done () →
      let u := (steps lang s before).session
      (s.run lang (before ++ stmt :: rest)).session = (steps lang u (stmt :: rest)).session ∧
      (s.run lang (before ++ stmt :: rest)).result = (steps lang u (stmt :: rest)).result ∧
      (∀ name, u.types.contains name = u.values.contains name) ∧
      s.Keeps u ∧
      (∀ effect, lang.exec u.values stmt = .done effect → ∃ types,
        u.step lang stmt = (⟨types, effect.globals⟩, effect.line.toList, .done ())) ∧
      ∀ name, lang.exec u.values stmt ≠ .failed (.redeclared name) := by
  intro s
  have hs : s.InStep := (follows_afterCalls inStep_fresh calls).inStep
  refine ⟨hs.contains_eq, (follows_afterCalls hs later).keeps, ?_⟩
  intro before stmt rest hcheck hdone u
  obtain ⟨hbefore, hafter, hsession, hresult⟩ := steps_append (check_eq_done.1 hcheck) hdone
  obtain ⟨hinStep, hkeeps⟩ : s.Follows u := follows_steps hs hbefore
  obtain ⟨hcommit, hnew⟩ := step_of_checkProgram hinStep hafter
  rw [run_of_check hcheck]
  exact ⟨hsession, hresult, hinStep.contains_eq, hkeeps, hcommit, hnew⟩

/-- A submission that failed at its second statement left `x` and neither `y` nor `z`. The next one has
declared `y` and comes to `out y`. -/
theorem lock_step_after_failure :
    let calls : List Call := [.submit (.source "var x = 4 var y = x / 0 var z = 2"), .parse "out",
      .check [.out (.var ⟨"x", .start⟩)], .submit (.source "var x = 5")]
    let before : Program := [.declare ⟨"y", .start⟩ (.var ⟨"x", .start⟩)]
    let stmt : Stmt := .out (.var ⟨"y", .start⟩)
    (fresh.afterCalls .standard calls).values.contains "x" = true ∧
      (fresh.afterCalls .standard calls).values.contains "y" = false ∧
      (fresh.afterCalls .standard calls).check .standard (before ++ [stmt]) = .done () ∧
      (steps .standard (fresh.afterCalls .standard calls) before).result = .done () ∧
      ∀ name, Language.standard.exec
        (steps .standard (fresh.afterCalls .standard calls) before).session.values stmt ≠
          .failed (.redeclared name) := by
  intro calls before stmt
  have hcheck : (fresh.afterCalls .standard calls).check .standard (before ++ [stmt]) = .done () := by
    decide +kernel
  have hdone : (steps .standard (fresh.afterCalls .standard calls) before).result = .done () := by
    decide +kernel
  obtain ⟨-, -, hinside⟩ := lock_step .standard calls []
  obtain ⟨-, -, -, -, -, hnew⟩ := hinside before stmt [] hcheck hdone
  exact ⟨by decide +kernel, by decide +kernel, hcheck, hdone, hnew⟩

end Session

end RangeScript
