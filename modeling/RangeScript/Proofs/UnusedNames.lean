import RangeScript.Proofs.CorrespondingRuns
import RangeScript.Proofs.ExactSessions

/-!
# Names that are not used

* `Scope.Adds name a s s'` : `s'` is `s` with one binding more, that of `name` to `a`;
* `Session.Adds`, `Report.Adds` : the same of the types and the values of sessions, and of runs that are the
  same otherwise.

A program that does not use a name does not tell two such sessions apart, statement by statement
(`adds_step`) and as a whole (`adds_run`). So a declaration is invisible to all programs that make no use
of it (`unused_declaration_invisible`).
-/

namespace RangeScript

open Outcome

/-! ## Scopes with one binding more -/

/-- The second scope has one binding more, of a name that is not bound in the first. -/
inductive Scope.Adds {α : Type} (name : String) (a : α) : Scope α → Scope α → Prop
  | here {s : Scope α} : s.get? name = none → Adds name a s ((name, a) :: s)
  | behind {s s' : Scope α} (bound : String) (b : α) :
    bound ≠ name → Adds name a s s' → Adds name a ((bound, b) :: s) ((bound, b) :: s')

section Scopes
variable {α : Type} {name x : String} {a : α} {s s' : Scope α}

theorem Scope.adds_insert (h : s.contains name = false) (a : α) : s.Adds name a (s.insert name a) :=
  .here (Option.isNone_iff_eq_none.1 (Option.isSome_eq_false_iff.1 h))

theorem Scope.Adds.get?_of_ne (h : s.Adds name a s') (hx : x ≠ name) : s'.get? x = s.get? x := by
  induction h with
  | here _ => exact if_neg hx
  | behind bound b _ _ ih => rw [get?, get?, ih]

theorem Scope.Adds.contains_of_ne (h : s.Adds name a s') (hx : x ≠ name) :
    s'.contains x = s.contains x := by
  unfold contains
  rw [h.get?_of_ne hx]

/-- An expression without the name means the same in both scopes. -/
theorem Scope.Adds.corresponds {number : Int64 → α} (h : s.Adds name a s') {e : Expr} (he : e.Surface)
    (hunused : e.hasFree name = false) : Corresponds number Eq s s' e e := by
  refine he.corresponds_self fun x hx => h.get?_of_ne ?_
  rintro rfl
  rw [hunused] at hx
  cases hx

end Scopes

/-! ## Statements -/

namespace Language

variable (lang : Language) {name : String}

theorem adds_check {t : Ty} {types types' : Scope Ty} (h : types.Adds name t types') {stmt : Stmt}
    (hstmt : stmt.Surface) (hunused : stmt.uses name = false) :
    (lang.check types stmt).Alike (Scope.Adds name t) id (lang.check types' stmt) := by
  cases stmt with
  | print text => exact .done h
  | out value =>
    rw [check, check, lang.infer_eq_of_corresponds (h.corresponds hstmt hunused)]
    refine (Alike.refl _).bind ?_
    rintro u _ rfl
    split
    · exact .done h
    · exact .failed rfl
  | declare declared value =>
    obtain ⟨hdeclared, hvalue⟩ := Bool.or_eq_false_iff.1 hunused
    have hne : declared.text ≠ name := beq_eq_false_iff_ne.1 hdeclared
    rw [check, check, h.contains_of_ne hne, lang.infer_eq_of_corresponds (h.corresponds hstmt hvalue)]
    split
    · exact .failed rfl
    · refine (Alike.refl _).bind ?_
      rintro u _ rfl
      exact .done (.behind _ _ hne h)

/-- The same line was printed, and the scopes differ in one binding. -/
structure Effect.Adds (name : String) (v : Value) (effect effect' : Effect) : Prop where
  globals : effect.globals.Adds name v effect'.globals
  line : effect.line = effect'.line

theorem adds_exec {v : Value} {globals globals' : Scope Value} (h : globals.Adds name v globals')
    {stmt : Stmt} (hstmt : stmt.Surface) (hunused : stmt.uses name = false) :
    (lang.exec globals stmt).Alike (Effect.Adds name v) id (lang.exec globals' stmt) := by
  cases stmt with
  | print text => exact .done ⟨h, rfl⟩
  | out value =>
    rw [exec, exec, lang.eval_eq_of_corresponds (h.corresponds hstmt hunused)]
    refine (Alike.refl _).bind ?_
    rintro w _ rfl
    refine (Alike.refl _).bind ?_
    rintro text _ rfl
    exact .done ⟨h, rfl⟩
  | declare declared value =>
    obtain ⟨hdeclared, hvalue⟩ := Bool.or_eq_false_iff.1 hunused
    have hne : declared.text ≠ name := beq_eq_false_iff_ne.1 hdeclared
    rw [exec, exec, h.contains_of_ne hne, lang.eval_eq_of_corresponds (h.corresponds hstmt hvalue)]
    split
    · exact .failed rfl
    · refine (Alike.refl _).bind ?_
      rintro w _ rfl
      exact .done ⟨.behind _ _ hne h, rfl⟩

/-- A declaration that succeeds is of a new name, and binds it. -/
theorem exec_declare_eq_done {globals : Scope Value} {declared : Lexeme} {value : Expr} {effect : Effect}
    (h : lang.exec globals (.declare declared value) = .done effect) :
    globals.contains declared.text = false ∧ ∃ v, effect.globals = globals.insert declared.text v := by
  rw [exec] at h
  split at h
  · cases h
  · next hnew =>
    obtain ⟨v, -, hreturn⟩ := Outcome.bind_eq_done.1 h
    cases hreturn
    exact ⟨Bool.eq_false_iff.2 hnew, v, rfl⟩

theorem checkProgram_eq_of_adds {t : Ty} {types types' : Scope Ty} (h : types.Adds name t types')
    {p : Program} (hp : ∀ stmt ∈ p, stmt.Surface) (hunused : ∀ stmt ∈ p, stmt.uses name = false) :
    (lang.checkProgram types p).2 = (lang.checkProgram types' p).2 := by
  induction p generalizing types types' with
  | nil => rfl
  | cons stmt p ih =>
    obtain ⟨hstmt, hp⟩ := List.forall_mem_cons.1 hp
    obtain ⟨hstmt', hunused⟩ := List.forall_mem_cons.1 hunused
    have hcheck := lang.adds_check h hstmt hstmt'
    rw [checkProgram, checkProgram]
    generalize lang.check types stmt = x at hcheck
    generalize lang.check types' stmt = y at hcheck
    cases hcheck with
    | done h => exact ih h hp hunused
    | failed he => exact congrArg Outcome.failed he
    | unfinished => rfl

end Language

/-! ## Sessions -/

/-- The second session has one name more, with its type and its value. -/
structure Session.Adds (name : String) (t : Ty) (v : Value) (s s' : Session) : Prop where
  types : s.types.Adds name t s'.types
  values : s.values.Adds name v s'.values

/-- The same was printed and reported, both ended in the same way, and the sessions differ in one name. -/
structure Report.Adds (name : String) (t : Ty) (v : Value) (r r' : Report) : Prop where
  session : r.session.Adds name t v r'.session
  transcript : r.transcript = r'.transcript
  result : r.result = r'.result

namespace Session

variable (lang : Language) {name : String} {t : Ty} {v : Value} {s s' : Session}

theorem adds_step (h : s.Adds name t v s') {stmt : Stmt} (hstmt : stmt.Surface)
    (hunused : stmt.uses name = false) :
    (s.step lang stmt).1.Adds name t v (s'.step lang stmt).1 ∧
      (s.step lang stmt).2 = (s'.step lang stmt).2 := by
  have hexec := lang.adds_exec h.values hstmt hunused
  have hcheck := lang.adds_check h.types hstmt hunused
  unfold step
  generalize lang.exec s.values stmt = x at hexec
  generalize lang.exec s'.values stmt = y at hexec
  generalize lang.check s.types stmt = x' at hcheck
  generalize lang.check s'.types stmt = y' at hcheck
  cases hexec with
  | failed he => exact ⟨h, congrArg (fun e => ([], Outcome.failed (Error.run e))) he⟩
  | unfinished => exact ⟨h, rfl⟩
  | done heffect =>
    dsimp only
    rw [heffect.line]
    cases hcheck with
    | failed he =>
      exact ⟨⟨h.types, heffect.globals⟩, congrArg (fun e => (_, Outcome.failed (Error.typing e))) he⟩
    | unfinished => exact ⟨⟨h.types, heffect.globals⟩, rfl⟩
    | done htypes => exact ⟨⟨htypes, heffect.globals⟩, rfl⟩

theorem adds_steps (h : s.Adds name t v s') {p : Program} (hp : ∀ stmt ∈ p, stmt.Surface)
    (hunused : ∀ stmt ∈ p, stmt.uses name = false) :
    (steps lang s p).Adds name t v (steps lang s' p) := by
  induction p generalizing s s' with
  | nil => exact ⟨h, rfl, rfl⟩
  | cons stmt p ih =>
    obtain ⟨hstmt, hp⟩ := List.forall_mem_cons.1 hp
    obtain ⟨hstmt', hunused⟩ := List.forall_mem_cons.1 hunused
    obtain ⟨hsession, hseen⟩ := adds_step lang h hstmt hstmt'
    rw [steps, steps]
    generalize s.step lang stmt = x at hsession hseen
    generalize s'.step lang stmt = y at hsession hseen
    obtain ⟨u, lines, x⟩ := x
    obtain ⟨u', lines', y⟩ := y
    dsimp only at hsession hseen ⊢
    cases hseen
    cases x with
    | done _ =>
      have hrest := ih hsession hp hunused
      exact ⟨hrest.session, congrArg (Transcript.ofLines lines ++ ·) hrest.transcript, hrest.result⟩
    | failed e => exact ⟨hsession, rfl, rfl⟩
    | unfinished => exact ⟨hsession, rfl, rfl⟩

theorem adds_run (h : s.Adds name t v s') {p : Program} (hp : ∀ stmt ∈ p, stmt.Surface)
    (hunused : ∀ stmt ∈ p, stmt.uses name = false) :
    (s.run lang p).Adds name t v (s'.run lang p) := by
  have hcheck : s.check lang p = s'.check lang p :=
    congrArg (mapError Error.typing) (lang.checkProgram_eq_of_adds h.types hp hunused)
  unfold run
  rw [← hcheck]
  cases s.check lang p with
  | done _ => exact adds_steps lang h hp hunused
  | failed e => exact ⟨h, rfl, rfl⟩
  | unfinished => exact ⟨h, rfl, rfl⟩

/-- After a declaration that succeeded the session has one name more. -/
theorem adds_declare {declared : Lexeme} {value : Expr}
    (h : (s.run lang [.declare declared value]).result = .done ()) :
    ∃ t v, s.Adds declared.text t v (s.run lang [.declare declared value]).session := by
  have hcheck := check_of_run_eq_done h
  rw [run_of_check hcheck] at h ⊢
  obtain ⟨types, hstmt, -⟩ := checkProgram_cons (check_eq_done.1 hcheck)
  rcases hexec : lang.exec s.values (.declare declared value) with effect | e | _
  · obtain ⟨hvalues, v, hglobals⟩ := lang.exec_declare_eq_done hexec
    obtain ⟨_, hnone, -⟩ | ⟨_, _, hnone, -⟩ | ⟨_, _, t, hdeclare, htypes, -, rfl⟩ := lang.check_cases hstmt
    · cases hnone
    · cases hnone
    · cases hdeclare
      rw [steps_of_done _ hstmt hexec, hglobals]
      exact ⟨t, v, Scope.adds_insert htypes t, Scope.adds_insert hvalues v⟩
  · rw [steps_of_failed _ hexec] at h
    cases h
  · rw [steps_of_unfinished _ hexec] at h
    cases h

end Session

open Session

/-- A declaration is invisible to a program that neither declares its name nor has it free: with and without
the declaration the program prints and reports the same and ends in the same way, and the sessions after it
differ in that name only. -/
theorem unused_declaration_invisible (reader lang : Language) {s : Session} {declared : Lexeme}
    {value : Expr} (hdeclare : (s.run lang [.declare declared value]).result = .done ())
    {text : String} {p : Program} (hread : reader.parse text = .ok p)
    (hunused : ∀ stmt ∈ p, stmt.uses declared.text = false) :
    ∃ t v, s.Adds declared.text t v (s.run lang [.declare declared value]).session ∧
      (s.run lang p).Adds declared.text t v ((s.run lang [.declare declared value]).session.run lang p) := by
  obtain ⟨t, v, hadds⟩ := adds_declare lang hdeclare
  exact ⟨t, v, hadds, adds_run lang hadds (surface_of_parse hread) hunused⟩

/-- The name `z` is declared, and the program has it for a parameter only. -/
theorem unused_declaration_invisible_parameter :
    let lang := Language.standard
    let s := fresh.after lang (["var k = 2"].map .source)
    let declare := Stmt.declare ⟨"z", ⟨1, 5⟩⟩ (.binary (.var ⟨"k", ⟨1, 9⟩⟩) ⟨"*", ⟨1, 11⟩⟩ (.int ⟨"21", ⟨1, 13⟩⟩))
    let text := "var m = map({1, 3}, z -> z + k) out m out k / 0"
    let p : Program := [
      .declare ⟨"m", ⟨1, 5⟩⟩ (.call ⟨"map", ⟨1, 9⟩⟩
        [.range (.int ⟨"1", ⟨1, 14⟩⟩) (.int ⟨"3", ⟨1, 17⟩⟩), .lambda [⟨"z", ⟨1, 21⟩⟩]
          (.binary (.var ⟨"z", ⟨1, 26⟩⟩) ⟨"+", ⟨1, 28⟩⟩ (.var ⟨"k", ⟨1, 30⟩⟩))]),
      .out (.var ⟨"m", ⟨1, 37⟩⟩),
      .out (.binary (.var ⟨"k", ⟨1, 43⟩⟩) ⟨"/", ⟨1, 45⟩⟩ (.int ⟨"0", ⟨1, 47⟩⟩))]
    (s.run lang [declare]).result = .done () ∧ lang.parse text = .ok p ∧
      (∀ stmt ∈ p, stmt.uses "z" = false) ∧ (s.run lang p).transcript.lines = ["[3, 4, 5]"] ∧
      ∃ t v, s.Adds "z" t v (s.run lang [declare]).session ∧
        (s.run lang p).Adds "z" t v ((s.run lang [declare]).session.run lang p) := by
  intro lang s declare text p
  have hdeclare : (s.run lang [declare]).result = .done () := by decide +kernel
  have hread : lang.parse text = .ok p := by decide +kernel
  have hunused : ∀ stmt ∈ p, stmt.uses "z" = false := by decide +kernel
  exact ⟨hdeclare, hread, hunused, by decide +kernel,
    unused_declaration_invisible lang lang hdeclare hread hunused⟩

end RangeScript
