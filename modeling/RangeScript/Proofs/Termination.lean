import RangeScript.Proofs.Journal
import RangeScript.Proofs.SecondClass

/-!
# What was read ends, and no lambda escapes

After any texts all names stand for data, also if further statements are then run or checked one by one,
without regard to each other (`Language.Leads`, `Language.Declares`). There:

* typing and evaluation of what was read end with no more applications active at once than lambdas stand
  inside each other, and bodies are entered only where all names stand for data (`TypingEnds`,
  `EvaluationEnds`);
* no value or type is a lambda or holds one, and no error is about a lambda that has no text.

Lambdas that are built by hand may apply themselves for ever; what makes the difference is that a lambda which was
read is an argument of the call that applies it (`lambdas_never_escape`).
-/

namespace RangeScript

open Outcome

namespace Language

/-! ## Expressions -/

section Expressions
variable (lang : Language)

/-- Evaluation that gives up where the body of a lambda would be entered with a name bound to a lambda. -/
def evalDataAt : Nat → Scope Value → Expr → Outcome RunError Value :=
  recurseAt fun body => lang.evalWith (guarded Value.isData body)

/-- Typing that gives up where the body of a lambda would be entered with a name for a lambda. -/
def inferDataAt : Nat → Scope Ty → Expr → Outcome TypeError Ty :=
  recurseAt fun body => lang.inferWith (guarded (·.shape.isPrintable) body)

/-- Evaluation ends within as many active applications as lambdas stand inside each other, and no name is bound
to a lambda on the way. -/
structure EvaluationEnds (globals : Scope Value) (e : Expr) : Prop where
  ends : lang.evalDataAt e.lambdaDepth globals e ≠ .unfinished
  enough : ∀ n, e.lambdaDepth ≤ n → lang.evalAt n globals e = lang.evalDataAt e.lambdaDepth globals e

/-- Typing ends within as many active applications as lambdas stand inside each other, and no name has the type
of a lambda on the way. -/
structure TypingEnds (types : Scope Ty) (e : Expr) : Prop where
  ends : lang.inferDataAt e.lambdaDepth types e ≠ .unfinished
  enough : ∀ n, e.lambdaDepth ≤ n → lang.inferAt n types e = lang.inferDataAt e.lambdaDepth types e

variable {P : Value → Prop} {globals : Scope Value} {types : Scope Ty} {e : Expr}

theorem obeys_evalAt (hP : Value.Kept P) (hglobals : globals.All P) (he : e.Surface) (n : Nat) :
    (lang.evalAt n globals e).Obeys P RunError.IsPlain (n < e.lambdaDepth) := by
  rw [evalAt_eq_recurseAt]
  exact obeys_recurseAt (fun hbody _ e hscope => obeys_evalWith hP hbody hscope e) hglobals he n

theorem obeys_inferAt (htypes : types.IsData) (he : e.Surface) (n : Nat) :
    (lang.inferAt n types e).Obeys Ty.IsData TypeError.IsPlain (n < e.lambdaDepth) := by
  rw [inferAt_eq_recurseAt]
  exact obeys_recurseAt (fun hbody _ e hscope => obeys_inferWith hbody hscope e) htypes he n

variable {lang}

theorem evaluationEnds (hglobals : globals.All (·.isData = true)) (he : e.Surface) :
    lang.EvaluationEnds globals e := by
  have hobeys : (lang.evalDataAt e.lambdaDepth globals e).Obeys (·.isData = true) RunError.IsPlain
      (e.lambdaDepth < e.lambdaDepth) :=
    obeys_recurseAt (fun hbody _ e hscope =>
      obeys_evalWith Value.kept_isData (hbody.guarded fun _ h => h) hscope e) hglobals he _
  have hends := hobeys.ne_unfinished (Nat.lt_irrefl _)
  refine ⟨hends, fun n hn => ?_⟩
  rw [evalAt_eq_recurseAt]
  refine UpTo.eq (recurseAt_upTo (fun hbody scope e => ?_) hn globals e) hends
  exact evalWith_upTo (guarded_upTo _ hbody) e

theorem typingEnds (htypes : types.IsData) (he : e.Surface) : lang.TypingEnds types e := by
  have hobeys : (lang.inferDataAt e.lambdaDepth types e).Obeys Ty.IsData TypeError.IsPlain
      (e.lambdaDepth < e.lambdaDepth) :=
    obeys_recurseAt (fun hbody _ e hscope =>
      obeys_inferWith (hbody.guarded fun _ h => h) hscope e) htypes he _
  have hends := hobeys.ne_unfinished (Nat.lt_irrefl _)
  refine ⟨hends, fun n hn => ?_⟩
  rw [inferAt_eq_recurseAt]
  refine UpTo.eq (recurseAt_upTo (fun hbody scope e => ?_) hn types e) hends
  exact inferWith_upTo (guarded_upTo _ hbody) e

end Expressions

/-! ## Statements -/

section Statements
variable (lang : Language) {P : Value → Prop} {globals globals' : Scope Value}
  {types types' : Scope Ty} {stmt : Stmt}

/-- A statement that was read keeps the property of all values, ends if the bound on applications is not less than
its depth, and does not fail for lack of a text. -/
theorem obeys_exec (hP : Value.Kept P) (hglobals : globals.All P) (hstmt : stmt.Surface) :
    (lang.exec globals stmt).Obeys (·.globals.All P) RunError.IsPlain
      (lang.callDepth < stmt.lambdaDepth) := by
  cases stmt with
  | print text => exact hglobals
  | out value =>
    rw [exec]
    refine (lang.obeys_evalAt hP hglobals hstmt lang.callDepth).bind fun v hv => ?_
    obtain ⟨text, htext⟩ := v.renderAfter_eq_ok_of_isData (hP.isData v hv) ""
    rw [Value.render, htext]
    exact hglobals
  | declare name value =>
    rw [exec]
    split
    · rfl
    · refine (lang.obeys_evalAt hP hglobals hstmt lang.callDepth).bind fun v hv => ?_
      exact hglobals.insert name.text hv

theorem obeys_check (htypes : types.IsData) (hstmt : stmt.Surface) :
    (lang.check types stmt).Obeys Scope.IsData TypeError.IsPlain
      (lang.callDepth < stmt.lambdaDepth) := by
  cases stmt with
  | print text => exact htypes
  | out value =>
    rw [check]
    refine (lang.obeys_inferAt htypes hstmt lang.callDepth).bind fun t ht => ?_
    split
    · exact htypes
    · next hprintable => exact absurd ht hprintable
  | declare name value =>
    rw [check]
    split
    · rfl
    · refine (lang.obeys_inferAt htypes hstmt lang.callDepth).bind fun t ht => ?_
      exact Scope.All.insert htypes name.text ht

/-- The check of a program, by induction on its statements. -/
theorem obeys_checkProgram {p : Program} (htypes : types.IsData) (hp : ∀ stmt ∈ p, stmt.Surface)
    {d : Nat} (hd : ∀ stmt ∈ p, stmt.lambdaDepth ≤ d) :
    (lang.checkProgram types p).2.Obeys (fun _ => True) TypeError.IsPlain (lang.callDepth < d) := by
  induction p generalizing types with
  | nil => trivial
  | cons stmt p ih =>
    obtain ⟨hstmt, hp⟩ := List.forall_mem_cons.1 hp
    obtain ⟨hdepth, hd⟩ := List.forall_mem_cons.1 hd
    have hcheck := (lang.obeys_check htypes hstmt).mono fun h => Nat.lt_of_lt_of_le h hdepth
    rw [checkProgram]
    split
    · next heq =>
      rw [heq] at hcheck
      exact ih hcheck hp hd
    · next heq =>
      rw [heq] at hcheck
      exact hcheck
    · next heq =>
      rw [heq] at hcheck
      exact hcheck

/-- The values of names after some statements that were read were run one by one, without a check. -/
inductive Leads (lang : Language) (globals : Scope Value) : Scope Value → Prop
  | refl : Leads lang globals globals
  | step {globals' : Scope Value} {text : String} {p : Program} {stmt : Stmt} {effect : Effect} :
    Leads lang globals globals' → lang.parse text = .ok p → stmt ∈ p →
    lang.exec globals' stmt = .done effect → Leads lang globals effect.globals

/-- The types of names after some statements that were read were checked one by one. -/
inductive Declares (lang : Language) (types : Scope Ty) : Scope Ty → Prop
  | refl : Declares lang types types
  | step {types' types'' : Scope Ty} {text : String} {p : Program} {stmt : Stmt} :
    Declares lang types types' → lang.parse text = .ok p → stmt ∈ p →
    lang.check types' stmt = .done types'' → Declares lang types types''

variable {lang}

theorem Leads.all (h : lang.Leads globals globals') (hP : Value.Kept P) (hglobals : globals.All P) :
    globals'.All P := by
  induction h with
  | refl => exact hglobals
  | step _ hparse hmem hexec ih =>
    have hobeys := lang.obeys_exec hP ih (surface_of_parse hparse _ hmem)
    rw [hexec] at hobeys
    exact hobeys

theorem Declares.isData (h : lang.Declares types types') (htypes : types.IsData) : types'.IsData := by
  induction h with
  | refl => exact htypes
  | step _ hparse hmem hcheck ih => exact isData_check ih (surface_of_parse hparse _ hmem) hcheck

end Statements

/-! ## Where all names stand for data -/

section Confined
variable (lang : Language)

/-- What can be said of evaluation with the names bound to `globals`, for all that was read. -/
structure EvaluationConfined (globals : Scope Value) : Prop where
  isData : globals.All (·.isData = true)
  ends : ∀ e, e.Written lang → lang.EvaluationEnds globals e
  result : ∀ e n v, e.Written lang → lang.evalAt n globals e = .done v → v.isData = true
  stmt_ends : ∀ text p stmt, lang.parse text = .ok p → stmt ∈ p →
    stmt.lambdaDepth ≤ lang.callDepth → lang.exec globals stmt ≠ .unfinished
  stmt_error : ∀ text p stmt err, lang.parse text = .ok p → stmt ∈ p →
    lang.exec globals stmt = .failed err → err.isUnprintable = false

/-- What can be said of typing with the names of the types `types`, for all that was read. -/
structure TypingConfined (types : Scope Ty) : Prop where
  isData : types.IsData
  ends : ∀ e, e.Written lang → lang.TypingEnds types e
  result : ∀ e n t, e.Written lang → lang.inferAt n types e = .done t → t.IsData
  program_ends : ∀ text p, lang.parse text = .ok p →
    (∀ stmt ∈ p, stmt.lambdaDepth ≤ lang.callDepth) → (lang.checkProgram types p).2 ≠ .unfinished
  program_error : ∀ text p err, lang.parse text = .ok p →
    (lang.checkProgram types p).2 = .failed err → err.isUnprintable = false

variable {lang}

theorem evaluationConfined {globals : Scope Value} (h : globals.All (·.isData = true)) :
    lang.EvaluationConfined globals where
  isData := h
  ends e he := evaluationEnds h he.surface
  result e n v he hv := by
    have hobeys := lang.obeys_evalAt Value.kept_isData h he.surface n
    rw [hv] at hobeys
    exact hobeys
  stmt_ends text p stmt hparse hmem hdepth := by
    have hobeys := lang.obeys_exec Value.kept_isData h (surface_of_parse hparse stmt hmem)
    exact hobeys.ne_unfinished (Nat.not_lt_of_le hdepth)
  stmt_error text p stmt err hparse hmem hexec := by
    have hobeys := lang.obeys_exec Value.kept_isData h (surface_of_parse hparse stmt hmem)
    rw [hexec] at hobeys
    exact hobeys

theorem typingConfined {types : Scope Ty} (h : types.IsData) : lang.TypingConfined types where
  isData := h
  ends e he := typingEnds h he.surface
  result e n t he ht := by
    have hobeys := lang.obeys_inferAt h he.surface n
    rw [ht] at hobeys
    exact hobeys
  program_ends text p hparse hdepth := by
    have hobeys := lang.obeys_checkProgram h (surface_of_parse hparse) hdepth
    exact hobeys.ne_unfinished (Nat.lt_irrefl _)
  program_error text p err hparse hfailed := by
    have hobeys := lang.obeys_checkProgram h (surface_of_parse hparse) (lambdaDepth_le_of_parse hparse)
    rw [hfailed] at hobeys
    exact hobeys

end Confined

end Language

/-! ## Sessions -/

namespace Session

variable {lang : Language} {P : Value → Prop} {s : Session}

theorem all_step (lang : Language) (hP : Value.Kept P) (hs : s.values.All P) {stmt : Stmt} (hstmt : stmt.Surface) :
    (s.step lang stmt).1.values.All P := by
  have hobeys := lang.obeys_exec hP hs hstmt
  unfold step
  split
  · exact hs
  · exact hs
  · next hexec =>
    rw [hexec] at hobeys
    dsimp only
    split <;> exact hobeys

theorem all_steps (hP : Value.Kept P) (hs : s.values.All P) {p : Program}
    (hp : ∀ stmt ∈ p, stmt.Surface) : (steps lang s p).session.values.All P := by
  induction p generalizing s with
  | nil => exact hs
  | cons stmt p ih =>
    obtain ⟨hstmt, hp⟩ := List.forall_mem_cons.1 hp
    have hstep := all_step lang hP hs hstmt
    rw [steps]
    split
    · next heq =>
      rw [heq] at hstep
      exact ih hstep hp
    · next heq =>
      rw [heq] at hstep
      exact hstep
    · next heq =>
      rw [heq] at hstep
      exact hstep

/-- A property of data that evaluation keeps holds of all values of a session of texts. -/
theorem all_after (hP : Value.Kept P) (hs : s.values.All P) (texts : List String) :
    (s.after lang (texts.map .source)).values.All P := by
  induction texts generalizing s with
  | nil => exact hs
  | cons text texts ih =>
    refine ih (s := (s.runSource lang text).session) ?_
    unfold runSource
    split
    · next p hparse =>
      unfold run
      split
      · exact all_steps hP hs (surface_of_parse hparse)
      · exact hs
      · exact hs
    · exact hs

theorem all_fresh : fresh.values.All P := by
  intro binding hbinding
  cases hbinding

/-- After any texts, and any statements run or checked after them: what was read holds no more than
`Parse.maxNesting` lambdas inside each other; its typing and its evaluation, checked or not, end within as many
active applications; and no lambda is a value, or is bound to a name, or is missed for its text. -/
theorem lambdas_never_escape (lang : Language) (texts : List String) :
    let s := fresh.after lang (texts.map .source)
    (∀ e : Expr, e.Written lang → e.lambdaDepth ≤ Parse.maxNesting) ∧
    (∀ globals, lang.Leads s.values globals → lang.EvaluationConfined globals) ∧
    ∀ types, lang.Declares s.types types → lang.TypingConfined types := by
  intro s
  have hvalues : s.values.All (·.isData = true) := all_after Value.kept_isData all_fresh texts
  have htypes : s.types.IsData := (plain_after plain_fresh texts).isData
  refine ⟨fun e he => he.lambdaDepth_le, fun globals h => ?_, fun types h => ?_⟩
  · exact Language.evaluationConfined (h.all Value.kept_isData hvalues)
  · exact Language.typingConfined (h.isData htypes)

/-- The text is rejected, because a sequence is reduced onto itself. Without a check its first statement, which
applies lambdas two deep, succeeds; the second then fails, and not for lack of a text. -/
theorem lambdas_never_escape_unchecked :
    let lang := Language.standard
    let s := fresh.after lang (["var n = 2"].map .source)
    let text := "var m = map({1, n}, i -> reduce({i, n}, i, a j -> a * j)) out reduce(m, m, a x -> a + x)"
    let products : Expr := .call ⟨"map", ⟨1, 9⟩⟩
      [.range (.int ⟨"1", ⟨1, 14⟩⟩) (.var ⟨"n", ⟨1, 17⟩⟩), .lambda [⟨"i", ⟨1, 21⟩⟩]
        (.call ⟨"reduce", ⟨1, 26⟩⟩ [.range (.var ⟨"i", ⟨1, 34⟩⟩) (.var ⟨"n", ⟨1, 37⟩⟩),
          .var ⟨"i", ⟨1, 41⟩⟩, .lambda [⟨"a", ⟨1, 44⟩⟩, ⟨"j", ⟨1, 46⟩⟩]
            (.binary (.var ⟨"a", ⟨1, 51⟩⟩) ⟨"*", ⟨1, 53⟩⟩ (.var ⟨"j", ⟨1, 55⟩⟩))])]
    let sum : Expr := .call ⟨"reduce", ⟨1, 63⟩⟩ [.var ⟨"m", ⟨1, 70⟩⟩, .var ⟨"m", ⟨1, 73⟩⟩,
      .lambda [⟨"a", ⟨1, 76⟩⟩, ⟨"x", ⟨1, 78⟩⟩]
        (.binary (.var ⟨"a", ⟨1, 83⟩⟩) ⟨"+", ⟨1, 85⟩⟩ (.var ⟨"x", ⟨1, 87⟩⟩))]
    let declare := Stmt.declare ⟨"m", ⟨1, 5⟩⟩ products
    lang.parse text = .ok [declare, .out sum] ∧ products.lambdaDepth = 2 ∧
      (lang.checkProgram s.types [declare, .out sum]).2 ≠ .done () ∧
      (lang.checkProgram s.types [declare, .out sum]).2 ≠ .unfinished ∧
      lang.TypingEnds s.types products ∧ lang.EvaluationEnds s.values products ∧
      ∃ globals err, lang.Leads s.values globals ∧ lang.exec globals (.out sum) = .failed err ∧
        err.isUnprintable = false := by
  intro lang s text products sum declare
  have hparse : lang.parse text = .ok [declare, .out sum] := by decide +kernel
  have hfirst : (lang.exec s.values declare).error? = none := by decide +kernel
  have hsecond : (lang.exec s.values declare >>= fun effect =>
      lang.exec effect.globals (.out sum)).error?.isSome = true := by
    decide +kernel
  have hdepth : ∀ stmt ∈ [declare, .out sum], stmt.lambdaDepth ≤ lang.callDepth := by decide +kernel
  obtain ⟨-, hvalues, htypes⟩ := lambdas_never_escape lang ["var n = 2"]
  have hconfined := hvalues s.values .refl
  have htyping := htypes s.types .refl
  have hwritten : products.Written lang := .inside hparse List.mem_cons_self rfl
  refine ⟨hparse, by decide +kernel, by decide +kernel, htyping.program_ends text _ hparse hdepth,
    htyping.ends products hwritten, hconfined.ends products hwritten, ?_⟩
  rcases hdone : lang.exec s.values declare with effect | e | _
  · have hleads : lang.Leads s.values effect.globals := .step .refl hparse List.mem_cons_self hdone
    rw [hdone, done_bind] at hsecond
    rcases hfailed : lang.exec effect.globals (.out sum) with _ | err | _ <;> rw [hfailed] at hsecond
    · cases hsecond
    · have herror := (hvalues effect.globals hleads).stmt_error text _ _ err hparse (by simp) hfailed
      exact ⟨effect.globals, err, hleads, hfailed, herror⟩
    · cases hsecond
  · rw [hdone] at hfirst
    cases hfirst
  · exact absurd hdone
      (hconfined.stmt_ends text _ _ hparse List.mem_cons_self (hdepth _ List.mem_cons_self))

end Session

end RangeScript
