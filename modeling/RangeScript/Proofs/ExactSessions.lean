import RangeScript.Proofs.ExactSimulation
import RangeScript.Proofs.Journal
import RangeScript.Proofs.LockStep
import RangeScript.Proofs.Preservation

/-!
# Sessions on whole numbers are exact

The statements that a session carried out are in its journal. If no text holds a real number, the exact run of the
journal succeeds, prints the same lines and binds the same values, and no step of it is too large. The same holds of
each further text that succeeds. One that passes its check and fails stops where the exact run divides by zero too,
or at the first step of the exact run that does not fit: an operator whose exact result is out of range, or a range
with too many elements (`ExactRun.Explains`). So no wrapped number is ever made (`whole_numbers_exact`).
-/

namespace RangeScript

open Outcome

/-! ## Statements and programs -/

namespace Language

/-- The effects are on values that denote each other, and the same is printed. -/
structure Effect.Denotes (effect : Effect) (exact : ExactEffect) : Prop where
  globals : Scope.Related Value.Denotes effect.globals exact.globals
  line : effect.line = exact.line

/-- The names are bound to values that denote each other, and the same lines were printed. -/
def RunDenotes (run : Scope Value × List String) (exact : Scope ExactValue × List String) : Prop :=
  Scope.Related Value.Denotes run.1 exact.1 ∧ run.2 = exact.2

variable {lang : Language} {values : Scope Value} {globals : Scope ExactValue}

theorem follows_exec (hops : lang.operators = standardOperators)
    (hscope : Scope.Related Value.Denotes values globals) {stmt : Stmt} (h : stmt.isWhole = true) :
    (lang.exec values stmt).Follows lang.rangeLimit Effect.Denotes (lang.exactExec globals stmt) := by
  cases stmt with
  | print text => exact .pure ⟨hscope, rfl⟩
  | out value =>
    rw [exec, exactExec]
    refine (follows_evalAt hops lang.callDepth values globals value hscope h).bind fun v x hv => ?_
    rw [hv.render_eq]
    rcases hrender : x.render with e | text
    · have he : e = .lambdaOutput := v.renderAfter_eq_error "" (hv.render_eq.trans hrender)
      rw [he]
      exact .failed rfl
    · exact .pure ⟨hscope, rfl⟩
  | declare name value =>
    rw [exec, exactExec, hscope.contains_eq name.text]
    by_cases hbound : globals.contains name.text = true
    · rw [if_pos hbound, if_pos hbound]
      exact .failed rfl
    · rw [if_neg hbound, if_neg hbound]
      refine (follows_evalAt hops lang.callDepth values globals value hscope h).bind fun v x hv => ?_
      exact .pure ⟨.cons hv hscope, rfl⟩

variable (lang)

/-- Runs the statements of a program without a check, up to the first that fails: the names bound in the end, and all
lines. -/
def execAll : Scope Value → Program → Outcome RunError (Scope Value × List String)
  | values, [] => .done (values, [])
  | values, stmt :: rest => do
    let effect ← lang.exec values stmt
    let after ← execAll effect.globals rest
    return (after.1, effect.line.toList ++ after.2)

variable {lang}

theorem follows_execAll (hops : lang.operators = standardOperators) {p : Program}
    (hp : ∀ stmt ∈ p, stmt.isWhole = true) (hscope : Scope.Related Value.Denotes values globals) :
    (lang.execAll values p).Follows lang.rangeLimit RunDenotes (lang.exactRun globals p) := by
  induction p generalizing values globals with
  | nil => exact .pure ⟨hscope, rfl⟩
  | cons stmt p ih =>
    obtain ⟨hstmt, hp⟩ := List.forall_mem_cons.1 hp
    rw [execAll, exactRun]
    refine (follows_exec hops hscope hstmt).bind fun effect exact heffect => ?_
    refine (ih hp heffect.globals).bind fun after exact' hafter => .pure ⟨hafter.1, ?_⟩
    rw [heffect.line, hafter.2]

theorem execAll_cons_of_done {stmt : Stmt} {effect : Effect} (h : lang.exec values stmt = .done effect)
    (p : Program) :
    lang.execAll values (stmt :: p) =
      lang.execAll effect.globals p >>= fun after => .done (after.1, effect.line.toList ++ after.2) := by
  rw [execAll, h]
  rfl

end Language

/-! ## Submissions -/

/-- The report of a submission tells how its statements ended. -/
def Report.Carries (r : Report) : Outcome RunError (Scope Value × List String) → Prop
  | .done after => r.result = .done () ∧ r.session.values = after.1 ∧ r.transcript.lines = after.2
  | .failed e => r.result = .failed (.run e)
  | .unfinished => r.result = .unfinished

namespace Session

variable {lang : Language} {s : Session} {p : Program}

/-- A submission that passed its check does what its statements do. -/
theorem carries_steps (h : (lang.checkProgram s.types p).2 = .done ()) :
    (steps lang s p).Carries (lang.execAll s.values p) := by
  induction p generalizing s with
  | nil => exact ⟨rfl, rfl, rfl⟩
  | cons stmt p ih =>
    obtain ⟨types, hcheck, hrest⟩ := checkProgram_cons h
    rcases hexec : lang.exec s.values stmt with effect | e | _
    · have hcarries := ih (s := ⟨types, effect.globals⟩) hrest
      rw [Language.execAll_cons_of_done hexec p, steps_of_done p hcheck hexec]
      dsimp only at hcarries
      rcases hall : lang.execAll effect.globals p with after | e | _ <;> rw [hall] at hcarries
      · obtain ⟨hresult, hvalues, hlines⟩ := hcarries
        refine ⟨hresult, hvalues, ?_⟩
        rw [Transcript.lines_append, Transcript.lines_ofLines, hlines]
      · exact hcarries
      · exact hcarries
    · rw [Language.execAll, hexec, steps_of_failed p hexec]
      rfl
    · rw [Language.execAll, hexec, steps_of_unfinished p hexec]
      rfl

theorem check_of_run_eq_done (h : (s.run lang p).result = .done ()) : s.check lang p = .done () := by
  unfold run at h
  rcases hcheck : s.check lang p with _ | e | _ <;> rw [hcheck] at h
  · cases h
  · cases h

theorem carries_run (h : s.check lang p = .done ()) : (s.run lang p).Carries (lang.execAll s.values p) := by
  rw [run_of_check h]
  exact carries_steps (check_eq_done.1 h)

theorem execAll_of_run_eq_done (h : (s.run lang p).result = .done ()) :
    lang.execAll s.values p =
      .done ((s.run lang p).session.values, (s.run lang p).transcript.lines) := by
  have hcarries := carries_run (check_of_run_eq_done h)
  rcases hall : lang.execAll s.values p with after | e | _ <;> rw [hall] at hcarries
  · obtain ⟨-, hvalues, hlines⟩ := hcarries
    rw [hvalues, hlines]
  · rw [hcarries] at h
    cases h
  · rw [hcarries] at h
    cases h

/-- Statements that can be replayed one at a time can be run one after the other. -/
theorem execAll_of_replays {lines : List String} {t : Session} (h : Replays lang s p lines t) :
    lang.execAll s.values p = .done (t.values, lines) := by
  induction p generalizing s lines with
  | nil =>
    obtain ⟨-, hprinted, hafter⟩ := h
    cases hprinted
    cases hafter
    rfl
  | cons stmt p ih =>
    have hfirst : (s.run lang [stmt]).result = .done () := h.succeeds _ List.mem_cons_self
    have hrest : Replays lang (s.run lang [stmt]).session p
        ((s.run lang [stmt]).session.printed lang (singly p)) t :=
      ⟨fun r hr => h.succeeds r (List.mem_cons_of_mem _ hr), rfl, h.after⟩
    have hlines : lines = (s.run lang [stmt]).transcript.lines ++
        (s.run lang [stmt]).session.printed lang (singly p) := by
      rw [← h.printed]
      rfl
    have hsingle := execAll_of_run_eq_done hfirst
    rw [Language.execAll] at hsingle
    obtain ⟨effect, hexec, hreturn⟩ := bind_eq_done.1 hsingle
    have hpair : (effect.globals, effect.line.toList ++ []) =
        ((s.run lang [stmt]).session.values, (s.run lang [stmt]).transcript.lines) := by
      injection hreturn
    obtain ⟨hvalues, hprinted⟩ := Prod.mk.inj hpair
    rw [Language.execAll_cons_of_done hexec, hvalues, ih hrest, hlines, ← hprinted, List.append_nil]
    rfl

end Session

/-! ## Texts without real numbers -/

/-- The text cannot be read, or there is no real number in it. -/
def Language.isWholeText (lang : Language) (text : String) : Bool :=
  match lang.parse text with
  | .ok p => p.all Stmt.isWhole
  | .error _ => true

theorem Language.isWhole_of_parse {lang : Language} {text : String} {p : Program}
    (h : lang.isWholeText text = true) (hparse : lang.parse text = .ok p) :
    ∀ stmt ∈ p, stmt.isWhole = true := by
  unfold isWholeText at h
  rw [hparse] at h
  exact List.all_eq_true.1 h

theorem Language.isWhole_completed {lang : Language} {p : Program} (hp : ∀ stmt ∈ p, stmt.isWhole = true)
    (values : Scope Value) : ∀ stmt ∈ lang.completed values p, stmt.isWhole = true := by
  induction p generalizing values with
  | nil => exact hp
  | cons stmt p ih =>
    obtain ⟨hstmt, hp⟩ := List.forall_mem_cons.1 hp
    unfold completed
    split
    · exact List.forall_mem_cons.2 ⟨hstmt, ih hp _⟩
    · simp

namespace Session

variable {lang : Language}

theorem isWhole_entries (s : Session) {text : String} (h : lang.isWholeText text = true) :
    ∀ stmt ∈ s.entries lang (.source text), stmt.isWhole = true := by
  unfold entries
  dsimp only [Submission.program?]
  rcases hparse : lang.parse text with e | p
  · simp [Except.toOption]
  · dsimp only [Except.toOption]
    split
    · exact Language.isWhole_completed (Language.isWhole_of_parse h hparse) s.values
    · simp

theorem isWhole_journal (s : Session) {texts : List String}
    (h : ∀ text ∈ texts, lang.isWholeText text = true) :
    ∀ stmt ∈ s.journal lang (texts.map .source), stmt.isWhole = true := by
  induction texts generalizing s with
  | nil => simp [journal]
  | cons text texts ih =>
    obtain ⟨htext, htexts⟩ := List.forall_mem_cons.1 h
    exact List.forall_mem_append.2 ⟨isWhole_entries s htext, ih _ htexts⟩

end Session

/-! ## Why a run fails -/

/-- A division by zero at an operator, inside any functions. -/
def RunError.isDivision : RunError → Bool
  | atOperator _ divisionByZero => true
  | inFunction _ cause => cause.isDivision
  | _ => false

theorem RunError.isDivision_of_isLimit {e : RunError} (hlimit : e.isLimit = true)
    (hlarge : e.isTooLarge = false) : e.isDivision = true := by
  induction e with
  | atOperator op cause _ =>
    cases cause with
    | divisionByZero => rfl
    | overflow _ => cases hlarge
    | _ => cases hlimit
  | inFunction name cause ih => exact ih hlimit hlarge
  | rangeTooLarge _ _ => cases hlarge
  | _ => cases hlimit

theorem RunError.isLimit_inFunctions (functions : List Lexeme) (e : RunError) :
    (functions.foldr .inFunction e).isLimit = e.isLimit := by
  induction functions with
  | nil => rfl
  | cons name functions ih => exact ih

/-- The exact run accounts for an error of the run with limits: it ends with the same division by zero, or its first
step that does not fit is an operator with a result out of range or a range with too many elements. -/
inductive ExactRun.Explains {α : Type} (run : ExactRun α) (limit : Nat) : RunError → Prop
  | division {e : RunError} : e.isDivision = true → (∀ ev ∈ run.events, ev.step.fits limit = true) →
    run.outcome = .failed e → Explains run limit e
  | overflow (before after : List ExactEvent) (functions : List Lexeme) (op : Lexeme) (operator : Operator)
    (a b : Int) : run.events = before ++ ⟨functions, .operation op operator a b⟩ :: after →
    (∀ ev ∈ before, ev.step.fits limit = true) →
    operator.exact a b < -0x8000000000000000 ∨ 0x7fffffffffffffff < operator.exact a b →
    Explains run limit (functions.foldr .inFunction (.atOperator op (.overflow operator.symbol)))
  | range (before after : List ExactEvent) (functions : List Lexeme) (pos : Position) (lo hi : Int) :
    run.events = before ++ ⟨functions, .range pos lo hi⟩ :: after →
    (∀ ev ∈ before, ev.step.fits limit = true) → limit < (hi - lo + 1).toNat →
    Explains run limit (functions.foldr .inFunction (.rangeTooLarge pos (hi - lo + 1).toNat))

theorem Outcome.Follows.explains {α β : Type} {limit : Nat} {R : α → β → Prop} {e : RunError}
    {run : ExactRun β} (h : Follows limit R (.failed e) run) (hlimit : e.isLimit = true) :
    run.Explains limit e := by
  cases h with
  | matched hfits hmatch =>
    generalize houtcome : run.outcome = outcome at hmatch
    cases hmatch with
    | failed hlarge => exact .division (RunError.isDivision_of_isLimit hlimit hlarge) hfits houtcome
  | stopped before ev after hevents hbefore hev he =>
    cases he
    obtain ⟨functions, step⟩ := ev
    cases step with
    | literal literal n =>
      rw [ExactEvent.error, RunError.isLimit_inFunctions] at hlimit
      cases hlimit
    | operation op operator a b =>
      have hrange := of_decide_eq_false hev
      exact .overflow before after functions op operator a b hevents hbefore (by omega)
    | range pos lo hi =>
      have hlength := of_decide_eq_false hev
      exact .range before after functions pos lo hi hevents hbefore (Nat.lt_of_not_le hlength)

theorem Outcome.Follows.of_done {α β : Type} {limit : Nat} {R : α → β → Prop} {a : α} {run : ExactRun β}
    (h : Follows limit R (.done a) run) :
    (∀ ev ∈ run.events, ev.step.fits limit = true) ∧ ∃ b, run.outcome = .done b ∧ R a b := by
  cases h with
  | stopped _ _ _ _ _ _ he => cases he
  | matched hfits hmatch =>
    generalize run.outcome = outcome at hmatch ⊢
    cases hmatch with
    | @done _ b hab => exact ⟨hfits, b, rfl, hab⟩

/-! ## Sessions -/

namespace Session

variable {lang : Language} {s : Session} {p : Program} {globals : Scope ExactValue}

/-- A submission that succeeds, in a session with values that denote exact ones. -/
theorem exactRun_of_run_eq_done (hops : lang.operators = Language.standardOperators)
    (hp : ∀ stmt ∈ p, stmt.isWhole = true) (hscope : Scope.Related Value.Denotes s.values globals)
    (h : (s.run lang p).result = .done ()) :
    (∀ ev ∈ (lang.exactRun globals p).events, ev.step.fits lang.rangeLimit = true) ∧
      ∃ after, (lang.exactRun globals p).outcome = .done (after, (s.run lang p).transcript.lines) ∧
        Scope.Related Value.Denotes (s.run lang p).session.values after := by
  have hfollows := Language.follows_execAll hops hp hscope
  rw [execAll_of_run_eq_done h] at hfollows
  obtain ⟨hfits, ⟨after, lines⟩, houtcome, hvalues, hlines⟩ := hfollows.of_done
  cases hlines
  exact ⟨hfits, after, houtcome, hvalues⟩

/-- A submission that passes its check and fails. -/
theorem explains_of_run_ne_done (hops : lang.operators = Language.standardOperators)
    (hp : ∀ stmt ∈ p, stmt.isWhole = true) (hscope : Scope.Related Value.Denotes s.values globals)
    (hsurface : ∀ stmt ∈ p, stmt.Surface) (hs : s.Plain) (hcheck : s.check lang p = .done ())
    (h : (s.run lang p).result ≠ .done ()) :
    ∃ e, (s.run lang p).result = .failed (.run e) ∧
      (lang.exactRun globals p).Explains lang.rangeLimit e := by
  obtain ⟨e, hresult, hlimit⟩ := (hs.sound_run hsurface hcheck).resolve_left h
  have hcarries := carries_run hcheck
  have hfollows := Language.follows_execAll hops hp hscope
  rcases hall : lang.execAll s.values p with after | err | _ <;> rw [hall] at hcarries hfollows
  · exact absurd hcarries.1 h
  · have heq : err = e := by
      have hsame := hcarries.symm.trans hresult
      injection hsame with hsame
      injection hsame
    rw [heq] at hfollows
    exact ⟨e, hresult, hfollows.explains hlimit⟩
  · have hsame := hcarries.symm.trans hresult
    cases hsame

/-- After any texts without real numbers, the exact run of the statements that were carried out printed the same
lines and bound the same values, without a step that is too large. Of a further such text: if it succeeds, so does
its exact run, with the same lines and values and no step that is too large; if it passes its check and fails, the
exact run explains the error. -/
theorem whole_numbers_exact (lang : Language) (hops : lang.operators = Language.standardOperators)
    (texts : List String) (hwhole : ∀ text ∈ texts, lang.isWholeText text = true) :
    let history := texts.map Submission.source
    let s := fresh.after lang history
    let past := lang.exactRun [] (fresh.journal lang history)
    (∀ ev ∈ past.events, ev.step.fits lang.rangeLimit = true) ∧
    ∃ globals, past.outcome = .done (globals, fresh.printed lang history) ∧
      Scope.Related Value.Denotes s.values globals ∧
      ∀ text p, lang.parse text = .ok p → lang.isWholeText text = true →
        let report := s.runSource lang text
        let exact := lang.exactRun globals p
        (report.result = .done () → (∀ ev ∈ exact.events, ev.step.fits lang.rangeLimit = true) ∧
          ∃ after, exact.outcome = .done (after, report.transcript.lines) ∧
            Scope.Related Value.Denotes report.session.values after) ∧
        (s.check lang p = .done () → report.result ≠ .done () →
          ∃ e, report.result = .failed (.run e) ∧ exact.Explains lang.rangeLimit e) := by
  intro history s past
  have hreplays : Replays lang fresh (fresh.journal lang history) (fresh.printed lang history) s :=
    replays_journal fresh history
  have hfollows : (lang.execAll fresh.values (fresh.journal lang history)).Follows lang.rangeLimit
      Language.RunDenotes past :=
    Language.follows_execAll hops (isWhole_journal fresh hwhole) .nil
  rw [execAll_of_replays hreplays] at hfollows
  obtain ⟨hfits, ⟨globals, lines⟩, houtcome, hvalues, hlines⟩ := hfollows.of_done
  cases hlines
  refine ⟨hfits, globals, houtcome, hvalues, fun text p hparse htext => ?_⟩
  have hp := Language.isWhole_of_parse htext hparse
  intro report exact
  have hreport : report = s.run lang p := runSource_of_parse hparse s
  rw [hreport]
  refine ⟨exactRun_of_run_eq_done hops hp hvalues, fun hcheck hfails => ?_⟩
  exact explains_of_run_ne_done hops hp hvalues (surface_of_parse hparse) (plain_after plain_fresh texts)
    hcheck hfails

/-- The largest number is bound, and a division by zero was refused before. The text prints the number below it and
then adds numbers up in a function until the sum is too large. -/
theorem whole_numbers_exact_at_limit :
    let lang := Language.standard
    let texts := ["var big = 9223372036854775807 var xs = {big - 2, big}", "out big / 0"]
    let s := fresh.after lang (texts.map .source)
    let text := "out big - 1 out reduce(xs, 0, a x -> a + x)"
    let p : Program := [.out (.binary (.var ⟨"big", ⟨1, 5⟩⟩) ⟨"-", ⟨1, 9⟩⟩ (.int ⟨"1", ⟨1, 11⟩⟩)),
      .out (.call ⟨"reduce", ⟨1, 17⟩⟩ [.var ⟨"xs", ⟨1, 24⟩⟩, .int ⟨"0", ⟨1, 28⟩⟩,
        .lambda [⟨"a", ⟨1, 31⟩⟩, ⟨"x", ⟨1, 33⟩⟩]
          (.binary (.var ⟨"a", ⟨1, 38⟩⟩) ⟨"+", ⟨1, 40⟩⟩ (.var ⟨"x", ⟨1, 42⟩⟩))])]
    lang.parse text = .ok p ∧ s.check lang p = .done () ∧
      (s.runSource lang text).transcript.lines = ["9223372036854775806"] ∧
      (s.runSource lang text).result ≠ .done () ∧
      ∃ globals e, Scope.Related Value.Denotes s.values globals ∧
        (s.runSource lang text).result = .failed (.run e) ∧
        (lang.exactRun globals p).Explains lang.rangeLimit e := by
  intro lang texts s text p
  have hwhole : ∀ text ∈ texts, lang.isWholeText text = true := by decide +kernel
  have hparse : lang.parse text = .ok p := by decide +kernel
  have hcheck : s.check lang p = .done () := by decide +kernel
  have hfails : (s.runSource lang text).result ≠ .done () := by decide +kernel
  obtain ⟨-, globals, -, hvalues, hnext⟩ := whole_numbers_exact lang rfl texts hwhole
  obtain ⟨-, hexplains⟩ := hnext text p hparse (by decide +kernel)
  obtain ⟨e, hresult, he⟩ := hexplains hcheck hfails
  exact ⟨hparse, hcheck, by decide +kernel, hfails, globals, e, hvalues, hresult, he⟩

end Session

end RangeScript
