import RangeScript.Session

/-!
# Histories of submissions

A host hands one submission after the other to a session, as texts or as programs (`Submission`).
`Session.reports` are what became of them and `Session.after` is the session in the end. A
submission that passed its check is never rejected later: each of its statements is committed when it
is done (`Session.steps_of_done`), or it fails or does not end, and then nothing has changed.
-/

namespace RangeScript

namespace Transcript

@[simp] theorem lines_append (a b : Transcript) : (a ++ b).lines = a.lines ++ b.lines := rfl

@[simp] theorem lines_empty : empty.lines = [] := rfl

@[simp] theorem lines_ofLines (lines : List String) : (ofLines lines).lines = lines := rfl

end Transcript

/-- What a host may hand to a session. -/
inductive Submission
  | source (text : String)
  | program (p : Program)

/-- The program of a submission, unless its text cannot be read. -/
def Submission.program? (lang : Language) : Submission → Option Program
  | source text => (lang.parse text).toOption
  | program p => some p

/-- What it takes for a statement to pass its check, and what is declared after it. -/
theorem Language.check_cases {lang : Language} {types types' : Scope Ty} {stmt : Stmt}
    (h : lang.check types stmt = .done types') :
    (∃ text, stmt = .print text ∧ types' = types) ∨
    (∃ value t, stmt = .out value ∧ lang.infer types value = .done t ∧
      t.shape.isPrintable = true ∧ types' = types) ∨
    ∃ name value t, stmt = .declare name value ∧ types.contains name.text = false ∧
      lang.infer types value = .done t ∧ types' = types.insert name.text t := by
  cases stmt with
  | print text =>
    cases h
    exact .inl ⟨text, rfl, rfl⟩
  | out value =>
    obtain ⟨t, ht, hreturn⟩ := Outcome.bind_eq_done.1 h
    split at hreturn
    · next hprintable =>
      cases hreturn
      exact .inr (.inl ⟨value, t, rfl, ht, hprintable, rfl⟩)
    · cases hreturn
  | declare name value =>
    rw [check] at h
    split at h
    · cases h
    · next hnew =>
      obtain ⟨t, ht, hreturn⟩ := Outcome.bind_eq_done.1 h
      cases hreturn
      exact .inr (.inr ⟨name, value, t, rfl, Bool.eq_false_iff.2 hnew, ht, rfl⟩)

namespace Session

variable (lang : Language)

def submit (s : Session) : Submission → Report
  | .source text => s.runSource lang text
  | .program p => s.run lang p

/-- What became of each submission of a history, in order. -/
def reports : Session → List Submission → List Report
  | _, [] => []
  | s, sub :: rest => s.submit lang sub :: reports (s.submit lang sub).session rest

/-- The session after a history. -/
def after : Session → List Submission → Session
  | s, [] => s
  | s, sub :: rest => after (s.submit lang sub).session rest

theorem reports_append (s : Session) (h h' : List Submission) :
    s.reports lang (h ++ h') = s.reports lang h ++ (s.after lang h).reports lang h' := by
  induction h generalizing s with
  | nil => rfl
  | cons sub h ih =>
    rw [List.cons_append, reports, reports, after, ih, List.cons_append]

theorem after_append (s : Session) (h h' : List Submission) :
    s.after lang (h ++ h') = (s.after lang h).after lang h' := by
  induction h generalizing s with
  | nil => rfl
  | cons sub h ih => exact ih _

/-! ## Submissions that pass their check -/

variable {lang}

theorem check_eq_done {s : Session} {p : Program} :
    s.check lang p = .done () ↔ (lang.checkProgram s.types p).2 = .done () := by
  unfold check
  rcases (lang.checkProgram s.types p).2 with _ | _ | _ <;> simp [Outcome.mapError]

/-- A program passes its check if its first statement does and the others do after it. -/
theorem checkProgram_cons {types : Scope Ty} {stmt : Stmt} {p : Program}
    (h : (lang.checkProgram types (stmt :: p)).2 = .done ()) :
    ∃ types', lang.check types stmt = .done types' ∧
      (lang.checkProgram types' p).2 = .done () := by
  unfold Language.checkProgram at h
  rcases hstmt : lang.check types stmt with types' | e | _
  · rw [hstmt] at h
    exact ⟨types', rfl, h⟩
  · rw [hstmt] at h
    cases h
  · rw [hstmt] at h
    cases h

theorem runSource_of_parse {text : String} {p : Program} (h : lang.parse text = .ok p) (s : Session) :
    s.runSource lang text = s.run lang p := by
  simp only [runSource, h]

theorem run_of_check {s : Session} {p : Program} (h : s.check lang p = .done ()) :
    s.run lang p = steps lang s p := by
  unfold run
  rw [h]

section Steps
variable {s : Session} {stmt : Stmt} {types : Scope Ty} (p : Program)

/-- A statement that was checked and is done is committed, and the others follow. -/
theorem steps_of_done {effect : Language.Effect} (hcheck : lang.check s.types stmt = .done types)
    (hexec : lang.exec s.values stmt = .done effect) :
    steps lang s (stmt :: p) =
      { steps lang ⟨types, effect.globals⟩ p with
        transcript := .ofLines effect.line.toList ++
          (steps lang ⟨types, effect.globals⟩ p).transcript } := by
  have hstep : s.step lang stmt = (⟨types, effect.globals⟩, effect.line.toList, .done ()) := by
    unfold step
    rw [hexec]
    simp only [hcheck]
  rw [steps, hstep]

theorem steps_of_failed {e : RunError} (hexec : lang.exec s.values stmt = .failed e) :
    steps lang s (stmt :: p) =
      ⟨s, .ofLines [] ++ .ofError (Error.run e).message, .failed (.run e)⟩ := by
  have hstep : s.step lang stmt = (s, [], .failed (.run e)) := by
    unfold step
    rw [hexec]
  rw [steps, hstep]

theorem steps_of_unfinished (hexec : lang.exec s.values stmt = .unfinished) :
    steps lang s (stmt :: p) = ⟨s, .ofLines [], .unfinished⟩ := by
  have hstep : s.step lang stmt = (s, [], .unfinished) := by
    unfold step
    rw [hexec]
  rw [steps, hstep]

end Steps

end Session

end RangeScript
