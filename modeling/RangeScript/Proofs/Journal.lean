import RangeScript.Proofs.Equality
import RangeScript.Proofs.History

/-!
# The journal of a session

The journal of a history holds the statements that were carried out: of each submission that can be
read and passes its check, those before the first that fails or does not end. Submitted again one at
a time, they succeed and lead to the same session with the same lines printed (`journal_law`), so
nothing of a submission that is not in the journal has left a trace but its error.
-/

namespace RangeScript

/-- The statements before the first whose evaluation does not succeed. -/
def Language.completed (lang : Language) : Scope Value → Program → Program
  | _, [] => []
  | globals, stmt :: rest =>
    match lang.exec globals stmt with
    | .done effect => stmt :: completed lang effect.globals rest
    | _ => []

/-- The error that something ended with. -/
def Outcome.error? {ε α : Type} : Outcome ε α → Option ε
  | failed e => some e
  | _ => none

namespace Session

variable (lang : Language)

/-- What a submission adds to the journal. -/
def entries (s : Session) (sub : Submission) : Program :=
  match sub.program? lang with
  | none => []
  | some p =>
    match s.check lang p with
    | .done () => lang.completed s.values p
    | _ => []

/-- The journal of a history. -/
def journal : Session → List Submission → Program
  | _, [] => []
  | s, sub :: rest => s.entries lang sub ++ journal (s.submit lang sub).session rest

/-- The statements of a program, each as a submission of its own. -/
def singly (p : Program) : List Submission := p.map fun stmt => .program [stmt]

/-- All lines that were printed in a history, in order. -/
def printed (s : Session) (history : List Submission) : List String :=
  (s.reports lang history).flatMap (·.transcript.lines)

/-- All errors that were reported in a history, in order. -/
def reported (s : Session) (history : List Submission) : List String :=
  (s.reports lang history).flatMap (·.transcript.errors)

/-- Submitted one at a time from `s` on, the statements succeed, print the lines and lead to `t`. -/
structure Replays (s : Session) (p : Program) (lines : List String) (t : Session) : Prop where
  succeeds : ∀ r ∈ s.reports lang (singly p), r.result = .done ()
  printed : s.printed lang (singly p) = lines
  after : s.after lang (singly p) = t

variable {lang}

theorem Replays.nil (s : Session) : Replays lang s [] [] s where
  succeeds r hr := by cases hr
  printed := rfl
  after := rfl

theorem Replays.append {s t u : Session} {p q : Program} {lines lines' : List String}
    (h : Replays lang s p lines t) (h' : Replays lang t q lines' u) :
    Replays lang s (p ++ q) (lines ++ lines') u := by
  have hsingly : singly (p ++ q) = singly p ++ singly q := List.map_append
  refine ⟨?_, ?_, ?_⟩
  · intro r hr
    rw [hsingly, reports_append, h.after] at hr
    rcases List.mem_append.1 hr with hr | hr
    · exact h.succeeds r hr
    · exact h'.succeeds r hr
  · rw [Session.printed, hsingly, reports_append, h.after, List.flatMap_append]
    rw [← h.printed, ← h'.printed]
    rfl
  · rw [hsingly, after_append, h.after, h'.after]

/-- A statement that passes its check and succeeds does the same alone. -/
theorem Replays.single {s : Session} {stmt : Stmt} {types : Scope Ty} {effect : Language.Effect}
    (hcheck : lang.check s.types stmt = .done types)
    (hexec : lang.exec s.values stmt = .done effect) :
    Replays lang s [stmt] effect.line.toList ⟨types, effect.globals⟩ := by
  have hpass : s.check lang [stmt] = .done () := by
    rw [check_eq_done]
    unfold Language.checkProgram
    rw [hcheck]
    rfl
  have hrun : s.submit lang (.program [stmt]) =
      ⟨⟨types, effect.globals⟩, .ofLines effect.line.toList ++ .empty, .done ()⟩ := by
    change s.run lang [stmt] = _
    rw [run_of_check hpass, steps_of_done [] hcheck hexec]
    rfl
  have hreports : s.reports lang (singly [stmt]) =
      [⟨⟨types, effect.globals⟩, .ofLines effect.line.toList ++ .empty, .done ()⟩] := by
    rw [← hrun]
    rfl
  refine ⟨?_, ?_, ?_⟩
  · intro r hr
    rw [hreports] at hr
    rw [List.mem_singleton.1 hr]
  · rw [Session.printed, hreports]
    simp
  · change (s.submit lang (.program [stmt])).session = _
    rw [hrun]

/-- What a submission that passed its check did can be replayed from the journal. -/
theorem replays_completed {s : Session} {p : Program}
    (h : (lang.checkProgram s.types p).2 = .done ()) :
    Replays lang s (lang.completed s.values p) (steps lang s p).transcript.lines
      (steps lang s p).session := by
  induction p generalizing s with
  | nil => exact Replays.nil s
  | cons stmt p ih =>
    obtain ⟨types, hcheck, hrest⟩ := checkProgram_cons h
    unfold Language.completed
    rcases hexec : lang.exec s.values stmt with effect | e | _
    · rw [steps_of_done p hcheck hexec]
      exact (Replays.single hcheck hexec).append (ih (s := ⟨types, effect.globals⟩) hrest)
    · rw [steps_of_failed p hexec]
      exact Replays.nil s
    · rw [steps_of_unfinished p hexec]
      exact Replays.nil s

theorem errors_steps {s : Session} {p : Program}
    (h : (lang.checkProgram s.types p).2 = .done ()) :
    (steps lang s p).transcript.errors =
      ((steps lang s p).result.error?.map Error.message).toList := by
  induction p generalizing s with
  | nil => rfl
  | cons stmt p ih =>
    obtain ⟨types, hcheck, hrest⟩ := checkProgram_cons h
    rcases hexec : lang.exec s.values stmt with effect | e | _
    · rw [steps_of_done p hcheck hexec]
      exact ih (s := ⟨types, effect.globals⟩) hrest
    · rw [steps_of_failed p hexec]
      rfl
    · rw [steps_of_unfinished p hexec]
      rfl

/-! ## Submissions and histories -/

theorem replays_run (s : Session) (p : Program) :
    Replays lang s (s.entries lang (.program p)) (s.run lang p).transcript.lines
      (s.run lang p).session ∧
    (s.run lang p).transcript.errors = ((s.run lang p).result.error?.map Error.message).toList := by
  unfold entries run
  dsimp only [Submission.program?]
  rcases hcheck : s.check lang p with _ | e | _
  · have h := check_eq_done.1 hcheck
    exact ⟨replays_completed h, errors_steps h⟩
  · exact ⟨Replays.nil s, rfl⟩
  · exact ⟨Replays.nil s, rfl⟩

theorem replays_submit (s : Session) (sub : Submission) :
    Replays lang s (s.entries lang sub) (s.submit lang sub).transcript.lines
      (s.submit lang sub).session ∧
    (s.submit lang sub).transcript.errors =
      ((s.submit lang sub).result.error?.map Error.message).toList := by
  cases sub with
  | program p => exact replays_run s p
  | source text =>
    unfold entries submit runSource
    dsimp only [Submission.program?]
    rcases lang.parse text with e | p
    · exact ⟨Replays.nil s, rfl⟩
    · exact replays_run s p

theorem replays_journal (s : Session) (history : List Submission) :
    Replays lang s (s.journal lang history) (s.printed lang history) (s.after lang history) := by
  induction history generalizing s with
  | nil => exact Replays.nil s
  | cons sub history ih => exact (replays_submit s sub).1.append (ih _)

theorem reported_eq (s : Session) (history : List Submission) :
    s.reported lang history =
      (s.reports lang history).filterMap fun r => r.result.error?.map Error.message := by
  induction history generalizing s with
  | nil => rfl
  | cons sub history ih =>
    obtain ⟨-, hsub⟩ : Replays lang s _ _ _ ∧ _ := replays_submit s sub
    have hrest := ih (s.submit lang sub).session
    unfold reported at hrest ⊢
    rw [reports, List.flatMap_cons, hsub, hrest, List.filterMap_cons]
    rcases (s.submit lang sub).result.error? with _ | e
    · rfl
    · rfl

/-- Replaying the journal of a history one statement at a time on a fresh session succeeds at every
step, and the types, the values and the printed lines are those of the history; and the history
reported just the messages of the submissions that failed, each once and in order. -/
theorem journal_law (lang : Language) (history : List Submission) :
    (∀ r ∈ fresh.reports lang (singly (fresh.journal lang history)), r.result = .done ()) ∧
    (fresh.after lang (singly (fresh.journal lang history))).types =
      (fresh.after lang history).types ∧
    (fresh.after lang (singly (fresh.journal lang history))).values =
      (fresh.after lang history).values ∧
    fresh.printed lang (singly (fresh.journal lang history)) = fresh.printed lang history ∧
    fresh.reported lang history =
      (fresh.reports lang history).filterMap fun r => r.result.error?.map Error.message := by
  have h : Replays lang fresh _ _ _ := replays_journal fresh history
  exact ⟨h.succeeds, by rw [h.after], by rw [h.after], h.printed, reported_eq fresh history⟩

/-- The first text succeeds. The second is rejected, so its `y` is not bound and nothing is printed. The third binds
`y` and prints it before it fails, and the last uses both names. -/
example :
    let history : List Submission := ["var x = 2 out x", "var y = 5 out y out z",
      "var y = x + 1 out y out 1 / 0 out x", "out x * y"].map .source
    let carriedOut : Program := [.declare ⟨"x", ⟨1, 5⟩⟩ (.int ⟨"2", ⟨1, 9⟩⟩), .out (.var ⟨"x", ⟨1, 15⟩⟩),
      .declare ⟨"y", ⟨1, 5⟩⟩ (.binary (.var ⟨"x", ⟨1, 9⟩⟩) ⟨"+", ⟨1, 11⟩⟩ (.int ⟨"1", ⟨1, 13⟩⟩)),
      .out (.var ⟨"y", ⟨1, 19⟩⟩),
      .out (.binary (.var ⟨"x", ⟨1, 5⟩⟩) ⟨"*", ⟨1, 7⟩⟩ (.var ⟨"y", ⟨1, 9⟩⟩))]
    fresh.journal .standard history = carriedOut ∧
      fresh.printed .standard history = ["2", "3", "6"] ∧
      fresh.reported .standard history =
        ["use of undeclared variable z at 1:21", "division by zero\nfor / at 1:27"] ∧
      (fresh.after .standard history).types = [("y", .int), ("x", .int)] ∧
      (fresh.after .standard history).values.map (fun binding => (binding.1, binding.2.toInt?)) =
        [("y", some 3), ("x", some 2)] ∧
      (∀ r ∈ fresh.reports .standard (singly carriedOut), r.result = .done ()) ∧
      fresh.printed .standard (singly carriedOut) = ["2", "3", "6"] ∧
      (fresh.after .standard (singly carriedOut)).types = [("y", .int), ("x", .int)] ∧
      (fresh.after .standard (singly carriedOut)).values.map (fun binding => (binding.1, binding.2.toInt?)) =
        [("y", some 3), ("x", some 2)] := by
  decide +kernel

end Session

end RangeScript
