import RangeScript.Evaluation

/-!
# Sessions

A session keeps the types and the values of the names declared so far and takes submissions. A
submission is checked as a whole first, and nothing happens if that fails. Then its statements are
run one by one, and each that succeeded is checked into the session, so types and values agree also
after a failure. Every failure is reported in the transcript.
-/

namespace RangeScript

/-- What a host sees of a run: the printed lines and the reported errors, each in order. -/
structure Transcript where
  lines : List String
  errors : List String
deriving DecidableEq, Repr

namespace Transcript

def empty : Transcript := ⟨[], []⟩

def append (a b : Transcript) : Transcript := ⟨a.lines ++ b.lines, a.errors ++ b.errors⟩

instance : Append Transcript := ⟨append⟩

def ofLines (lines : List String) : Transcript := ⟨lines, []⟩

def ofError (e : String) : Transcript := ⟨[], [e]⟩

end Transcript

/-- The types and the values of the declared names. -/
structure Session where
  types : Scope Ty
  values : Scope Value

/-- What became of a submission: the session after it, what the host saw, and how it ended. -/
structure Report where
  session : Session
  transcript : Transcript
  result : Outcome Error Unit

namespace Session

/-- A session in which nothing is declared. -/
def fresh : Session := ⟨[], []⟩

/-- Checks a program without declaring anything. -/
def check (s : Session) (lang : Language) (program : Program) : Outcome Error Unit :=
  (lang.checkProgram s.types program).2.mapError .typing

/-- One statement of a submission that passed its check: what it prints, and the session after it
or how it failed. -/
def step (s : Session) (lang : Language) (stmt : Stmt) :
    Session × List String × Outcome Error Unit :=
  match lang.exec s.values stmt with
  | .failed e => (s, [], .failed (.run e))
  | .unfinished => (s, [], .unfinished)
  | .done effect =>
    let lines := effect.line.toList
    match lang.check s.types stmt with
    | .failed e => ({ s with values := effect.globals }, lines, .failed (.typing e))
    | .unfinished => ({ s with values := effect.globals }, lines, .unfinished)
    | .done types => (⟨types, effect.globals⟩, lines, .done ())

/-- Statements one by one, up to the first that fails; the failure is reported. -/
def steps (lang : Language) : Session → Program → Report
  | s, [] => ⟨s, .empty, .done ()⟩
  | s, stmt :: rest =>
    match s.step lang stmt with
    | (s, lines, .done ()) =>
      let report := steps lang s rest
      { report with transcript := .ofLines lines ++ report.transcript }
    | (s, lines, .failed e) => ⟨s, .ofLines lines ++ .ofError e.message, .failed e⟩
    | (s, lines, .unfinished) => ⟨s, .ofLines lines, .unfinished⟩

/-- Runs a program. -/
def run (s : Session) (lang : Language) (program : Program) : Report :=
  match s.check lang program with
  | .done () => steps lang s program
  | .failed e => ⟨s, .ofError e.message, .failed e⟩
  | .unfinished => ⟨s, .empty, .unfinished⟩

/-- Reads and runs a program. -/
def runSource (s : Session) (lang : Language) (source : String) : Report :=
  match lang.parse source with
  | .ok program => s.run lang program
  | .error e => ⟨s, .ofError e.message, .failed e⟩

end Session

end RangeScript
