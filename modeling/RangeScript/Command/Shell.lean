import RangeScript.Charset.Blank
import RangeScript.Command.Options
import RangeScript.Session
import RangeScript.Text.Lines

/-!
# The command

What the command writes to its standard output and standard error, and its exit code, as a function
of its arguments and of what it can read (`run`). A program that comes from the standard input is
read line by line, with prompts, if the standard input is a terminal; each line is then a
submission to one session.
-/

namespace RangeScript.Command

/-- What is written to the standard output and to the standard error. -/
structure Written where
  stdout : String
  stderr : String
deriving DecidableEq, Repr

namespace Written

def nothing : Written := ⟨"", ""⟩

def append (a b : Written) : Written := ⟨a.stdout ++ b.stdout, a.stderr ++ b.stderr⟩

instance : Append Written := ⟨append⟩

def out (text : String) : Written := ⟨text, ""⟩

def err (text : String) : Written := ⟨"", text⟩

/-- The lines of a transcript as they are written; each line of an error is marked as one. -/
def ofTranscript (t : Transcript) : Written where
  stdout := String.join (t.lines.map (· ++ "\n"))
  stderr := String.join ((t.errors.flatMap Text.lines).map ("error: " ++ · ++ "\n"))

end Written

/-- What the command can read besides its arguments. A file that cannot be read has a text that
says why. -/
structure Surroundings where
  stdin : List UInt8
  isTerminal : Bool
  readFile : String → Except String (List UInt8)

/-- What the command did. -/
structure Finish where
  exit : Nat
  written : Written

def success : Nat := 0

def failure : Nat := 1

def badUsage : Nat := 2

/-- Bytes as text. -/
def decode (bytes : List UInt8) : Except String String :=
  match String.fromUTF8? bytes.toByteArray with
  | some text => .ok text
  | none => .error "stream did not contain valid UTF-8"

/-- A message about something that cannot be read. -/
def complaint (subject reason : String) : Written :=
  .err ("seqlang: " ++ subject ++ ": " ++ reason ++ "\n")

/-- What became of a submission: the session after it, what was written, whether it succeeded. -/
structure Submitted where
  session : Session
  written : Written
  ok : Bool

/-- One submission. Its outline is written once it has been read, before it is checked. -/
def submit (dump : Bool) (s : Session) (source : String) : Submitted :=
  match Language.standard.parse source with
  | .error e => ⟨s, .ofTranscript (.ofError e.message), false⟩
  | .ok program =>
    let shown : Written := .err (if dump then program.outline.pretty ++ "\n" else "")
    let report := s.run .standard program
    let ok := match report.result with | .done () => true | _ => false
    ⟨report.session, shown ++ .ofTranscript report.transcript, ok⟩

/-! ## Line by line -/

def banner (quiet : Bool) : Written := .out (if quiet then "" else "seqlang 0.1.0\n")

def prompt (quiet : Bool) : Written := .out (if quiet then "" else "> ")

def farewell (quiet : Bool) : Written := .out (if quiet then "" else "\n")

/-- One line: what is written, and the session for the next line if there is to be one. A blank
line does nothing, and one that is no text ends the session. -/
def takeLine (dump : Bool) (s : Session) (bytes : List UInt8) : Written × Option Session :=
  match decode bytes with
  | .error reason => (complaint "stdin" reason, none)
  | .ok line =>
    if line.toList.all Charset.isBlank then (.nothing, some s)
    else
      let submitted := submit dump s line
      (submitted.written, some submitted.session)

/-- The lines from a terminal, with a prompt before each and before the end. -/
def takeLines (dump quiet : Bool) (s : Session) : List (List UInt8) → Written
  | [] => prompt quiet
  | bytes :: more =>
    match takeLine dump s bytes with
    | (written, some s) => prompt quiet ++ written ++ takeLines dump quiet s more
    | (written, none) => prompt quiet ++ written

/-- A session with a terminal. -/
def converse (dump quiet : Bool) (stdin : List UInt8) : Written :=
  banner quiet ++ takeLines dump quiet .fresh (Text.splitLines 10 13 stdin) ++ farewell quiet

/-! ## All at once -/

/-- Runs one program. -/
def runOnce (dump : Bool) (source : String) : Finish :=
  let submitted := submit dump .fresh source
  ⟨if submitted.ok then success else failure, submitted.written⟩

/-- Runs one program that is read from `subject`. -/
def runRead (dump : Bool) (subject : String) (bytes : Except String (List UInt8)) : Finish :=
  match bytes.bind decode with
  | .ok source => runOnce dump source
  | .error reason => ⟨failure, complaint subject reason⟩

/-- What the command does with arguments that are wrong. -/
def refuse (e : UsageError) : Finish :=
  ⟨badUsage, .err ("seqlang: " ++ e.message ++ "\n" ++ usage ++ "\n")⟩

/-- The command. -/
def run (args : List String) (around : Surroundings) : Finish :=
  match Options.ofArgs args with
  | .error e => refuse e
  | .ok options =>
    match options.source with
    | .code text => runOnce options.dump text
    | .file path => runRead options.dump path (around.readFile path)
    | .stdin =>
      if around.isTerminal then ⟨success, converse options.dump options.quiet around.stdin⟩
      else runRead options.dump "stdin" (.ok around.stdin)

end RangeScript.Command
