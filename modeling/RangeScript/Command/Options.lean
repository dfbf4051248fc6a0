/-!
# Options of the command line

Flags may be clustered, and a cluster may end in a `c` that takes the rest of the cluster, or else
the next argument, as the program to run. Two dashes end the flags; one dash is a file name that
stands for the standard input.
-/

namespace RangeScript.Command

/-- Where the program comes from. -/
inductive Source
  | stdin
  | code (text : String)
  | file (path : String)
deriving DecidableEq, Repr

/-- What the arguments ask for: whether to show the outline of each program, whether to leave out
banner and prompts, and where the program comes from. -/
structure Options where
  dump : Bool
  quiet : Bool
  source : Source
deriving DecidableEq, Repr

/-- What can be wrong with the arguments. -/
inductive UsageError
  | missingCode
  | unknownOption (letter : Char)
  | codeAndFile
  | tooManyArguments (count : Nat)
deriving DecidableEq, Repr

def UsageError.message : UsageError → String
  | missingCode => "-c requires a code argument"
  | unknownOption letter => "unknown option: -" ++ letter.toString
  | codeAndFile => "-c and a source file are mutually exclusive"
  | tooManyArguments count => "too many arguments (" ++ toString count ++ ")"

def usage : String := "Usage: seqlang [-dq] [-c<code>] [--] [<file>]"

/-- What was seen among the arguments so far. -/
structure Seen where
  dump : Bool
  quiet : Bool
  code : Option String
  files : List String
deriving DecidableEq, Repr

/-- Takes in a cluster of flags; also tells whether its last flag waits for the next argument. -/
def Seen.cluster (s : Seen) : List Char → Except UsageError (Seen × Bool)
  | [] => .ok (s, false)
  | 'd' :: letters => { s with dump := true }.cluster letters
  | 'q' :: letters => { s with quiet := true }.cluster letters
  | ['c'] => .ok (s, true)
  | 'c' :: text => .ok ({ s with code := some (String.ofList text) }, false)
  | letter :: _ => .error (.unknownOption letter)

/-- The flags of an argument that is a cluster. -/
def flags? (arg : String) : Option (List Char) :=
  match arg.toList with
  | ['-'] => none
  | '-' :: letters => some letters
  | _ => none

/-- Takes in the arguments from left to right. -/
def Seen.collect (s : Seen) : List String → Except UsageError Seen
  | [] => .ok s
  | arg :: rest =>
    if arg = "--" then .ok { s with files := s.files ++ rest }
    else
      match flags? arg with
      | none => { s with files := s.files ++ [arg] }.collect rest
      | some letters =>
        match s.cluster letters with
        | .error e => .error e
        | .ok (s, false) => s.collect rest
        | .ok (s, true) =>
          match rest with
          | [] => .error .missingCode
          | text :: rest => { s with code := some text }.collect rest

/-- Where the program comes from, after all arguments. -/
def Seen.source (s : Seen) : Except UsageError Source :=
  match s.code, s.files with
  | some text, [] => .ok (.code text)
  | some _, _ :: _ => .error .codeAndFile
  | none, [] => .ok .stdin
  | none, [path] => .ok (if path = "-" then .stdin else .file path)
  | none, paths => .error (.tooManyArguments paths.length)

/-- The options that the arguments give. -/
def Options.ofArgs (args : List String) : Except UsageError Options := do
  let s ← Seen.collect ⟨false, false, none, []⟩ args
  let source ← s.source
  return ⟨s.dump, s.quiet, source⟩

end RangeScript.Command
