import RangeScript.Command.Shell

/-!
# The program

Reads what the command needs, and writes what it says.
-/

namespace RangeScript.Command

/-- Everything that can still be read from a stream. -/
partial def readAll (stream : IO.FS.Stream) (sofar : ByteArray) : IO ByteArray := do
  let more ← stream.read 65536
  if more.isEmpty then return sofar else readAll stream (sofar ++ more)

/-- The text of an error of the operating system. -/
def reasonOf (e : IO.Error) : String :=
  match e with
  | .noFileOrDirectory .. => "No such file or directory (os error 2)"
  | .permissionDenied _ code details => details ++ " (os error " ++ toString code ++ ")"
  | .inappropriateType _ code details => details ++ " (os error " ++ toString code ++ ")"
  | .otherError code details => details ++ " (os error " ++ toString code ++ ")"
  | e => toString e

def write (w : Written) : IO Unit := do
  let stdout ← IO.getStdout
  stdout.putStr w.stdout
  stdout.flush
  (← IO.getStderr).putStr w.stderr

/-- The bytes up to and with the next line feed, or up to the end. -/
partial def readLine (stream : IO.FS.Stream) (sofar : ByteArray) : IO ByteArray := do
  let byte ← stream.read 1
  let sofar := sofar ++ byte
  if byte.isEmpty || byte.data.contains 10 then return sofar else readLine stream sofar

/-- The bytes of a line without its end. -/
def trimEnd (line : List UInt8) : List UInt8 :=
  if line.getLast? = some 10 then Text.dropReturn 13 line.dropLast else line

/-- Reads lines from a terminal until there is none or the session ends. -/
partial def readLines (stdin : IO.FS.Stream) (options : Options) (s : Session) : IO Unit := do
  write (prompt options.quiet)
  let line ← readLine stdin .empty
  if line.isEmpty then return
  let (written, next) := takeLine options.dump s (trimEnd line.toList)
  write written
  match next with
  | some s => readLines stdin options s
  | none => return

end RangeScript.Command

open RangeScript.Command in
/-- Entry point of the program. -/
def main (args : List String) : IO UInt32 := do
  let finish (f : Finish) : IO UInt32 := do
    write f.written
    return f.exit.toUInt32
  match Options.ofArgs args with
  | .error e => finish (refuse e)
  | .ok options =>
    match options.source with
    | .code text => finish (runOnce options.dump text)
    | .file path =>
      let bytes ← (IO.FS.readBinFile path).toBaseIO
      finish <| runRead options.dump path <| match bytes with
        | .ok bytes => .ok bytes.toList
        | .error e => .error (reasonOf e)
    | .stdin =>
      let stdin ← IO.getStdin
      if ← stdin.isTty then
        write (banner options.quiet)
        readLines stdin options .fresh
        write (farewell options.quiet)
        return success.toUInt32
      else
        let bytes ← readAll stdin .empty
        finish (runRead options.dump "stdin" (.ok bytes.toList))
