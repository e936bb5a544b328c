import StateMarkup.Command

/-!
# The program

The thin layer between the system and `Command.respond`: it gathers what surrounds the program,
reads the files that an answer can depend on, and writes the answer out.
-/

namespace StateMarkup

namespace Program

/-- The number of a system's error, which the upper half of the words holds negated. -/
def errorNumber (code : UInt32) : UInt32 := if code < 0x80000000 then code else -code

/-- Why the system did not give a file. -/
def readError : IO.Error → ReadError
  | .noFileOrDirectory .. => .notFound
  | .permissionDenied .. => .denied
  | .inappropriateType _ code details =>
    if errorNumber code = 20 then .notADirectory
    else if errorNumber code = 21 then .isADirectory
    else .other details
  | .invalidArgument _ code details =>
    if errorNumber code = 36 then .nameTooLong else .other details
  | error => .other (toString error)

/-- What is found under a path. -/
def read (path : String) : IO (Except ReadError ByteArray) := do
  try
    return .ok (← IO.FS.readBinFile path)
  catch error =>
    return .error (readError error)

/-- What surrounds the program, for some arguments. -/
def surroundings (arguments : List String) : IO Surroundings := do
  let home ← IO.getEnv "HOME"
  let document := match Invocation.ofArguments arguments with
    | .ok invocation => [invocation.command.file]
    | .error _ => []
  let found ← (Settings.places home ++ document).mapM fun path => return (path, ← read path)
  let color := Brush.isWanted (← IO.getEnv "CLICOLOR_FORCE") (← IO.getEnv "NO_COLOR")
    (← IO.getEnv "CLICOLOR") (← (← IO.getStdout).isTty)
  return ⟨fun path => (found.lookup path).getD (.error .notFound), home, color,
    ← IO.getEnv "RUST_LOG"⟩

/-- Writes one piece of an answer; a log line has the milliseconds since a start. -/
def emit (start : Nat) : Emission → IO Unit
  | .out text => IO.print text
  | .err text => IO.eprint text
  | .log level text => do
    let now ← IO.monoMsNow
    IO.eprint (logLine (toString (now - start) ++ "ms") level text)

end Program

end StateMarkup

/-- Runs the program. -/
def main (arguments : List String) : IO UInt32 := do
  let start ← IO.monoMsNow
  let report := StateMarkup.Command.respond (← StateMarkup.Program.surroundings arguments) arguments
  report.emissions.forM (StateMarkup.Program.emit start)
  return report.exit.toUInt32
