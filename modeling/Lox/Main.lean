import Lox.Command
import Std.Time.DateTime.Timestamp

namespace Lox.Shell

/-!
# The program

The command line at work on real files, terminals and clocks. What is done is said in
`Lox.Command`; here each statement is executed on its own, so that its output and its pauses are
seen before the next one starts.

* `runProgram`, `runSource` — program texts in a session.
* `prompt` — the lines of the standard input.
* `main` — the program.
-/

/-- The clock from now on: each reading is a microsecond later than the one before, so that a
    loop that waits for the clock ends. `done` is the number of readings made before. -/
def settingsNow (done : Nat) : IO Settings := do
  let now ← Std.Time.Timestamp.now
  let seconds := Float.ofInt now.toNanosecondsSinceUnixEpoch.val / 1000000000
  return { clock := fun k => seconds + Float.ofNat (k - done) / 1000000 }

/-- Shows what the session has printed and makes up for its pauses. -/
def settle (s : Session) : IO Session := do
  let (bytes, s) := s.drain
  let stdout ← IO.getStdout
  stdout.write bytes
  stdout.flush
  IO.sleep (s.machine.paused * 1000).ceil.toUInt32
  return { s with machine := { s.machine with paused := 0 } }

/-- Executes a loaded program, statement by statement. -/
def runProgram : List (Stmt Nat) → Session → IO (Outcome × Session)
  | [], s => return (.finished, s)
  | statement :: rest, s => do
    let settings ← settingsNow s.machine.readings
    match s.execute settings Session.ample [statement] with
    | (.finished, s) => runProgram rest (← settle s)
    | (outcome, s) => return (outcome, ← settle s)

/-- Runs a program text. -/
def runSource (source : String) (s : Session) : IO (Outcome × Session) := do
  match parse (scan source) with
  | (program, []) =>
    let (program, s) := s.load program
    runProgram program s
  | (_, errors) => return (.failed (.syntactic errors), s)

/-- Why a file cannot be read. -/
def reason : IO.Error → String
  | .noFileOrDirectory _ _ _ => "No such file or directory (os error 2)"
  | .inappropriateType _ _ _ => "Is a directory (os error 21)"
  | .permissionDenied _ _ _ => "Permission denied (os error 13)"
  | e => toString e

/-- The text of a file, or why there is none. -/
def readText (path : String) : IO (Except String String) := do
  match ← (IO.FS.readBinFile path).toBaseIO with
  | .error e => return .error (reason e)
  | .ok bytes =>
    match String.fromUTF8? bytes with
    | some source => return .ok source
    | none => return .error "stream did not contain valid UTF-8"

/-- Runs files in one session, up to the first failure, and returns the exit status. -/
def runPaths : List String → Session → IO Nat
  | [], _ => return 0
  | path :: rest, s => do
    match ← readText path with
    | .error reason =>
      IO.eprintln (Command.unreadableText path reason)
      return Command.unreadableStatus
    | .ok source =>
      match ← runSource source s with
      | (.finished, s) => runPaths rest s
      | (.failed f, _) =>
        IO.eprintln f.text
        return f.status
      | (.outOfFuel, _) => return 1

/-- Runs the lines of the standard input. -/
partial def prompt (s : Session) : IO Nat := do
  let line ← (← IO.getStdin).getLine
  if line.isEmpty then return 0
  match Request.ofLine line.toList with
  | .nothing => prompt s
  | .quit => return 0
  | .run source =>
    match ← runSource source s with
    | (.failed f, s) =>
      IO.eprintln f.text
      prompt s
    | (_, s) => prompt s

/-- Shows the syntax trees of a file and returns the exit status. -/
def showTrees (path : String) : IO Nat := do
  match ← readText path with
  | .error reason =>
    IO.eprintln (Command.unreadableText path reason)
    return Command.unreadableStatus
  | .ok source =>
    let shown := Command.treesOf source
    (← IO.getStdout).write shown.output
    IO.eprint shown.errors
    return shown.status.getD 1

/-- Performs a command and returns the exit status. -/
def perform : Command → IO Nat
  | .prompt => prompt {}
  | .showTrees path => showTrees path
  | .runFiles paths => runPaths paths {}
  | .usage => do
    IO.eprintln Command.usageText
    return Command.usageStatus

end Lox.Shell

/-- The program: performs what its arguments ask for. -/
def main (arguments : List String) : IO UInt32 := do
  return (← Lox.Shell.perform (Lox.Command.ofArguments arguments)).toUInt32
