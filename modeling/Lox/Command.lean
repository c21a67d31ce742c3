import Lox.Session
import Lox.Syntax.Sexpr
import Lox.Text.Line

namespace Lox

/-!
# The command line

What the program does with its arguments, its files and its standard input. Without arguments it
reads lines and runs each of them; with names of files it runs these, one after the other, in one
session; with `--ast` it shows the syntax trees of a file.

* `Command.ofArguments` — the command that the arguments ask for.
* `Command.perform` — what a command writes, and its exit status.
* `Request.ofLine` — what a line typed at the prompt asks for.
-/

/-! ### Commands -/

/-- What to do. -/
inductive Command
  /-- Run the lines of the standard input. -/
  | prompt
  /-- Show the syntax trees of a file. -/
  | showTrees (path : String)
  /-- Run files. -/
  | runFiles (paths : List String)
  /-- Say how to call the program. -/
  | usage
deriving DecidableEq, Repr

namespace Command

/-- The command that the arguments ask for. Only the first argument can be a flag. -/
def ofArguments : List String → Command
  | [] => .prompt
  | ["--ast", path] => .showTrees path
  | first :: rest =>
    if first.toList.head? = some '-' then .usage else .runFiles (first :: rest)

/-- How to call the program. -/
def usageText : String := "usage: treelox [--ast FILE | FILE...]"

/-- The exit status after a wrong call. -/
def usageStatus : Nat := 64

/-- The exit status after a file that could not be read. -/
def unreadableStatus : Nat := 74

/-- What is said of a file that could not be read. -/
def unreadableText (path reason : String) : String := "failed to read " ++ path ++ ": " ++ reason

end Command

/-- The exit status after a failure. -/
def Failure.status : Failure → Nat
  | .syntactic _ => 65
  | .runtime _ => 70

/-! ### The prompt -/

/-- What a line typed at the prompt asks for. -/
inductive Request
  | nothing
  | quit
  | run (source : String)
deriving DecidableEq, Repr

/-- What a line says, without the white space around it, is a program text, apart from an empty one
    and from the word `quit`. -/
def Request.ofLine (line : List Char) : Request :=
  let said := withoutBackspaces (withoutLineEnd line)
  let trimmed := String.ofList (trimWhiteSpace said)
  if trimmed = "" then .nothing else if trimmed = "quit" then .quit else .run trimmed

/-! ### Performing commands -/

/-- What a command wrote, and how it ended. -/
structure Transcript where
  output : ByteArray := ByteArray.empty
  errors : String := ""
  /-- The exit status; none if the fuel ran out first. -/
  status : Option Nat := some 0

namespace Command

variable (settings : Settings) (fuel : Nat)

/-- Runs the lines typed at the prompt. A failure is reported, and the next line is run. -/
def runLines : List (List Char) → (errors : String) → Session → Transcript
  | [], errors, s => ⟨s.machine.output.written, errors, some 0⟩
  | line :: rest, errors, s =>
    match Request.ofLine line with
    | .nothing => runLines rest errors s
    | .quit => ⟨s.machine.output.written, errors, some 0⟩
    | .run source =>
      match s.run settings fuel source with
      | (.finished, s) => runLines rest errors s
      | (.failed f, s) => runLines rest (errors ++ f.text ++ "\n") s
      | (.outOfFuel, s) => ⟨s.machine.output.written, errors, none⟩

/-- Runs files in one session, up to the first failure. `read` gives the text of a file, or the
    reason why there is none. -/
def runPaths (read : String → Except String String) : List String → Session → Transcript
  | [], s => ⟨s.machine.output.written, "", some 0⟩
  | path :: rest, s =>
    match read path with
    | .error reason =>
      ⟨s.machine.output.written, unreadableText path reason ++ "\n", some unreadableStatus⟩
    | .ok source =>
      match s.run settings fuel source with
      | (.finished, s) => runPaths read rest s
      | (.failed f, s) => ⟨s.machine.output.written, f.text ++ "\n", some f.status⟩
      | (.outOfFuel, s) => ⟨s.machine.output.written, "", none⟩

/-- The s-expressions of the statements of a program text that are well formed, and its errors. -/
def treesOf (source : String) : Transcript :=
  match parse (scan source) with
  | (program, errors) =>
    let output := (String.join (program.map fun s => s.sexpr ++ "\n")).toUTF8
    match errors with
    | [] => ⟨output, "", some 0⟩
    | _ =>
      let failure := Failure.syntactic errors
      ⟨output, failure.text ++ "\n", some failure.status⟩

/-- Performs a command with the given files and standard input. -/
def perform (read : String → Except String String) (stdin : String) : Command → Transcript
  | .prompt => runLines settings fuel (lines stdin.toList) "" {}
  | .showTrees path =>
    match read path with
    | .error reason => ⟨ByteArray.empty, unreadableText path reason ++ "\n", some unreadableStatus⟩
    | .ok source => treesOf source
  | .runFiles paths => runPaths settings fuel read paths {}
  | .usage => ⟨ByteArray.empty, usageText ++ "\n", some usageStatus⟩

end Command

end Lox
