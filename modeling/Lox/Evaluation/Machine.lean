import Lox.Environment

namespace Lox

/-!
# The machine that runs programs

What a run changes: the environment, the output, the number of open calls, and the time: how often
the clock was read and for how long the program paused. A run is a computation on this state; it
ends with a result, with a run-time error, or because its fuel has run out. The state is kept in
each case.

* `Sink` — the output; it may refuse to take more than a number of bytes.
* `Machine`, `Settings` — the state of a run, and what is fixed during it.
* `Run` — a computation on a machine.
* `inNewFrame`, `inCall` — what is undone however a run ends.
* `anew` — a run of its own.
-/

/-! ### Output -/

/-- Where `print` writes to. A sink with a capacity takes that many bytes in all, the first ones,
    and fails every write that goes beyond. -/
structure Sink where
  written : ByteArray := ByteArray.empty
  capacity : Option Nat := none

namespace Sink

/-- Why a full sink fails. -/
def closed : String := "closed"

/-- The part of some bytes that a sink still takes. -/
def accepted (s : Sink) (bytes : ByteArray) : ByteArray :=
  match s.capacity with
  | none => bytes
  | some capacity => bytes.extract 0 (capacity - s.written.size)

/-- Writes as many of the bytes as fit, and tells whether all of them did. -/
def write (s : Sink) (bytes : ByteArray) : Bool × Sink :=
  let taken := s.accepted bytes
  (taken.size == bytes.size, { s with written := s.written ++ taken })

/-- Takes out what has been written. The room that is left stays the same. -/
def drain (s : Sink) : ByteArray × Sink :=
  (s.written, ⟨ByteArray.empty, s.capacity.map (· - s.written.size)⟩)

end Sink

/-! ### Machines -/

/-- What is fixed during a run. -/
structure Settings where
  /-- The number of calls of declared functions that may be open at once. -/
  callLimit : Nat := 1024
  /-- The time when the clock is read for the time of that number, counted from zero, by a program
      that has made no pause: in seconds since the epoch, and negative before it. -/
  clock : Nat → Float

/-- The state of a run. -/
structure Machine where
  env : Environment := Environment.global
  output : Sink := {}
  /-- The number of calls of declared functions that are open. -/
  depth : Nat := 0
  /-- How often the clock has been read. -/
  readings : Nat := 0
  /-- The pauses made so far, in seconds all together. -/
  paused : Float := 0

/-- Why a run ends early. -/
inductive Stop
  | failed (error : RuntimeError)
  /-- The run was not given the steps that it needs. It may need more of them, or never end. -/
  | outOfFuel

/-- A computation on a machine. -/
abbrev Run (α : Type) := EStateM Stop Machine α

namespace Run

variable {α : Type}

/-- Ends the run with an error. -/
def fail (e : RuntimeError) : Run α := throw (.failed e)

/-- Ends the run for want of fuel. -/
def exhausted : Run α := throw .outOfFuel

/-- Goes on with a value, or ends the run with an error. -/
def ofExcept : Except RuntimeError α → Run α
  | .ok a => pure a
  | .error e => fail e

/-! ### Steps -/

/-- The value of a variable. -/
def get (name : Token) : Run Value := do
  ofExcept ((← getThe Machine).env.get name)

/-- Binds a name in the current scope. -/
def define (name : Token) (value : Value) : Run Unit :=
  modify fun m => { m with env := m.env.define name.lexeme value }

/-- Binds names to values in the current scope, one after the other. -/
def defineAll : List Token → List Value → Run Unit
  | name :: names, value :: values => do
    define name value
    defineAll names values
  | _, _ => pure ()

/-- Gives a new value to a variable. -/
def assign (name : Token) (value : Value) : Run Unit := do
  let env ← ofExcept ((← getThe Machine).env.assign name value)
  modify fun m => { m with env }

/-- Writes a value and a line end; what the output refuses is an error at the keyword. -/
def print (keyword : Token) (value : Value) : Run Unit := do
  let complete ← modifyGet fun m =>
    match m.output.write (value.text ++ "\n").toUTF8 with
    | (complete, output) => (complete, { m with output })
  if complete then pure () else fail ⟨keyword, .output Sink.closed⟩

/-- The time at which the clock is read. Time that the program has paused has passed. -/
def readClock (settings : Settings) : Run Float :=
  modifyGet fun m =>
    (settings.clock m.readings + m.paused, { m with readings := m.readings + 1 })

/-- Pauses. -/
def pause (seconds : Float) : Run Unit :=
  modify fun m => { m with paused := m.paused + seconds }

/-! ### Brackets -/

/-- Runs in a new scope inside the current one, which is left however the run ends. -/
def inNewFrame (run : Run α) : Run α := fun m =>
  match run { m with env := m.env.push } with
  | .ok a m => .ok a { m with env := m.env.pop }
  | .error e m => .error e { m with env := m.env.pop }

/-- Runs as a call, which ends however the run ends. -/
def inCall (run : Run α) : Run α := fun m =>
  match run { m with depth := m.depth + 1 } with
  | .ok a m => .ok a { m with depth := m.depth - 1 }
  | .error e m => .error e { m with depth := m.depth - 1 }

/-- Runs with no call open, whatever was open in the run before. -/
def anew (run : Run α) : Run α := fun m => run { m with depth := 0 }

end Run

end Lox
