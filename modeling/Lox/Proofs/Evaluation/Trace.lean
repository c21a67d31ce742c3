import Lox.Proofs.Evaluation.Scope

namespace Lox

/-!
# What a run does on its way

The result of a run does not tell how it was reached. The trace of a run does: it lists in order
what is printed and which declared functions are called, each time with the machine at that point.
Those are the steps at which a run depends on a limit, of the output or of the calls that may be
open. The trace is computed along with the run and with the same fuel; if the run wants for fuel, it
is the trace up to there.

* `Event` — a print or a call.
* `Event.bytesOf`, `Event.Recorded` — what the prints of a trace write, and that the machines of a
  trace have it as their output.
* `firstBeyond` — the first print of a trace that does not fit into so many bytes.
* `evaluateTrace`, `executeTrace`, …, `executeAllTrace` — the traces of runs.
-/

/-- A step of a run at which it depends on a limit. -/
inductive Event
  /-- A value is about to be printed. -/
  | print (keyword : Token) (value : Value) (machine : Machine)
  /-- A function is about to be called with as many arguments as it takes, if there is room for
      one more call. -/
  | call (f : Function) (paren : Token) (arguments : List Value) (machine : Machine)

namespace Event

/-- The token to which an error of the step is attributed. -/
def token : Event → Token
  | .print keyword _ _ => keyword
  | .call _ paren _ _ => paren

/-- The machine that the step is taken on. -/
def machine : Event → Machine
  | .print _ _ m => m
  | .call _ _ _ m => m

/-- What is written at the step, if all of it can be. -/
def bytes : Event → ByteArray
  | .print _ value _ => (value.text ++ "\n").toUTF8
  | .call .. => ByteArray.empty

/-- What is written at some steps, one after the other. -/
def bytesOf : List Event → ByteArray
  | [] => ByteArray.empty
  | e :: rest => e.bytes ++ bytesOf rest

/-- The bytes of two stretches of events stand one after the other. -/
theorem bytesOf_append (events rest : List Event) :
    bytesOf (events ++ rest) = bytesOf events ++ bytesOf rest := by
  induction events with
  | nil => exact ByteArray.empty_append.symm
  | cons e events ih => rw [List.cons_append, bytesOf, bytesOf, ih, ByteArray.append_assoc]

/-- At each step, just that has been written which is written from the start up to there. -/
def Recorded (written : ByteArray) : List Event → Prop
  | [] => True
  | e :: rest => e.machine.output = ⟨written, none⟩ ∧ Recorded (written ++ e.bytes) rest

/-- A record of two stretches of events is one of the first and, behind its bytes, one of the
    second. -/
theorem recorded_append {written : ByteArray} {events rest : List Event} :
    Recorded written (events ++ rest) ↔
      Recorded written events ∧ Recorded (written ++ bytesOf events) rest := by
  induction events generalizing written with
  | nil => simp [Recorded, bytesOf]
  | cons e events ih =>
    rw [List.cons_append, Recorded, Recorded, bytesOf, ih, and_assoc, ByteArray.append_assoc]

end Event

/-! ### The first print that does not fit -/

open Event (bytesOf Recorded)

variable {c room : Nat}

/-- The first step of a trace at which more is written than fits into so many bytes. -/
def firstBeyond (room : Nat) : List Event → Option Event
  | [] => none
  | e :: rest =>
    if e.bytes.size ≤ room then firstBeyond (room - e.bytes.size) rest else some e

/-- No print is too long just if all that is written fits. -/
theorem firstBeyond_eq_none {events : List Event} :
    firstBeyond room events = none ↔ (bytesOf events).size ≤ room := by
  induction events generalizing room with
  | nil => simp [firstBeyond, bytesOf]
  | cons e rest ih =>
    rw [bytesOf, ByteArray.size_append, firstBeyond]
    split
    · rw [ih]
      omega
    · simp only [reduceCtorEq, false_iff]
      omega

/-- Behind events that all fit, the first print that does not is sought with the room that is
    left. -/
theorem firstBeyond_append {events : List Event} (h : firstBeyond room events = none)
    (rest : List Event) :
    firstBeyond room (events ++ rest) = firstBeyond (room - (bytesOf events).size) rest := by
  induction events generalizing room with
  | nil => rfl
  | cons e events ih =>
    rw [firstBeyond] at h
    split at h
    · next hle =>
      rw [List.cons_append, firstBeyond, if_pos hle, ih h, bytesOf, ByteArray.size_append,
        Nat.sub_add_eq]
    · cases h

/-- The first print that does not fit stays the first one, whatever follows. -/
theorem firstBeyond_append_of_some {events : List Event} {e : Event}
    (h : firstBeyond room events = some e) (rest : List Event) :
    firstBeyond room (events ++ rest) = some e := by
  induction events generalizing room with
  | nil => cases h
  | cons e' events ih =>
    rw [firstBeyond] at h
    rw [List.cons_append, firstBeyond]
    split at h
    · next hle => rw [if_pos hle, ih h]
    · next hbeyond => rw [if_neg hbeyond, h]

/-- The first step that does not fit is a print, and what was written before it fits. -/
theorem exists_of_firstBeyond {events : List Event} {e : Event} {written : ByteArray}
    (hrecorded : Recorded written events) (hwritten : written.size ≤ c)
    (h : firstBeyond (c - written.size) events = some e) :
    ∃ before keyword value reached rest, e = .print keyword value reached ∧
      events = before ++ e :: rest ∧ reached.output = ⟨written ++ bytesOf before, none⟩ ∧
      reached.output.written.size ≤ c ∧ c < reached.output.written.size + e.bytes.size := by
  induction events generalizing written with
  | nil => cases h
  | cons e' events ih =>
    obtain ⟨houtput, hrest⟩ := hrecorded
    rw [firstBeyond] at h
    split at h
    · next hfits =>
      -- This step fits, so the one that does not is behind it.
      have hsize : c - written.size - e'.bytes.size = c - (written ++ e'.bytes).size := by
        rw [ByteArray.size_append, Nat.sub_add_eq]
      have hle : (written ++ e'.bytes).size ≤ c := by
        rw [ByteArray.size_append]
        omega
      rw [hsize] at h
      obtain ⟨before, keyword, value, reached, rest, he, rfl, hreached, hroom⟩ := ih hrest hle h
      refine ⟨e' :: before, keyword, value, reached, rest, he, rfl, ?_, hroom⟩
      rw [hreached, bytesOf, ByteArray.append_assoc]
    · next hbeyond =>
      obtain rfl : e' = e := Option.some.inj h
      cases e' with
      -- A call writes nothing, which always fits.
      | call f paren arguments m => exact absurd (Nat.zero_le _) hbeyond
      | print keyword value m =>
        have hm : m.output = ⟨written, none⟩ := houtput
        refine ⟨[], keyword, value, m, events, rfl, rfl, ?_, ?_, ?_⟩
        · rw [hm, bytesOf, ByteArray.append_empty]
        · rwa [hm]
        · rw [hm]
          show c < written.size + _
          omega

/-! ### Traces of runs -/

/-- What is done behind a run, if it ends with a value. -/
def Run.sequel {α : Type} (x : EStateM.Result Stop Machine α)
    (rest : α → Machine → List Event) : List Event :=
  match x with
  | .ok a m => rest a m
  | .error _ _ => []

open Run (sequel)

mutual

/-- The trace of the evaluation of an expression. -/
def evaluateTrace (settings : Settings) : (fuel : Nat) → Expr → Machine → List Event
  | 0, _, _ => []
  | _ + 1, .constant _, _ | _ + 1, .name _, _ => []
  | fuel + 1, .group e, m | fuel + 1, .assign _ e, m | fuel + 1, .unary _ e, m =>
    evaluateTrace settings fuel e m
  | fuel + 1, .binary l _ r, m =>
    evaluateTrace settings fuel l m ++ sequel (evaluate settings fuel l m) fun _ m =>
      evaluateTrace settings fuel r m
  | fuel + 1, .logical l op r, m =>
    evaluateTrace settings fuel l m ++ sequel (evaluate settings fuel l m) fun left m =>
      if left.decides? op = some false then evaluateTrace settings fuel r m else []
  | fuel + 1, .call callee paren arguments, m =>
    evaluateTrace settings fuel callee m ++ sequel (evaluate settings fuel callee m) fun callee m =>
      evaluateAllTrace settings fuel arguments m ++
        sequel (evaluateAll settings fuel arguments m) fun arguments m =>
          callTrace settings fuel callee paren arguments m

/-- The trace of the evaluation of several expressions. -/
def evaluateAllTrace (settings : Settings) : (fuel : Nat) → List Expr → Machine → List Event
  | 0, _, _ => []
  | _ + 1, [], _ => []
  | fuel + 1, e :: es, m =>
    evaluateTrace settings fuel e m ++ sequel (evaluate settings fuel e m) fun _ m =>
      evaluateAllTrace settings fuel es m

/-- The trace of a call with evaluated arguments. -/
def callTrace (settings : Settings) :
    (fuel : Nat) → (callee : Value) → (paren : Token) → List Value → Machine → List Event
  | 0, _, _, _, _ => []
  | fuel + 1, .callable (.function f), paren, arguments, m =>
    if arguments.length ≠ f.parameters.length then []
    else
      -- The limit is looked at here, so the step is there even if the call is refused.
      .call f paren arguments m ::
        if settings.callLimit ≤ m.depth then []
        else
          sequel (Run.defineAll f.parameters arguments
              { m with env := m.env.push, depth := m.depth + 1 }) fun _ m =>
            executeBlockTrace settings fuel f.body m
  | _ + 1, _, _, _, _ => []

/-- The trace of the execution of a statement. -/
def executeTrace (settings : Settings) : (fuel : Nat) → Stmt Nat → Machine → List Event
  | 0, _, _ => []
  | fuel + 1, .expression e, m | fuel + 1, .variable _ e, m | fuel + 1, .return _ e, m =>
    evaluateTrace settings fuel e m
  | fuel + 1, .print keyword e, m =>
    evaluateTrace settings fuel e m ++ sequel (evaluate settings fuel e m) fun value m =>
      [.print keyword value m]
  | _ + 1, .function .., _ => []
  | fuel + 1, .block body, m => executeBlockTrace settings fuel body { m with env := m.env.push }
  | fuel + 1, .ifThen condition yes, m =>
    evaluateTrace settings fuel condition m ++
      sequel (evaluate settings fuel condition m) fun value m =>
        if value.isTruthy then executeTrace settings fuel yes m else []
  | fuel + 1, .ifElse condition yes no, m =>
    evaluateTrace settings fuel condition m ++
      sequel (evaluate settings fuel condition m) fun value m =>
        if value.isTruthy then executeTrace settings fuel yes m else executeTrace settings fuel no m
  | fuel + 1, .while condition body, m => loopTrace settings fuel condition body m

/-- The trace of the execution of statements as a block. -/
def executeBlockTrace (settings : Settings) :
    (fuel : Nat) → List (Stmt Nat) → Machine → List Event
  | 0, _, _ => []
  | _ + 1, [], _ => []
  | fuel + 1, s :: rest, m =>
    executeTrace settings fuel s m ++ sequel (execute settings fuel s m) fun flow m =>
      match flow with
      | .return _ => []
      | .normal => executeBlockTrace settings fuel rest m

/-- The trace of the execution of a loop. -/
def loopTrace (settings : Settings) :
    (fuel : Nat) → (condition : Expr) → (body : Stmt Nat) → Machine → List Event
  | 0, _, _, _ => []
  | fuel + 1, condition, body, m =>
    evaluateTrace settings fuel condition m ++
      sequel (evaluate settings fuel condition m) fun value m =>
        if value.isTruthy then
          executeTrace settings fuel body m ++ sequel (execute settings fuel body m) fun flow m =>
            match flow with
            | .return _ => []
            | .normal => loopTrace settings fuel condition body m
        else []

end

/-- The trace of the execution of statements at the top level. -/
def executeAllTrace (settings : Settings) (fuel : Nat) : List (Stmt Nat) → Machine → List Event
  | [], _ => []
  | s :: rest, m =>
    executeTrace settings fuel s m ++ sequel (execute settings fuel s m) fun _ m =>
      executeAllTrace settings fuel rest m

end Lox
