import Lox.RuntimeError

namespace Lox

/-!
# Operators and native functions

What operators and native functions do with values, apart from `and` and `or`, which decide
whether their right operand is evaluated at all.

* `Value.unary`, `Value.binary` — the operators.
* `Value.arithmetic?` — the operators that take two numbers.
* `Value.reading` — what the clock shows.
* `Value.isPause` — the numbers that are durations.
-/

namespace Value

/-- The error of an operator token that means nothing where it stands. -/
def invalidOperator (op : Token) : RuntimeError := ⟨op, .invalidOperator op.lexeme⟩

/-- The operation of a unary operator on an evaluated operand. -/
def unary (op : Token) (operand : Value) : Except RuntimeError Value :=
  match op.kind with
  | .symbol .bang => .ok (.bool !operand.isTruthy)
  | .symbol .minus =>
    match operand with
    | .number x => .ok (.number (-x))
    | _ => .error ⟨op, .operandMustBeNumber⟩
  | _ => .error (invalidOperator op)

/-- The operators that take two numbers. Dividing by zero gives an infinity, or what is not a
    number. -/
def arithmetic? : Symbol → Option (Float → Float → Value)
  | .minus => some fun x y => .number (x - y)
  | .star => some fun x y => .number (x * y)
  | .slash => some fun x y => .number (x / y)
  | .greater => some fun x y => .bool (decide (x > y))
  | .greaterEqual => some fun x y => .bool (decide (x ≥ y))
  | .less => some fun x y => .bool (decide (x < y))
  | .lessEqual => some fun x y => .bool (decide (x ≤ y))
  | _ => none

/-- The operation of a binary operator on evaluated operands. -/
def binary (op : Token) (left right : Value) : Except RuntimeError Value :=
  match op.kind with
  | .symbol .equalEqual => .ok (.bool (left.equal right))
  | .symbol .bangEqual => .ok (.bool !left.equal right)
  | .symbol .plus =>
    match left, right with
    | .number x, .number y => .ok (.number (x + y))
    | .string s, .string t => .ok (.string (s ++ t))
    | _, _ => .error ⟨op, .operandsMustBeNumbersOrStrings⟩
  | .symbol s =>
    match arithmetic? s with
    | none => .error (invalidOperator op)
    | some operation =>
      match left, right with
      | .number x, .number y => .ok (operation x y)
      | _, _ => .error ⟨op, .operandsMustBeNumbers⟩
  | _ => .error (invalidOperator op)

/-- Whether the left operand of `and` or `or` is the result already; nothing for a token that is
    neither operator. -/
def decides? (op : Token) (left : Value) : Option Bool :=
  match op.kind with
  | .keyword .or_ => some left.isTruthy
  | .keyword .and_ => some !left.isTruthy
  | _ => none

/-- What the clock shows at a time, which is given in seconds since the epoch. It cannot be read
    before the epoch. -/
def reading (paren : Token) (seconds : Float) : Except RuntimeError Value :=
  if seconds < 0 then .error ⟨paren, .native .clock⟩ else .ok (.number seconds)

/-- The numbers of seconds that a pause may last: from zero on, minus zero included, and below
    `2 ^ 64`. -/
def isPause (seconds : Float) : Bool :=
  decide (0 ≤ seconds) && decide (seconds < Number.ofMagnitude (0x43F * Number.binade))

end Value

end Lox
