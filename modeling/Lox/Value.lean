import Lox.Number
import Lox.Syntax.Sexpr
import Lox.Text.Quoted

namespace Lox

/-!
# Values

What expressions evaluate to: `nil`, truth values, numbers, strings, and things that can be called,
which are the native functions and the functions declared in a program.

* `Native`, `Function`, `Callable`, `Value` — the values.
* `Value.isTruthy`, `Value.equal` — the two tests the language applies to every value.
* `Value.text` — what `print` writes.
-/

/-- The functions that every program can call without declaring them. -/
inductive Native
  /-- The time in seconds. -/
  | clock
  /-- A pause of a number of seconds. -/
  | sleep
  /-- The square root of a number. -/
  | sqrt
deriving DecidableEq, Repr

namespace Native

/-- All native functions. -/
def all : List Native := [.clock, .sleep, .sqrt]

/-- The name to which a native function is bound at first. -/
def name : Native → String
  | .clock => "clock"
  | .sleep => "sleep"
  | .sqrt => "sqrt"

/-- The number of arguments of a native function. -/
def arity : Native → Nat
  | .clock => 0
  | .sleep => 1
  | .sqrt => 1

end Native

/-- A function declared in a program. It does not keep the scope it was declared in: a call runs
    the body in the scope of the caller. -/
structure Function where
  /-- The number of the declaration, by which functions are told apart. -/
  id : Nat
  name : Token
  parameters : List Token
  body : List (Stmt Nat)

/-- What can stand on the left of a call. -/
inductive Callable
  | native (native : Native)
  | function (function : Function)

namespace Callable

/-- The name under which a callable was declared. -/
def name : Callable → String
  | .native n => n.name
  | .function f => f.name.lexeme

/-- The number of arguments that a callable takes. -/
def arity : Callable → Nat
  | .native n => n.arity
  | .function f => f.parameters.length

/-- A callable is equal to itself only. Functions of one declaration are the same function. -/
def equal : Callable → Callable → Bool
  | .native m, .native n => m == n
  | .function f, .function g => f.id == g.id
  | _, _ => false

/-- The text of a callable. -/
def text : Callable → String
  | .native n => "<native fn " ++ n.name ++ ">"
  | .function f => "<fn " ++ f.name.lexeme ++ ">"

/-- A description of a callable for those who work on programs. -/
def describe (c : Callable) : String :=
  let kind := match c with
    | .native _ => "Native"
    | .function _ => "User"
  "Callable \x7b kind: " ++ quoted kind ++ ", name: " ++ quoted c.name ++
    ", arity: " ++ toString c.arity ++ " \x7d"

end Callable

/-- Values. -/
inductive Value
  | nil
  | bool (value : Bool)
  | number (value : Float)
  | string (value : String)
  | callable (callable : Callable)

namespace Value

/-- The value of a constant. -/
def ofConstant : Constant → Value
  | .nil => .nil
  | .bool b => .bool b
  | .number x => .number x
  | .string s => .string s

/-- Only `nil` and `false` count as false. -/
def isTruthy : Value → Bool
  | .nil | .bool false => false
  | _ => true

/-- Equality of values. Values of different types differ; numbers are compared as numbers, so that
    what is not a number differs even from itself. -/
def equal : Value → Value → Bool
  | .nil, .nil => true
  | .bool a, .bool b => a == b
  | .number x, .number y => x == y
  | .string s, .string t => s == t
  | .callable c, .callable d => c.equal d
  | _, _ => false

/-- What `print` writes for a value. -/
def text : Value → String
  | .nil => "nil"
  | .bool true => "true"
  | .bool false => "false"
  | .number x => Number.text x
  | .string s => s
  | .callable c => c.text

end Value

end Lox
