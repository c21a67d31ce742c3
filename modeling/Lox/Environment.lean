import Lox.RuntimeError

namespace Lox

/-!
# Environments

The bindings of names to values. Scopes are kept as frames in an array; each frame but the global
one knows the frame around it, and one frame is the current one. Names are looked up from the
current frame outwards.

* `Bindings`, `Frame`, `Environment` — one scope, its place, and all of them.
* `Environment.define`, `get`, `assign`, `lookup` — binding and reading names.
* `Environment.push`, `pop` — entering and leaving a scope.
* `Bindings.find?_insert` — what an insertion changes.
* `Environment.pop_push` — leaving a scope that was just entered changes nothing.
-/

/-! ### Bindings -/

/-- The names bound in one scope, in the order of their first binding. No name occurs twice. -/
abbrev Bindings := List (String × Value)

namespace Bindings

/-- The value bound to a name. -/
def find? (name : String) : Bindings → Option Value
  | [] => none
  | (n, v) :: rest => if n = name then some v else find? name rest

/-- Binds a name, in place of an older binding if there is one. -/
def insert (name : String) (value : Value) : Bindings → Bindings
  | [] => [(name, value)]
  | (n, v) :: rest =>
    if n = name then (name, value) :: rest else (n, v) :: insert name value rest

theorem find?_insert (name other : String) (value : Value) (b : Bindings) :
    (insert name value b).find? other = if other = name then some value else b.find? other := by
  induction b with
  | nil => simp only [insert, find?, eq_comm]
  | cons entry rest ih =>
    simp only [insert]
    split
    · next h =>
      by_cases ho : other = name
      · simp [find?, ho]
      · simp [find?, ho, h, Ne.symm ho]
    · next h =>
      by_cases ho : entry.1 = other
      · subst ho
        simp [find?, h]
      · simp [find?, ho, ih]

end Bindings

/-! ### Frames -/

/-- One scope. -/
structure Frame where
  bindings : Bindings := []
  /-- The index of the frame around this one; the global frame has none. -/
  parent : Option Nat := none

/-- All scopes that are open, the global one at index 0. -/
structure Environment where
  frames : Array Frame
  /-- The index of the innermost scope. -/
  current : Nat

namespace Environment

/-- The environment with one empty global frame. -/
def empty : Environment := ⟨#[{}], 0⟩

instance : Inhabited Environment := ⟨empty⟩

/-- The number of frames, the global one included. -/
def depth (env : Environment) : Nat := env.frames.size

/-! ### Names -/

/-- The innermost frame that binds a name, seen from the frame at index `i`. Each step outwards
    leaves a frame behind, so the number of frames bounds the number of steps. -/
def resolveFrom (env : Environment) (name : String) : (bound : Nat) → (i : Nat) → Option Nat
  | 0, _ => none
  | bound + 1, i =>
    match env.frames[i]? with
    | none => none
    | some frame =>
      if (frame.bindings.find? name).isSome then some i
      else
        match frame.parent with
        | some parent => env.resolveFrom name bound parent
        | none => none

/-- The innermost frame that binds a name. -/
def resolve (env : Environment) (name : String) : Option Nat :=
  env.resolveFrom name env.depth env.current

/-- Binds a name in the frame at index `i`. -/
def bindAt (env : Environment) (i : Nat) (name : String) (value : Value) : Environment :=
  { env with
    frames := env.frames.modify i fun frame =>
      { frame with bindings := frame.bindings.insert name value } }

@[simp] theorem depth_bindAt (env : Environment) (i : Nat) (name : String) (value : Value) :
    (env.bindAt i name value).depth = env.depth := by
  simp [depth, bindAt]

/-- Binds a name in the current frame, in place of an older binding in that frame. -/
def define (env : Environment) (name : String) (value : Value) : Environment :=
  env.bindAt env.current name value

@[simp] theorem depth_define (env : Environment) (name : String) (value : Value) :
    (env.define name value).depth = env.depth :=
  depth_bindAt env env.current name value

/-- The value of a name in the innermost frame that binds it. -/
def lookup (env : Environment) (name : String) : Option Value :=
  match env.resolve name with
  | some i => env.frames[i]?.bind fun frame => frame.bindings.find? name
  | none => none

/-- The error for a name that is not bound. -/
def undefined (name : Token) : RuntimeError := ⟨name, .undefinedVariable name.lexeme⟩

/-- The value of the variable that a token names. -/
def get (env : Environment) (name : Token) : Except RuntimeError Value :=
  match env.lookup name.lexeme with
  | some value => .ok value
  | none => .error (undefined name)

/-- Rebinds the variable that a token names, in the innermost frame that binds it. -/
def assign (env : Environment) (name : Token) (value : Value) :
    Except RuntimeError Environment :=
  match env.resolve name.lexeme with
  | some i => .ok (env.bindAt i name.lexeme value)
  | none => .error (undefined name)

/-! ### Scopes -/

/-- Enters a new scope inside the current one. It becomes the current one. -/
def push (env : Environment) : Environment where
  frames := env.frames.push { parent := some env.current }
  current := env.frames.size

@[simp] theorem depth_push (env : Environment) : env.push.depth = env.depth + 1 := by
  simp [depth, push]

@[simp] theorem current_push (env : Environment) : env.push.current = env.depth := rfl

/-- Leaves the current scope. The global scope is never left. -/
def pop (env : Environment) : Environment :=
  if env.current = 0 then env
  else
    match env.frames.back? with
    | some frame => ⟨env.frames.pop, frame.parent.getD 0⟩
    | none => env

theorem pop_push {env : Environment} (h : 0 < env.depth) : env.push.pop = env := by
  have hcurrent : env.push.current ≠ 0 := by
    simp only [current_push]
    omega
  simp only [pop, hcurrent, if_false]
  simp [push]

/-- The environment that programs start in: the native functions, under their names. -/
def global : Environment :=
  Native.all.foldl (fun env n => env.define n.name (.callable (.native n))) empty

end Environment

end Lox
