import Lox.Environment
import Lox.Proofs.Syntax.Correspondence

namespace Lox

/-!
# Environments that match up to tokens

Values match if they are the same or are functions that match, and environments match if they have
the same frames, with the same names in them, bound to values that match. No operation on
environments tells two such environments apart.

* `Value.Matches`, `Environment.Matches` — values and environments that match.
* `Environment.Matches.lookup`, `assign`, `define`, `push`, `pop` — one lemma for each operation.
* `Environment.HasFunction` — the functions that an environment binds.
* `Environment.matches_self_iff` — an environment matches itself if its functions do.
-/

/-- The same value, or functions that match. -/
inductive Value.Matches (C : Correspondence) : Value → Value → Prop
  | nil : Value.Matches C .nil .nil
  | bool (b : Bool) : Value.Matches C (.bool b) (.bool b)
  | number (x : Float) : Value.Matches C (.number x) (.number x)
  | string (s : String) : Value.Matches C (.string s) (.string s)
  | native (n : Native) : Value.Matches C (.callable (.native n)) (.callable (.native n))
  | function {f f' : Function} : f.Matches C f' →
      Value.Matches C (.callable (.function f)) (.callable (.function f'))

variable {C : Correspondence}

namespace Value.Matches

variable {v v' w w' : Value}

/-- A constant matches itself. -/
theorem ofConstant (c : Constant) : Value.Matches C (.ofConstant c) (.ofConstant c) := by
  cases c <;> constructor

/-- Values that match are both truthy, or neither is. -/
theorem isTruthy_eq (h : v.Matches C v') : v.isTruthy = v'.isTruthy := by
  cases h <;> rfl

/-- Functions that match have the same number, so they are equal to the same functions. -/
theorem equal_eq (h : v.Matches C v') (h' : w.Matches C w') : v.equal w = v'.equal w' := by
  cases h with
  | function hf =>
    cases h' with
    | function hf' =>
      show (_ == _) = (_ == _)
      rw [hf.id_eq, hf'.id_eq]
    | _ => rfl
  | _ => cases h' <;> rfl

/-- Values that match are printed alike. -/
theorem text_eq (h : v.Matches C v') : v.text = v'.text := by
  cases h with
  | function hf =>
    show "<fn " ++ _ ++ ">" = "<fn " ++ _ ++ ">"
    rw [C.lexeme_eq hf.name]
  | _ => rfl

end Value.Matches

/-! ### Bindings -/

namespace Bindings

/-- The same names, in the same order, bound to values that match. -/
def Matches (C : Correspondence) : Bindings → Bindings → Prop :=
  List.Forall₂ fun entry entry' => entry.1 = entry'.1 ∧ entry.2.Matches C entry'.2

variable {b b' : Bindings}

/-- A name is bound in both or in neither. -/
theorem Matches.find? (h : b.Matches C b') (name : String) :
    Option.Rel (Value.Matches C) (b.find? name) (b'.find? name) := by
  induction h with
  | nil => exact .none
  | @cons entry entry' rest rest' hentry _ ih =>
    rw [Bindings.find?, Bindings.find?, hentry.1]
    split
    · exact .some hentry.2
    · exact ih

/-- Bindings that match bind the same names. -/
theorem Matches.isSome_find?_eq (h : b.Matches C b') (name : String) :
    (b.find? name).isSome = (b'.find? name).isSome := by
  have hvalue := h.find? name
  generalize b.find? name = v at hvalue
  generalize b'.find? name = v' at hvalue
  cases hvalue <;> rfl

/-- Bindings still match when a name is bound to values that match. -/
theorem Matches.insert (h : b.Matches C b') (name : String) {v v' : Value}
    (hv : v.Matches C v') : (b.insert name v).Matches C (b'.insert name v') := by
  induction h with
  | nil => exact .cons ⟨rfl, hv⟩ .nil
  | @cons entry entry' rest rest' hentry hrest ih =>
    rw [Bindings.insert, Bindings.insert, hentry.1]
    split
    · exact .cons ⟨rfl, hv⟩ hrest
    · exact .cons ⟨rfl, hentry.2⟩ ih

end Bindings

/-! ### Environments -/

/-- Frames in the same place, with bindings that match. -/
structure Frame.Matches (C : Correspondence) (frame frame' : Frame) : Prop where
  bindings : frame.bindings.Matches C frame'.bindings
  parent_eq : frame.parent = frame'.parent

namespace Environment

variable {env env' : Environment} {v v' : Value}

/-- As many frames, which match one by one, and the same one is current. -/
structure Matches (C : Correspondence) (env env' : Environment) : Prop where
  frames (i : Nat) : Option.Rel (Frame.Matches C) env.frames[i]? env'.frames[i]?
  depth_eq : env.depth = env'.depth
  current_eq : env.current = env'.current

namespace Matches

/-- A name is found in the same frame. -/
theorem resolveFrom_eq (h : env.Matches C env') (name : String) (bound i : Nat) :
    env.resolveFrom name bound i = env'.resolveFrom name bound i := by
  induction bound generalizing i with
  | zero => rfl
  | succ bound ih =>
    have hframe := h.frames i
    rw [resolveFrom, resolveFrom]
    generalize env.frames[i]? = frame at hframe
    generalize env'.frames[i]? = frame' at hframe
    cases hframe with
    | none => rfl
    | some hframe =>
      simp only [hframe.bindings.isSome_find?_eq name, hframe.parent_eq, ih]

/-- A name is found in the same frame, from the current one outwards. -/
theorem resolve_eq (h : env.Matches C env') (name : String) :
    env.resolve name = env'.resolve name := by
  rw [resolve, resolve, h.depth_eq, h.current_eq]
  exact h.resolveFrom_eq name _ _

/-- A name has values that match, or it has none in either environment. -/
theorem lookup (h : env.Matches C env') (name : String) :
    Option.Rel (Value.Matches C) (env.lookup name) (env'.lookup name) := by
  rw [Environment.lookup, Environment.lookup, h.resolve_eq]
  cases env'.resolve name with
  | none => exact .none
  | some i =>
    have hframe := h.frames i
    dsimp only
    generalize env.frames[i]? = frame at hframe
    generalize env'.frames[i]? = frame' at hframe
    cases hframe with
    | none => exact .none
    | some hframe => exact hframe.bindings.find? name

/-- Environments still match when a name is bound to values that match in the same frame. -/
theorem bindAt (h : env.Matches C env') (i : Nat) (name : String) (hv : v.Matches C v') :
    (env.bindAt i name v).Matches C (env'.bindAt i name v') where
  frames j := by
    have hframe := h.frames j
    simp only [Environment.bindAt, Array.getElem?_modify]
    -- The frame at the index gets a value that matches; the others stay.
    generalize env.frames[j]? = frame at hframe
    generalize env'.frames[j]? = frame' at hframe
    split
    · cases hframe with
      | none => exact .none
      | some hframe => exact .some ⟨hframe.bindings.insert name hv, hframe.parent_eq⟩
    · exact hframe
  depth_eq := by rw [depth_bindAt, depth_bindAt, h.depth_eq]
  current_eq := h.current_eq

/-- A definition binds the name in both, in the current frame. -/
theorem define (h : env.Matches C env') (name : String) (hv : v.Matches C v') :
    (env.define name v).Matches C (env'.define name v') := by
  rw [Environment.define, Environment.define, h.current_eq]
  exact h.bindAt _ name hv

/-- An assignment succeeds in both, or fails in both at the token that it is given. -/
theorem assign_cases (h : env.Matches C env') {t t' : Token} (ht : t.lexeme = t'.lexeme)
    (hv : v.Matches C v') :
    (∃ env₁ env₁', env.assign t v = .ok env₁ ∧ env'.assign t' v' = .ok env₁' ∧
      env₁.Matches C env₁') ∨
    env.assign t v = .error (undefined t) ∧ env'.assign t' v' = .error (undefined t') := by
  rw [Environment.assign, Environment.assign, ht, h.resolve_eq]
  cases env'.resolve t'.lexeme with
  | none => exact .inr ⟨rfl, rfl⟩
  | some i => exact .inl ⟨_, _, rfl, rfl, h.bindAt i t'.lexeme hv⟩

/-- A scope is entered in both environments. -/
theorem push (h : env.Matches C env') : env.push.Matches C env'.push where
  frames i := by
    have hsize : env.frames.size = env'.frames.size := h.depth_eq
    simp only [Environment.push, Array.getElem?_push, hsize]
    split
    · exact .some ⟨.nil, congrArg some h.current_eq⟩
    · exact h.frames i
  depth_eq := by rw [depth_push, depth_push, h.depth_eq]
  current_eq := h.depth_eq

/-- A scope is left in both environments, or in neither. -/
theorem pop (h : env.Matches C env') : env.pop.Matches C env'.pop := by
  have hlast := h.frames (env.frames.size - 1)
  have hsize : env.frames.size = env'.frames.size := h.depth_eq
  rw [Environment.pop, Environment.pop, h.current_eq, Array.back?, Array.back?]
  rw [hsize] at hlast ⊢
  split
  · exact h
  · -- The frame that is left tells which one is current next.
    generalize hframe : env.frames[env'.frames.size - 1]? = frame at hlast
    generalize hframe' : env'.frames[env'.frames.size - 1]? = frame' at hlast
    cases hlast with
    | none => exact h
    | some hlast =>
      refine ⟨fun i => ?_, ?_, congrArg (·.getD 0) hlast.parent_eq⟩
      · simp only [Array.getElem?_pop, hsize]
        split
        · exact h.frames i
        · exact .none
      · simp only [depth, Array.size_pop, hsize]

end Matches

/-! ### Functions in an environment -/

/-- Some scope binds a name to the function. -/
def HasFunction (env : Environment) (f : Function) : Prop :=
  ∃ (i : Nat) (frame : Frame) (name : String), env.frames[i]? = some frame ∧
    (name, Value.callable (.function f)) ∈ frame.bindings

/-- An environment matches itself exactly if each function in it does. -/
theorem matches_self_iff : env.Matches C env ↔ ∀ f, env.HasFunction f → f.Matches C f := by
  constructor
  · rintro h f ⟨i, frame, name, hframe, hentry⟩
    have hmatches := h.frames i
    rw [hframe] at hmatches
    cases hmatches with
    | some hframe =>
      cases (List.forall₂_same.1 hframe.bindings _ hentry).2 with
      | function hf => exact hf
  · refine fun h => ⟨fun i => ?_, rfl, rfl⟩
    cases hframe : env.frames[i]? with
    | none => exact .none
    | some frame =>
      refine .some ⟨List.forall₂_same.2 fun entry hentry => ⟨rfl, ?_⟩, rfl⟩
      -- Of all values, only functions have to be shown to match themselves.
      obtain ⟨name, v⟩ := entry
      cases v with
      | nil => exact .nil
      | bool b => exact .bool b
      | number x => exact .number x
      | string s => exact .string s
      | callable c =>
        cases c with
        | native n => exact .native n
        | function f => exact .function (h f ⟨i, frame, name, hframe, hentry⟩)

end Environment

end Lox
