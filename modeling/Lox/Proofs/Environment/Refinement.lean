import Mathlib.Data.Finmap
import Lox.Proofs.Environment.Frames

namespace Lox

/-!
# Environments are stacks of maps

What an environment means: a stack of finite maps from names to values, the innermost scope on top.
Each operation on environments does to the meaning what the same operation on stacks does, and
answers the same. So nothing that is done with environments, in whatever order and on whatever
copies, tells an environment from a stack of maps.

* `Scope`, `ScopeStack` — the maps, and what the operations do to a stack of them.
* `Environment.Operation` — the operations, with the answers that they give.
* `Environment.scopes` — the stack that an environment means.
* `Environment.IsStack.perform_eq` — one operation.
* `Environment.Searches` — the search for a name through the frames, which is not bounded.
* `Environment.IsLinked` — how frames are linked, so that it always ends.
* `Environment.Instruction`, `followAll` — operations on several environments, and copies of them.
* `environments_areStacks` — any sequence of instructions, from the environments at the start.
-/

/-! ### Stacks of maps -/

/-- What one scope means. -/
abbrev Scope := Finmap fun _ : String => Value

/-- Scopes inside each other, the innermost one first. -/
abbrev ScopeStack := List Scope

namespace ScopeStack

/-- Binds a name in the top map. -/
def define (name : String) (value : Value) : ScopeStack → ScopeStack
  | [] => []
  | top :: outer => top.insert name value :: outer

/-- The value that the innermost map with a binding of the name gives to it. -/
def lookup (name : String) : ScopeStack → Option Value
  | [] => none
  | top :: outer => if name ∈ top then top.lookup name else lookup name outer

/-- Overwrites the innermost binding of a name, if there is one. -/
def assign (name : String) (value : Value) : ScopeStack → Option ScopeStack
  | [] => none
  | top :: outer =>
    if name ∈ top then some (top.insert name value :: outer)
    else (assign name value outer).map (top :: ·)

/-- Puts an empty map on top. -/
def push (stack : ScopeStack) : ScopeStack := ∅ :: stack

/-- Drops the top map, but never the last one. -/
def pop : ScopeStack → ScopeStack
  | _ :: next :: outer => next :: outer
  | stack => stack

end ScopeStack

namespace Environment

/-! ### Operations -/

/-- What can be asked of an environment. -/
inductive Operation
  | define (name : String) (value : Value)
  | assign (name : Token) (value : Value)
  | get (name : Token)
  | lookup (name : String)
  | push
  | pop
  | depth

/-- What an operation answers. -/
inductive Answer
  | done
  /-- The value of a variable, if there is such a variable. -/
  | value (value : Option Value)
  | failed (error : RuntimeError)
  /-- The index of a frame that was entered, or the number of frames. -/
  | number (n : Nat)

/-- Performs an operation on an environment. -/
def perform (env : Environment) : Operation → Answer × Environment
  | .define name value => (.done, env.define name value)
  | .assign name value =>
    match env.assign name value with
    | .ok env' => (.done, env')
    | .error e => (.failed e, env)
  | .get name =>
    match env.get name with
    | .ok value => (.value (some value), env)
    | .error e => (.failed e, env)
  | .lookup name => (.value (env.lookup name), env)
  | .push => (.number env.push.current, env.push)
  | .pop => (.done, env.pop)
  | .depth => (.number env.depth, env)

end Environment

open Environment (Operation Answer)

/-- Performs an operation on a stack of maps. A name that no map binds is an error at the token that
    names it, and a map that is put on top has the old height for its index. -/
def ScopeStack.perform (stack : ScopeStack) : Operation → Answer × ScopeStack
  | .define name value => (.done, ScopeStack.define name value stack)
  | .assign name value =>
    match ScopeStack.assign name.lexeme value stack with
    | some stack' => (.done, stack')
    | none => (.failed ⟨name, .undefinedVariable name.lexeme⟩, stack)
  | .get name =>
    match ScopeStack.lookup name.lexeme stack with
    | some value => (.value (some value), stack)
    | none => (.failed ⟨name, .undefinedVariable name.lexeme⟩, stack)
  | .lookup name => (.value (ScopeStack.lookup name stack), stack)
  | .push => (.number stack.length, ScopeStack.push stack)
  | .pop => (.done, ScopeStack.pop stack)
  | .depth => (.number stack.length, stack)

/-! ### The meaning of bindings -/

namespace Bindings

/-- The map that bindings stand for. -/
def toScope : Bindings → Scope
  | [] => ∅
  | (name, value) :: rest => (toScope rest).insert name value

/-- A name has in the map the value that the first binding of it gives. -/
@[simp] theorem lookup_toScope (b : Bindings) (name : String) :
    b.toScope.lookup name = b.find? name := by
  induction b with
  | nil => exact Finmap.lookup_empty name
  | cons entry rest ih =>
    rw [toScope, find?]
    by_cases h : entry.1 = name
    · subst h
      rw [if_pos rfl, Finmap.lookup_insert]
    · rw [if_neg h, Finmap.lookup_insert_of_ne _ (Ne.symm h), ih]

/-- A name is in the map if it is bound. -/
theorem mem_toScope (b : Bindings) (name : String) : name ∈ b.toScope ↔ (b.find? name).isSome := by
  rw [← Finmap.lookup_isSome, lookup_toScope]

/-- Binding a name puts it into the map. -/
theorem toScope_insert (b : Bindings) (name : String) (value : Value) :
    (b.insert name value).toScope = b.toScope.insert name value := by
  refine Finmap.ext_lookup fun other => ?_
  rw [lookup_toScope, find?_insert]
  by_cases h : other = name
  · subst h
    rw [if_pos rfl, Finmap.lookup_insert]
  · rw [if_neg h, Finmap.lookup_insert_of_ne _ h, lookup_toScope]

end Bindings

namespace Environment

/-! ### The meaning of environments -/

/-- The stack of maps that an environment means. The last frame is the innermost scope. -/
def scopes (env : Environment) : ScopeStack :=
  (env.frames.toList.map fun frame => frame.bindings.toScope).reverse

/-- An environment with given scopes means the maps of these. -/
theorem scopes_ofScopes (scopes : List Bindings) :
    (ofScopes scopes).scopes = scopes.map Bindings.toScope := by
  show ((stacked scopes).toList.map fun frame => frame.bindings.toScope).reverse = _
  induction scopes with
  | nil => rfl
  | cons b outer ih =>
    rw [stacked, Array.toList_push, List.map_append, List.reverse_append, ih]
    rfl

/-- There are as many maps as frames. -/
theorem length_scopes (env : Environment) : env.scopes.length = env.depth := by
  simp [scopes, depth]

/-- A name means in a stack of maps what it means in the scopes that the maps come from. -/
theorem lookup_map_toScope (name : String) (scopes : List Bindings) :
    ScopeStack.lookup name (scopes.map Bindings.toScope) =
      scopes.findSome? fun scope => scope.find? name := by
  induction scopes with
  | nil => rfl
  | cons b outer ih =>
    rw [List.map_cons, ScopeStack.lookup, List.findSome?_cons, ih]
    cases hb : b.find? name with
    | none => rw [if_neg (by simp [Bindings.mem_toScope, hb])]
    | some value =>
      rw [if_pos (by simp [Bindings.mem_toScope, hb]), Bindings.lookup_toScope, hb]

/-- Overwriting a name in the maps is overwriting it in the scopes that the maps come from. -/
theorem assign_map_toScope (name : String) (value : Value) (scopes : List Bindings) :
    ScopeStack.assign name value (scopes.map Bindings.toScope) =
      (assignIn name value scopes).map (List.map Bindings.toScope) := by
  induction scopes with
  | nil => rfl
  | cons b outer ih =>
    rw [List.map_cons, ScopeStack.assign, assignIn]
    simp only [Bindings.mem_toScope]
    split
    · rw [Option.map_some, List.map_cons, Bindings.toScope_insert]
    · rw [ih, Option.map_map, Option.map_map]
      rfl

variable {env : Environment}

namespace IsStack

/-- A name has in the environment the value that it has in the stack. -/
theorem lookup_scopes (h : env.IsStack) (name : String) :
    ScopeStack.lookup name env.scopes = env.lookup name := by
  obtain ⟨scopes, -, rfl⟩ := h
  rw [scopes_ofScopes, lookup_map_toScope, lookup_ofScopes]

/-- Binding a name in the environment binds it in the top map. -/
theorem scopes_define (h : env.IsStack) (name : String) (value : Value) :
    (env.define name value).scopes = ScopeStack.define name value env.scopes := by
  obtain ⟨scopes, hne, rfl⟩ := h
  obtain ⟨b, outer, rfl⟩ := List.exists_cons_of_ne_nil hne
  rw [define_ofScopes, scopes_ofScopes, scopes_ofScopes, List.map_cons, List.map_cons,
    Bindings.toScope_insert]
  rfl

/-- An assignment succeeds in the environment and in the stack, with the same meaning, or fails in
    both. -/
theorem assign_cases (h : env.IsStack) (name : Token) (value : Value) :
    (∃ env', env.assign name value = .ok env' ∧
      ScopeStack.assign name.lexeme value env.scopes = some env'.scopes) ∨
    env.assign name value = .error (undefined name) ∧
      ScopeStack.assign name.lexeme value env.scopes = none := by
  obtain ⟨scopes, -, rfl⟩ := h
  rw [scopes_ofScopes, assign_map_toScope]
  cases hassign : assignIn name.lexeme value scopes with
  | some scopes' =>
    refine .inl ⟨ofScopes scopes', assign_ofScopes hassign, ?_⟩
    rw [scopes_ofScopes]
    rfl
  | none => exact .inr ⟨assign_ofScopes_of_none hassign, rfl⟩

/-- Entering a scope puts an empty map on top. -/
theorem scopes_push (h : env.IsStack) : env.push.scopes = ScopeStack.push env.scopes := by
  obtain ⟨scopes, hne, rfl⟩ := h
  rw [push_ofScopes hne, scopes_ofScopes, scopes_ofScopes]
  rfl

/-- Leaving a scope drops the top map, unless it is the last one. -/
theorem scopes_pop (h : env.IsStack) : env.pop.scopes = ScopeStack.pop env.scopes := by
  obtain ⟨scopes, hne, rfl⟩ := h
  obtain ⟨b, outer, rfl⟩ := List.exists_cons_of_ne_nil hne
  cases outer with
  | nil =>
    -- The global scope is never left, and the last map is never dropped.
    rw [pop_ofScopes_singleton, scopes_ofScopes]
    rfl
  | cons c outer =>
    rw [pop_ofScopes b (List.cons_ne_nil c outer), scopes_ofScopes, scopes_ofScopes]
    rfl

/-- **One operation.** An environment answers what the stack answers that it means, and means
    afterwards what the stack has become. -/
theorem perform_eq (h : env.IsStack) (op : Operation) :
    (env.perform op).1 = (env.scopes.perform op).1 ∧
      (env.perform op).2.scopes = (env.scopes.perform op).2 ∧ (env.perform op).2.IsStack := by
  cases op with
  | define name value => exact ⟨rfl, h.scopes_define name value, h.define name value⟩
  | assign name value =>
    rcases h.assign_cases name value with ⟨env', hok, hstack⟩ | ⟨herror, hstack⟩
    · simp only [perform, ScopeStack.perform, hok, hstack]
      exact ⟨trivial, trivial, h.assign hok⟩
    · simp only [perform, ScopeStack.perform, herror, hstack]
      exact ⟨rfl, trivial, h⟩
  | get name =>
    simp only [perform, ScopeStack.perform, Environment.get, h.lookup_scopes]
    cases env.lookup name.lexeme with
    | some value => exact ⟨rfl, rfl, h⟩
    | none => exact ⟨rfl, rfl, h⟩
  | lookup name =>
    refine ⟨?_, rfl, h⟩
    simp only [perform, ScopeStack.perform, h.lookup_scopes]
  | push =>
    -- The frame that is entered comes behind all others, so its index is their number.
    refine ⟨?_, h.scopes_push, h.push⟩
    simp only [perform, ScopeStack.perform, length_scopes, current_push]
  | pop => exact ⟨rfl, h.scopes_pop, h.pop⟩
  | depth =>
    refine ⟨?_, rfl, h⟩
    simp only [perform, ScopeStack.perform, length_scopes]

end IsStack

/-! ### The search for a name -/

/-- The search for a name from a frame outwards, step by step and as far as it leads: there is a
    frame at each index that it comes to, and it comes to an end. -/
inductive Searches (env : Environment) (name : String) : Option Nat → Option Nat → Prop
  | nowhere : Searches env name none none
  | found {i : Nat} {frame : Frame} : env.frames[i]? = some frame →
      (frame.bindings.find? name).isSome → Searches env name (some i) (some i)
  | outwards {i : Nat} {frame : Frame} {result : Option Nat} : env.frames[i]? = some frame →
      (frame.bindings.find? name).isSome = false → Searches env name frame.parent result →
      Searches env name (some i) result

/-- With a bound above the index of a frame, the bounded search is the one that is not bounded. -/
theorem IsStack.searches_resolveFrom (h : env.IsStack) (name : String) {bound i : Nat}
    (hbound : i < bound) (hi : i < env.depth) :
    Searches env name (some i) (env.resolveFrom name bound i) := by
  -- The parent is the frame below, so the bound stays above the index.
  induction bound generalizing i with
  | zero => exact absurd hbound (Nat.not_lt_zero i)
  | succ bound ih =>
    obtain ⟨frame, hframe⟩ : ∃ frame, env.frames[i]? = some frame :=
      ⟨_, Array.getElem?_eq_getElem hi⟩
    simp only [resolveFrom, hframe]
    by_cases hbinds : (frame.bindings.find? name).isSome
    · rw [if_pos hbinds]
      exact .found hframe hbinds
    · refine .outwards hframe (Bool.eq_false_iff.2 hbinds) ?_
      rw [if_neg hbinds, h.parent_eq hframe]
      cases i with
      | zero => exact .nowhere
      | succ i => exact ih (by omega) (by omega)

/-- The frames are linked as those of a stack are, and names are searched for along the links. -/
structure IsLinked (env : Environment) : Prop where
  /-- The current frame is the last one. -/
  current : env.current + 1 = env.depth
  /-- The global frame has no parent, and the parent of any other one is the frame below it. -/
  parent {i : Nat} {frame : Frame} : env.frames[i]? = some frame → frame.parent = below i
  /-- A search leads through frames that are there, ends, and finds what `resolve` finds. -/
  searches (name : String) : Searches env name (some env.current) (env.resolve name)

/-- The frames of a stack are linked, and each search ends. -/
theorem IsStack.isLinked (h : env.IsStack) : env.IsLinked where
  current := h.current_add_one
  parent := h.parent_eq
  searches name := by
    have hcurrent := h.current_add_one
    exact h.searches_resolveFrom name (by omega) (by omega)

/-! ### Copies -/

/-- What can be done with several environments, told apart by their places in a list. -/
inductive Instruction
  /-- An operation on the one at place `k`. -/
  | operate (k : Nat) (op : Operation)
  /-- Puts a copy of the one at place `k` behind all others. -/
  | save (k : Nat)
  /-- Puts a copy of the one at place `j` in place of the one at place `k`. -/
  | restore (k j : Nat)

/-- The place where an instruction puts something new in place of what was there. -/
def Instruction.target? : Instruction → Option Nat
  | .operate k _ => some k
  | .save _ => none
  | .restore k _ => some k

end Environment

open Environment (Instruction)

section Copies

variable {σ τ : Type} (perform : σ → Operation → Answer × σ)

/-- Follows an instruction on several states of whatever kind, given what operations do to a single
    one. Only operations answer. Where a place is empty, nothing is done. -/
def follow (states : List σ) : Instruction → Option Answer × List σ
  | .operate k op =>
    match states[k]? with
    | some state => (some (perform state op).1, states.set k (perform state op).2)
    | none => (none, states)
  | .save k => (none, states ++ states[k]?.toList)
  | .restore k j =>
    match states[j]? with
    | some state => (none, states.set k state)
    | none => (none, states)

/-- Follows instructions one after the other. -/
def followAll (states : List σ) : List Instruction → List (Option Answer) × List σ
  | [] => ([], states)
  | i :: rest =>
    let (answer, states') := follow perform states i
    let (answers, states'') := followAll states' rest
    (answer :: answers, states'')

/-- Every other state stays what it is, copies of it or not. -/
theorem follow_getElem?_of_ne {states : List σ} {i : Instruction} {k : Nat}
    (hk : k < states.length) (hi : i.target? ≠ some k) :
    (follow perform states i).2[k]? = states[k]? ∧ k < (follow perform states i).2.length := by
  cases i with
  | operate j op =>
    have hne : j ≠ k := fun h => hi (congrArg some h)
    rw [follow]
    split
    · exact ⟨List.getElem?_set_ne hne, by rwa [List.length_set]⟩
    · exact ⟨rfl, hk⟩
  -- The copy comes behind all others, so these keep their places.
  | save j =>
    rw [follow, List.length_append]
    exact ⟨List.getElem?_append_left hk, Nat.lt_add_right _ hk⟩
  | restore j j' =>
    have hne : j ≠ k := fun h => hi (congrArg some h)
    rw [follow]
    split
    · exact ⟨List.getElem?_set_ne hne, by rwa [List.length_set]⟩
    · exact ⟨rfl, hk⟩

/-- Instructions leave a state as it is if none of them puts something in its place. -/
theorem followAll_getElem?_of_ne {states : List σ} {instructions : List Instruction} {k : Nat}
    (hk : k < states.length) (h : ∀ i ∈ instructions, i.target? ≠ some k) :
    (followAll perform states instructions).2[k]? = states[k]? := by
  induction instructions generalizing states with
  | nil => rfl
  | cons i rest ih =>
    obtain ⟨hsame, hlt⟩ := follow_getElem?_of_ne perform hk (h i List.mem_cons_self)
    exact (ih hlt fun i' hi' => h i' (List.mem_cons_of_mem i hi')).trans hsame

end Copies

/-- **One instruction.** Environments answer what the stacks answer that they mean, and mean
    afterwards what the stacks have become. -/
theorem follow_scopes {envs : List Environment} (h : ∀ env ∈ envs, env.IsStack) (i : Instruction) :
    (follow Environment.perform envs i).1 =
        (follow ScopeStack.perform (envs.map Environment.scopes) i).1 ∧
      (follow Environment.perform envs i).2.map Environment.scopes =
        (follow ScopeStack.perform (envs.map Environment.scopes) i).2 ∧
      ∀ env ∈ (follow Environment.perform envs i).2, env.IsStack := by
  cases i with
  | operate k op =>
    simp only [follow, List.getElem?_map]
    cases henv : envs[k]? with
    | none => exact ⟨rfl, rfl, h⟩
    | some env =>
      obtain ⟨hanswer, hscopes, hstack⟩ := (h env (List.mem_of_getElem? henv)).perform_eq op
      -- What the others mean does not change, and `env` means what `perform_eq` says.
      refine ⟨congrArg some hanswer, ?_, fun env' henv' => ?_⟩
      · simp only [Option.map_some, List.map_set, hscopes]
      · rcases List.mem_or_eq_of_mem_set henv' with henv' | rfl
        · exact h env' henv'
        · exact hstack
  | save k =>
    refine ⟨rfl, ?_, fun env henv => ?_⟩
    · simp only [follow, List.map_append, List.getElem?_map]
      cases envs[k]? <;> rfl
    · rcases List.mem_append.1 henv with henv | henv
      · exact h env henv
      · exact h env (List.mem_of_getElem? (Option.mem_toList.1 henv))
  | restore k j =>
    simp only [follow, List.getElem?_map]
    cases henv : envs[j]? with
    | none => exact ⟨rfl, rfl, h⟩
    | some env =>
      refine ⟨rfl, List.map_set, fun env' henv' => ?_⟩
      rcases List.mem_or_eq_of_mem_set henv' with henv' | rfl
      · exact h env' henv'
      · exact h env' (List.mem_of_getElem? henv)

/-- The same holds of any number of instructions, followed one after the other. -/
theorem followAll_scopes {envs : List Environment} (h : ∀ env ∈ envs, env.IsStack)
    (instructions : List Instruction) :
    (followAll Environment.perform envs instructions).1 =
        (followAll ScopeStack.perform (envs.map Environment.scopes) instructions).1 ∧
      (followAll Environment.perform envs instructions).2.map Environment.scopes =
        (followAll ScopeStack.perform (envs.map Environment.scopes) instructions).2 ∧
      ∀ env ∈ (followAll Environment.perform envs instructions).2, env.IsStack := by
  induction instructions generalizing envs with
  | nil => exact ⟨rfl, rfl, h⟩
  | cons i rest ih =>
    obtain ⟨hanswer, hscopes, hstack⟩ := follow_scopes h i
    obtain ⟨hanswers, hscopes', hstack'⟩ := ih hstack
    rw [hscopes] at hanswers hscopes'
    exact ⟨congrArg₂ _ hanswer hanswers, hscopes', hstack'⟩

/-! ### Runs from the start -/

/-- The map with the native functions under their names. -/
def Scope.natives : Scope :=
  Native.all.foldl (fun scope n => scope.insert n.name (.callable (.native n))) ∅

/-- The environment that programs start in means the map of the native functions. -/
theorem Environment.scopes_global : Environment.global.scopes = [Scope.natives] := by
  -- For natives that are bound one after the other, in any environment of a single scope.
  suffices h : ∀ (natives : List Native) (env : Environment) (scope : Scope), env.IsStack →
      env.scopes = [scope] →
      (natives.foldl (fun env n => env.define n.name (.callable (.native n))) env).scopes =
        [natives.foldl (fun scope n => scope.insert n.name (.callable (.native n))) scope] from
    h Native.all .empty ∅ Environment.Reachable.empty.isStack rfl
  intro natives
  induction natives with
  | nil => exact fun env scope _ hscopes => hscopes
  | cons n natives ih =>
    intro env scope hstack hscopes
    refine ih _ _ (hstack.define _ _) ?_
    rw [hstack.scopes_define, hscopes]
    rfl

/-- **Environments are stacks of maps.** Whatever is done with the empty environment, with the one
    that programs start in and with copies of them, each operation answers what it answers for
    stacks of maps, from one empty map and from the map of the native functions, and the
    environments mean what the stacks have become. Their frames are linked as those of a stack, the
    current one on top, so that a search for a name ends and never leaves the frames. And what is
    done from then on with others, copies of an environment among them, does not change it. -/
theorem environments_areStacks (instructions : List Instruction) :
    let envs := followAll Environment.perform [.empty, .global] instructions
    let ideal := followAll ScopeStack.perform [[∅], [Scope.natives]] instructions
    envs.1 = ideal.1 ∧ envs.2.map Environment.scopes = ideal.2 ∧
      (∀ env ∈ envs.2, env.IsLinked) ∧
      ∀ (later : List Instruction) (k : Nat), k < envs.2.length →
        (∀ i ∈ later, i.target? ≠ some k) →
        (followAll Environment.perform envs.2 later).2[k]? = envs.2[k]? := by
  have hstart : ∀ env ∈ [Environment.empty, Environment.global], env.IsStack := by
    intro env henv
    rcases List.mem_pair.1 henv with rfl | rfl
    · exact Environment.Reachable.empty.isStack
    · exact Environment.reachable_global.isStack
  have hscopes : [Environment.empty, Environment.global].map Environment.scopes =
      [[∅], [Scope.natives]] := by
    rw [List.map_cons, List.map_singleton, Environment.scopes_global]
    rfl
  obtain ⟨hanswers, hstacks, hlinked⟩ := followAll_scopes hstart instructions
  rw [hscopes] at hanswers hstacks
  exact ⟨hanswers, hstacks, fun env henv => (hlinked env henv).isLinked,
    fun later k hk hlater => followAll_getElem?_of_ne _ hk hlater⟩

/-- A copy of the empty environment, made before the global scope is left once too often, keeps
    what it is when the original is changed and restored into another one. -/
theorem environments_areStacks_copy :
    let envs := (followAll Environment.perform [.empty, .global]
      [.save 0, .operate 0 .pop, .operate 0 .push]).2
    (followAll Environment.perform envs [.operate 0 (.define "x" .nil), .restore 1 0]).2[2]? =
      some .empty :=
  ((environments_areStacks [.save 0, .operate 0 .pop, .operate 0 .push]).2.2.2
    [.operate 0 (.define "x" .nil), .restore 1 0] 2 (by decide)
    (by simp [Instruction.target?])).trans rfl

end Lox
