import Lox.Environment

namespace Lox

/-!
# The frames of an environment form a stack

Frames name the frame around them, but since scopes are left in the reverse order in which they
are entered, that is always the frame below. An environment is therefore told by the bindings of
its scopes alone, and each operation has its meaning on a list of scopes, innermost first.

* `Environment.ofScopes` — the environment with given scopes.
* `Environment.innermost_cases` — where a name is found and rebound.
* `Environment.lookup_ofScopes`, `assign_ofScopes`, `define_ofScopes`, `push_ofScopes`,
  `pop_ofScopes` — the operations on it.
* `Environment.Reachable` — the environments that the operations lead to.
* `Environment.Reachable.isStack` — all of them come from a list of scopes.
-/

namespace Environment

/-- The index of the frame around the one at index `i` in a stack of frames. -/
def below : (i : Nat) → Option Nat
  | 0 => none
  | i + 1 => some i

/-- The frames of scopes, given innermost first. The global frame comes first. -/
def stacked : List Bindings → Array Frame
  | [] => #[]
  | b :: outer => (stacked outer).push ⟨b, below outer.length⟩

/-- The environment with the given scopes, innermost first. -/
def ofScopes (scopes : List Bindings) : Environment where
  frames := stacked scopes
  current := scopes.length - 1

/-- An environment whose frames form a stack. There is always the global frame. -/
def IsStack (env : Environment) : Prop :=
  ∃ scopes, scopes ≠ [] ∧ env = ofScopes scopes

/-! ### Frames in a stack -/

@[simp] theorem size_stacked (scopes : List Bindings) : (stacked scopes).size = scopes.length := by
  induction scopes with
  | nil => rfl
  | cons b outer ih => simp [stacked, ih]

/-- The frame of a scope has as many frames below it as there are scopes around it, whatever
    scopes are inside. -/
theorem getElem?_stacked (inner : List Bindings) (b : Bindings) (outer : List Bindings) :
    (stacked (inner ++ b :: outer))[outer.length]? = some ⟨b, below outer.length⟩ := by
  induction inner with
  | nil =>
    have h : ((stacked outer).push ⟨b, below outer.length⟩)[(stacked outer).size]? =
        some ⟨b, below outer.length⟩ := Array.getElem?_push_size
    rwa [size_stacked] at h
  | cons c inner ih =>
    have hlt : outer.length < (stacked (inner ++ b :: outer)).size := by
      rw [size_stacked, List.length_append, List.length_cons]
      omega
    show ((stacked (inner ++ b :: outer)).push _)[outer.length]? = _
    rw [Array.getElem?_push_lt hlt, ← Array.getElem?_eq_getElem hlt, ih]

/-- Binding a name in the frame of a scope binds it in that scope. -/
theorem bindAt_stacked (inner : List Bindings) (b : Bindings) (outer : List Bindings)
    (name : String) (value : Value) :
    (stacked (inner ++ b :: outer)).modify outer.length (fun frame =>
        { frame with bindings := frame.bindings.insert name value }) =
      stacked (inner ++ b.insert name value :: outer) := by
  induction inner with
  | nil =>
    apply Array.ext_getElem?
    intro i
    rw [Array.getElem?_modify]
    by_cases hi : outer.length = i
    · subst hi
      rw [if_pos rfl, getElem?_stacked [] b outer, getElem?_stacked [] _ outer]
      rfl
    · rw [if_neg hi]
      show ((stacked outer).push _)[i]? = ((stacked outer).push _)[i]?
      rw [Array.getElem?_push, Array.getElem?_push, size_stacked, if_neg (Ne.symm hi),
        if_neg (Ne.symm hi)]
  | cons c inner ih =>
    -- The frame on top is not the one that is changed, and its place stays the same.
    have hsize : (inner ++ b.insert name value :: outer).length = (inner ++ b :: outer).length := by
      simp
    show ((stacked (inner ++ b :: outer)).push _).modify _ _ =
      (stacked (inner ++ b.insert name value :: outer)).push
        ⟨c, below (inner ++ b.insert name value :: outer).length⟩
    rw [← ih, hsize]
    apply Array.ext_getElem?
    intro i
    rw [Array.getElem?_modify, Array.getElem?_push, Array.getElem?_push, Array.getElem?_modify,
      Array.size_modify, size_stacked]
    by_cases hi : i = (inner ++ b :: outer).length
    · have hne : outer.length ≠ i := by
        rw [hi, List.length_append, List.length_cons]
        omega
      rw [if_pos hi, if_pos hi, if_neg hne]
      rfl
    · rw [if_neg hi, if_neg hi]

/-! ### Names -/

/-- The number of scopes around the innermost one that binds a name. -/
def resolveIn (name : String) : List Bindings → Option Nat
  | [] => none
  | b :: outer => if (b.find? name).isSome then some outer.length else resolveIn name outer

/-- Rebinds a name in the innermost scope that binds it. -/
def assignIn (name : String) (value : Value) : List Bindings → Option (List Bindings)
  | [] => none
  | b :: outer =>
    if (b.find? name).isSome then some (b.insert name value :: outer)
    else (assignIn name value outer).map (b :: ·)

/-- From the frame of a scope, a name is sought in that scope and those around it. -/
theorem resolveFrom_ofScopes (name : String) (inner : List Bindings) (b : Bindings)
    (outer : List Bindings) {bound : Nat} (hbound : outer.length < bound) :
    (ofScopes (inner ++ b :: outer)).resolveFrom name bound outer.length =
      resolveIn name (b :: outer) := by
  have hframe : (ofScopes (inner ++ b :: outer)).frames[outer.length]? =
      some ⟨b, below outer.length⟩ := getElem?_stacked inner b outer
  -- Each step outwards takes one from the bound, and there are fewer steps than frames.
  obtain ⟨bound, rfl⟩ : ∃ n, bound = n + 1 := ⟨bound - 1, by omega⟩
  induction outer generalizing inner b bound with
  | nil =>
    rw [resolveFrom, hframe, resolveIn]
    rfl
  | cons c outer ih =>
    obtain ⟨bound, rfl⟩ : ∃ n, bound = n + 1 := ⟨bound - 1, by simp at hbound; omega⟩
    have hrest := ih (inner ++ [b]) c (getElem?_stacked (inner ++ [b]) c outer) bound
      (Nat.lt_of_succ_lt_succ hbound)
    rw [List.append_assoc, List.singleton_append] at hrest
    rw [resolveFrom, hframe, resolveIn, ← hrest]
    rfl

/-- A name is found in the frame of the innermost scope that binds it. -/
theorem resolve_ofScopes (name : String) (scopes : List Bindings) :
    (ofScopes scopes).resolve name = resolveIn name scopes := by
  cases scopes with
  | nil => rfl
  | cons b outer =>
    refine resolveFrom_ofScopes name [] b outer ?_
    show outer.length < (stacked (b :: outer)).size
    rw [size_stacked, List.length_cons]
    omega

/-- Either some scope binds a name, and then the innermost one that does is where it is found and
    rebound, or none does. -/
theorem innermost_cases (name : String) (value : Value) (scopes : List Bindings) :
    (∃ inner b outer old, scopes = inner ++ b :: outer ∧ b.find? name = some old ∧
      resolveIn name scopes = some outer.length ∧
      scopes.findSome? (fun scope => scope.find? name) = some old ∧
      assignIn name value scopes = some (inner ++ b.insert name value :: outer)) ∨
    (resolveIn name scopes = none ∧ scopes.findSome? (fun scope => scope.find? name) = none ∧
      assignIn name value scopes = none) := by
  induction scopes with
  | nil => exact .inr ⟨rfl, rfl, rfl⟩
  | cons c scopes ih =>
    rw [resolveIn, List.findSome?_cons, assignIn]
    cases hc : c.find? name with
    | some old => exact .inl ⟨[], c, scopes, old, rfl, hc, rfl, rfl, rfl⟩
    | none =>
      rcases ih with ⟨inner, b, outer, old, rfl, hb, hresolve, hfind, hassign⟩ |
        ⟨hresolve, hfind, hassign⟩
      · refine .inl ⟨c :: inner, b, outer, old, rfl, hb, hresolve, hfind, ?_⟩
        rw [hassign]
        rfl
      · refine .inr ⟨hresolve, hfind, ?_⟩
        rw [hassign]
        rfl

/-- The value of a name is the one that the innermost scope binds it to. -/
theorem lookup_ofScopes (name : String) (scopes : List Bindings) :
    (ofScopes scopes).lookup name = scopes.findSome? fun scope => scope.find? name := by
  rw [lookup, resolve_ofScopes]
  rcases innermost_cases name .nil scopes with
    ⟨inner, b, outer, old, rfl, hb, hresolve, hfind, -⟩ | ⟨hresolve, hfind, -⟩
  · rw [hresolve, hfind]
    show (stacked (inner ++ b :: outer))[outer.length]?.bind _ = some old
    rw [getElem?_stacked]
    exact hb
  · rw [hresolve, hfind]

/-- Assigning to a name changes the innermost scope that binds it. -/
theorem assign_ofScopes {name : Token} {value : Value} {scopes scopes' : List Bindings}
    (h : assignIn name.lexeme value scopes = some scopes') :
    (ofScopes scopes).assign name value = .ok (ofScopes scopes') := by
  rw [assign, resolve_ofScopes]
  rcases innermost_cases name.lexeme value scopes with
    ⟨inner, b, outer, old, rfl, -, hresolve, -, hassign⟩ | ⟨-, -, hassign⟩
  · obtain rfl := Option.some.inj (hassign.symm.trans h)
    have hlength : (inner ++ b.insert name.lexeme value :: outer).length =
        (inner ++ b :: outer).length := by simp
    rw [hresolve]
    show Except.ok (bindAt _ outer.length _ _) = Except.ok _
    congr 1
    unfold bindAt ofScopes
    rw [bindAt_stacked, hlength]
  · exact absurd (hassign.symm.trans h) (by simp)

/-- Assigning to a name fails if no scope binds it. -/
theorem assign_ofScopes_of_none {name : Token} {value : Value} {scopes : List Bindings}
    (h : assignIn name.lexeme value scopes = none) :
    (ofScopes scopes).assign name value = .error (undefined name) := by
  rw [assign, resolve_ofScopes]
  rcases innermost_cases name.lexeme value scopes with
    ⟨_, _, _, _, _, _, _, _, hassign⟩ | ⟨hresolve, -, -⟩
  · exact absurd (hassign.symm.trans h) (by simp)
  · rw [hresolve]

/-- A definition binds a name in the innermost scope. -/
theorem define_ofScopes (name : String) (value : Value) (b : Bindings) (outer : List Bindings) :
    (ofScopes (b :: outer)).define name value = ofScopes (b.insert name value :: outer) := by
  show Environment.mk ((stacked ([] ++ b :: outer)).modify outer.length _) _ = _
  rw [bindAt_stacked]
  rfl

/-! ### Scopes -/

/-- Entering a scope puts one without bindings inside all others. -/
theorem push_ofScopes {scopes : List Bindings} (h : scopes ≠ []) :
    (ofScopes scopes).push = ofScopes ([] :: scopes) := by
  obtain ⟨b, outer, rfl⟩ := List.exists_cons_of_ne_nil h
  show Environment.mk _ (stacked (b :: outer)).size = _
  rw [size_stacked]
  rfl

/-- Leaving a scope drops the innermost one, if there is one around it. -/
theorem pop_ofScopes (b : Bindings) {scopes : List Bindings} (h : scopes ≠ []) :
    (ofScopes (b :: scopes)).pop = ofScopes scopes := by
  obtain ⟨c, outer, rfl⟩ := List.exists_cons_of_ne_nil h
  have hback : (stacked (b :: c :: outer)).back? = some ⟨b, below (outer.length + 1)⟩ :=
    Array.back?_push
  have hcurrent : (ofScopes (b :: c :: outer)).current ≠ 0 := Nat.succ_ne_zero outer.length
  rw [pop, if_neg hcurrent]
  rw [show (ofScopes (b :: c :: outer)).frames.back? = _ from hback]
  show Environment.mk ((stacked (c :: outer)).push _).pop _ = _
  rw [Array.pop_push]
  rfl

/-- The global scope is never left. -/
theorem pop_ofScopes_singleton (b : Bindings) : (ofScopes [b]).pop = ofScopes [b] :=
  if_pos rfl

/-! ### Reachable environments -/

/-- The environments that the operations lead to from the empty one. -/
inductive Reachable : Environment → Prop
  | empty : Reachable empty
  | define {env : Environment} (name : String) (value : Value) :
      Reachable env → Reachable (env.define name value)
  | assign {env env' : Environment} {name : Token} {value : Value} :
      Reachable env → env.assign name value = .ok env' → Reachable env'
  | push {env : Environment} : Reachable env → Reachable env.push
  | pop {env : Environment} : Reachable env → Reachable env.pop

/-- The environment that programs start in is reachable. -/
theorem reachable_global : Reachable global := by
  -- The natives are bound one after the other, which is a fold that may start from any environment.
  suffices h : ∀ (natives : List Native) {env : Environment}, Reachable env →
      Reachable (natives.foldl (fun env n => env.define n.name (.callable (.native n))) env) from
    h Native.all .empty
  intro natives
  induction natives with
  | nil => exact id
  | cons n natives ih => exact fun h => ih (h.define n.name (.callable (.native n)))

/-- An assignment neither adds nor drops a scope. -/
theorem length_assignIn {name : String} {value : Value} {scopes scopes' : List Bindings}
    (h : assignIn name value scopes = some scopes') : scopes'.length = scopes.length := by
  induction scopes generalizing scopes' with
  | nil => simp only [assignIn, reduceCtorEq] at h
  | cons b outer ih =>
    rw [assignIn] at h
    split at h
    · cases h
      rfl
    · obtain ⟨outer', houter, rfl⟩ := Option.map_eq_some_iff.1 h
      rw [List.length_cons, List.length_cons, ih houter]

/-- After a definition, the frames still form a stack. -/
theorem IsStack.define {env : Environment} (name : String) (value : Value) (h : IsStack env) :
    IsStack (env.define name value) := by
  obtain ⟨scopes, hne, rfl⟩ := h
  obtain ⟨b, outer, rfl⟩ := List.exists_cons_of_ne_nil hne
  exact ⟨_, List.cons_ne_nil _ _, define_ofScopes name value b outer⟩

/-- After an assignment, the frames still form a stack. -/
theorem IsStack.assign {env env' : Environment} {name : Token} {value : Value} (h : IsStack env)
    (hassign : env.assign name value = .ok env') : IsStack env' := by
  obtain ⟨scopes, hne, rfl⟩ := h
  cases hscopes : assignIn name.lexeme value scopes with
  | none =>
    rw [assign_ofScopes_of_none hscopes] at hassign
    cases hassign
  | some scopes' =>
    rw [assign_ofScopes hscopes] at hassign
    refine ⟨scopes', fun hnil => hne ?_, (Except.ok.inj hassign).symm⟩
    rw [← List.length_eq_zero_iff, ← length_assignIn hscopes, hnil, List.length_nil]

/-- When a scope has been entered, the frames still form a stack. -/
theorem IsStack.push {env : Environment} (h : IsStack env) : IsStack env.push := by
  obtain ⟨scopes, hne, rfl⟩ := h
  exact ⟨_, List.cons_ne_nil _ _, push_ofScopes hne⟩

/-- When a scope has been left, the frames still form a stack. -/
theorem IsStack.pop {env : Environment} (h : IsStack env) : IsStack env.pop := by
  obtain ⟨scopes, hne, rfl⟩ := h
  obtain ⟨b, outer, rfl⟩ := List.exists_cons_of_ne_nil hne
  cases outer with
  | nil => exact ⟨[b], hne, pop_ofScopes_singleton b⟩
  | cons c outer => exact ⟨c :: outer, List.cons_ne_nil _ _, pop_ofScopes b (List.cons_ne_nil _ _)⟩

/-- **Every environment is a stack of scopes.** -/
theorem Reachable.isStack {env : Environment} (h : Reachable env) : IsStack env := by
  induction h with
  | empty => exact ⟨[[]], List.cons_ne_nil _ _, rfl⟩
  | define name value _ ih => exact ih.define name value
  | assign _ hassign ih => exact ih.assign hassign
  | push _ ih => exact ih.push
  | pop _ ih => exact ih.pop

end Environment

end Lox
