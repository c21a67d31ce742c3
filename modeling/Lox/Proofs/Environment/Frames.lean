import Lox.Proofs.Environment.Stack

namespace Lox

/-!
# What a frame binds

Frames seen from outside, each by its index, and what may become of them while a program runs. A
run leaves every scope that it enters, rebinds a name in the innermost frame that binds it, and
binds new names in the current frame only; so whatever lies under a binding of the same name is out
of its reach.

* `Environment.binding?`, `Environment.Binds` — what the frame at an index binds.
* `Environment.IsStack.of_resolve` — no frame inside the one that is found binds the name.
* `Environment.SameFrames` — as many frames, in the same places.
* `Environment.Confined` — what a run may do that binds only given names in the current frame.
* `Environment.IsStack.confined_assign`, `confined_define`, `confined_pop` — each operation keeps
  to that, and so does whatever is done in a scope that is left again.
-/

namespace Environment

variable {env env' env'' : Environment} {names names' : List String} {i j : Nat} {name : String}

/-! ### Frames by index -/

/-- The value that the frame at index `i` binds a name to. -/
def binding? (env : Environment) (i : Nat) (name : String) : Option Value :=
  env.frames[i]?.bind fun frame => frame.bindings.find? name

/-- The frame at index `i` binds a name. -/
def Binds (env : Environment) (i : Nat) (name : String) : Prop := (env.binding? i name).isSome

/-- Only a frame that is there binds a name. -/
theorem lt_depth_of_binds (h : env.Binds i name) : i < env.depth := by
  refine Nat.lt_of_not_le fun hi => ?_
  have hnone : env.frames[i]? = none := Array.getElem?_eq_none hi
  simp [Binds, binding?, hnone] at h

/-- Two environments with the same bindings at an index bind the same names there. -/
theorem binds_congr (h : env'.binding? i name = env.binding? i name) :
    env'.Binds i name ↔ env.Binds i name := by
  rw [Binds, Binds, h]

/-- Binding a name in a frame changes that binding and no other one. -/
theorem binding?_bindAt {k : Nat} (hk : k < env.depth) (name other : String) (value : Value) :
    (env.bindAt k name value).binding? i other =
      if i = k ∧ other = name then some value else env.binding? i other := by
  have hframe : env.frames[k]? = some env.frames[k] := Array.getElem?_eq_getElem hk
  simp only [binding?, bindAt, Array.getElem?_modify]
  by_cases hi : k = i
  · subst hi
    simp [hframe, Bindings.find?_insert]
  · simp [hi, Ne.symm hi]

/-- A scope that was just entered binds nothing. -/
theorem binding?_push (env : Environment) (i : Nat) (name : String) :
    env.push.binding? i name = env.binding? i name := by
  simp only [binding?, push, Array.getElem?_push]
  by_cases hi : i = env.frames.size
  · simp [hi, Bindings.find?]
  · simp [hi]

theorem binds_push : env.push.Binds i name ↔ env.Binds i name :=
  binds_congr (binding?_push env i name)

/-! ### Frames of a stack -/

/-- In a stack, the frame around another one is the one below it. -/
theorem parent_of_getElem?_stacked {scopes : List Bindings} {frame : Frame}
    (h : (stacked scopes)[i]? = some frame) : frame.parent = below i := by
  induction scopes with
  | nil => simp [stacked] at h
  | cons b outer ih =>
    rw [stacked, Array.getElem?_push, size_stacked] at h
    split at h
    · next hi =>
      cases h
      rw [hi]
    · exact ih h

/-- Around each frame lies the one below it. -/
theorem IsStack.parent_eq (h : IsStack env) {frame : Frame} (hframe : env.frames[i]? = some frame) :
    frame.parent = below i := by
  obtain ⟨scopes, -, rfl⟩ := h
  exact parent_of_getElem?_stacked hframe

/-- The current frame is the last one. -/
theorem IsStack.current_add_one (h : IsStack env) : env.current + 1 = env.depth := by
  obtain ⟨scopes, hne, rfl⟩ := h
  have hpos := List.length_pos_iff.2 hne
  show scopes.length - 1 + 1 = (stacked scopes).size
  rw [size_stacked]
  omega

/-- Leaving a scope that is not the global one takes one frame away. -/
theorem IsStack.depth_pop (h : IsStack env) (hd : 1 < env.depth) :
    env.pop.depth + 1 = env.depth := by
  obtain ⟨scopes, hne, rfl⟩ := h
  obtain ⟨b, outer, rfl⟩ := List.exists_cons_of_ne_nil hne
  have houter : outer ≠ [] := by
    rintro rfl
    simp [depth, ofScopes] at hd
  rw [pop_ofScopes b houter]
  simp [depth, ofScopes]

/-- Leaving a scope changes nothing in the frames that stay. -/
theorem IsStack.binding?_pop (h : IsStack env) (hi : i + 1 < env.depth) :
    env.pop.binding? i name = env.binding? i name := by
  obtain ⟨scopes, hne, rfl⟩ := h
  obtain ⟨b, outer, rfl⟩ := List.exists_cons_of_ne_nil hne
  have hlt : i < outer.length := by
    simpa [depth, ofScopes] using hi
  have houter : outer ≠ [] := List.ne_nil_of_length_pos (Nat.zero_lt_of_lt hlt)
  rw [pop_ofScopes b houter]
  show (stacked outer)[i]?.bind _ = ((stacked outer).push _)[i]?.bind _
  rw [Array.getElem?_push, size_stacked, if_neg (Nat.ne_of_lt hlt)]

/-- The search for a name outwards from a frame ends at the first frame that binds it. -/
theorem IsStack.of_resolveFrom (h : IsStack env) {bound k : Nat}
    (hresolve : env.resolveFrom name bound i = some k) :
    k ≤ i ∧ env.Binds k name ∧ ∀ j, k < j → j ≤ i → ¬ env.Binds j name := by
  induction bound generalizing i with
  | zero => simp [resolveFrom] at hresolve
  | succ bound ih =>
    rw [resolveFrom] at hresolve
    cases hframe : env.frames[i]? with
    | none => simp [hframe] at hresolve
    | some frame =>
      have hbinding : env.binding? i name = frame.bindings.find? name := by simp [binding?, hframe]
      simp only [hframe] at hresolve
      by_cases hbinds : (frame.bindings.find? name).isSome
      · rw [if_pos hbinds] at hresolve
        obtain rfl : i = k := Option.some.inj hresolve
        refine ⟨Nat.le_refl i, ?_, fun j hlt hle => absurd hlt (Nat.not_lt.2 hle)⟩
        rw [Binds, hbinding]
        exact hbinds
      · -- The frame does not bind the name, so the search goes on in the frame below.
        have hnot : ¬ env.Binds i name := by
          rw [Binds, hbinding]
          exact hbinds
        rw [if_neg hbinds, h.parent_eq hframe] at hresolve
        cases i with
        | zero => simp [below] at hresolve
        | succ i =>
          obtain ⟨hle, hk, hbetween⟩ := ih hresolve
          refine ⟨Nat.le_succ_of_le hle, hk, fun j hlt hj => ?_⟩
          rcases Nat.lt_or_eq_of_le hj with hj | rfl
          · exact hbetween j hlt (Nat.le_of_lt_succ hj)
          · exact hnot

/-- A name is found in the innermost frame that binds it. -/
theorem IsStack.of_resolve (h : IsStack env) {k : Nat} (hresolve : env.resolve name = some k) :
    env.Binds k name ∧ ∀ j, k < j → ¬ env.Binds j name := by
  obtain ⟨-, hk, hbetween⟩ := h.of_resolveFrom hresolve
  refine ⟨hk, fun j hlt hj => hbetween j hlt ?_ hj⟩
  have hcurrent := h.current_add_one
  have := lt_depth_of_binds hj
  omega

/-! ### What runs may do -/

/-- There are as many frames, each inside the same one as before, and the same one is current. -/
structure SameFrames (env env' : Environment) : Prop where
  depth : env'.depth = env.depth
  current : env'.current = env.current
  parent (i : Nat) : env'.frames[i]?.map Frame.parent = env.frames[i]?.map Frame.parent

theorem SameFrames.refl (env : Environment) : SameFrames env env := ⟨rfl, rfl, fun _ => rfl⟩

theorem SameFrames.trans (h : SameFrames env env') (h' : SameFrames env' env'') :
    SameFrames env env'' where
  depth := h'.depth.trans h.depth
  current := h'.current.trans h.current
  parent i := (h'.parent i).trans (h.parent i)

/-- The index of a frame of a stack tells which frame is around it. -/
theorem IsStack.map_parent (h : IsStack env) (i : Nat) :
    env.frames[i]?.map Frame.parent = if i < env.depth then some (below i) else none := by
  by_cases hi : i < env.depth
  · have hframe : env.frames[i]? = some env.frames[i] := Array.getElem?_eq_getElem hi
    rw [if_pos hi, hframe, Option.map_some, h.parent_eq hframe]
  · rw [if_neg hi, Array.getElem?_eq_none (Nat.le_of_not_lt hi), Option.map_none]

/-- The number of frames tells where all the frames of a stack are. -/
theorem IsStack.sameFrames (h : IsStack env) (h' : IsStack env') (hd : env'.depth = env.depth) :
    SameFrames env env' where
  depth := hd
  current := by
    have hcurrent := h.current_add_one
    have hcurrent' := h'.current_add_one
    omega
  parent i := by rw [h.map_parent, h'.map_parent, hd]

/-- What a run may do to an environment that binds no names but the given ones in the current
    frame: it leaves the frames in their places, loses no name, adds none but these, and does not
    touch a binding that lies under another one of the same name. -/
structure Confined (names : List String) (env env' : Environment) : Prop where
  sameFrames : SameFrames env env'
  kept {i : Nat} {name : String} : env.Binds i name → env'.Binds i name
  added {i : Nat} {name : String} : env'.Binds i name →
    env.Binds i name ∨ i = env.current ∧ name ∈ names
  shadowed {i j : Nat} {name : String} : i < j → env.Binds j name →
    env'.binding? i name = env.binding? i name

theorem Confined.refl (names : List String) (env : Environment) : Confined names env env where
  sameFrames := .refl env
  kept h := h
  added h := .inl h
  shadowed _ _ := rfl

theorem Confined.trans (h : Confined names env env') (h' : Confined names env' env'') :
    Confined names env env'' where
  sameFrames := h.sameFrames.trans h'.sameFrames
  kept hbinds := h'.kept (h.kept hbinds)
  added hbinds := by
    rcases h'.added hbinds with hbinds | ⟨hi, hname⟩
    · exact h.added hbinds
    · exact .inr ⟨hi.trans h.sameFrames.current, hname⟩
  -- The binding on top is still there when the second run starts.
  shadowed hlt hbinds := (h'.shadowed hlt (h.kept hbinds)).trans (h.shadowed hlt hbinds)

/-- A run that may bind some names may as well bind more. -/
theorem Confined.mono (h : Confined names env env') (hnames : names ⊆ names') :
    Confined names' env env' where
  sameFrames := h.sameFrames
  kept := h.kept
  added hbinds := (h.added hbinds).imp_right fun ⟨hi, hname⟩ => ⟨hi, hnames hname⟩
  shadowed := h.shadowed

/-- The frames below the current one bind the same names as before. -/
theorem Confined.binds_iff_of_lt (h : Confined names env env') (hi : i < env.current) :
    env'.Binds i name ↔ env.Binds i name := by
  refine ⟨fun hbinds => ?_, h.kept⟩
  rcases h.added hbinds with hbinds | ⟨rfl, -⟩
  · exact hbinds
  · exact absurd hi (Nat.lt_irrefl _)

/-- An assignment changes one binding, and no frame inside binds the name. -/
theorem IsStack.confined_assign (h : IsStack env) {name : Token} {value : Value}
    (hassign : env.assign name value = .ok env') : Confined [] env env' := by
  cases hresolve : env.resolve name.lexeme with
  | none => simp [Environment.assign, hresolve] at hassign
  | some k =>
    obtain rfl : env.bindAt k name.lexeme value = env' := by
      simpa [Environment.assign, hresolve] using hassign
    obtain ⟨hk, hinner⟩ := h.of_resolve hresolve
    have hbinding (i : Nat) (other : String) :=
      binding?_bindAt (i := i) (lt_depth_of_binds hk) name.lexeme other value
    have hbinds (i : Nat) (other : String) :
        (env.bindAt k name.lexeme value).Binds i other ↔ env.Binds i other := by
      by_cases hat : i = k ∧ other = name.lexeme
      · obtain ⟨rfl, rfl⟩ := hat
        simp [Binds, hbinding]
        exact hk
      · rw [Binds, hbinding, if_neg hat]
        rfl
    refine ⟨h.sameFrames (h.assign hassign) (depth_bindAt ..), (hbinds _ _).2,
      fun hb => .inl ((hbinds _ _).1 hb), fun {i j other} hlt hb => ?_⟩
    have hnot : ¬ (i = k ∧ other = name.lexeme) := by
      rintro ⟨rfl, rfl⟩
      exact hinner j hlt hb
    rw [hbinding, if_neg hnot]

/-- A definition binds its name in the current frame, which lies under no other one. -/
theorem IsStack.confined_define (h : IsStack env) (name : String) (value : Value) :
    Confined [name] env (env.define name value) := by
  have hcurrent := h.current_add_one
  have hbinding (i : Nat) (other : String) :=
    binding?_bindAt (i := i) (show env.current < env.depth by omega) name other value
  refine ⟨h.sameFrames (h.define name value) (depth_define ..), fun {i other} hb => ?_,
    fun {i other} hb => ?_, fun {i j other} hlt hb => ?_⟩
  · rw [Binds, Environment.define, hbinding]
    split
    · rfl
    · exact hb
  · rw [Binds, Environment.define, hbinding] at hb
    split at hb
    · next hat => exact .inr ⟨hat.1, List.mem_singleton.2 hat.2⟩
    · exact .inl hb
  · have hj := lt_depth_of_binds hb
    rw [Environment.define, hbinding, if_neg (by omega)]

/-- What is bound in a scope is gone when the scope is left. -/
theorem IsStack.confined_pop (h : IsStack env) (h' : IsStack env')
    (hconfined : Confined names env.push env') : Confined [] env env'.pop := by
  have hdepth : env'.depth = env.depth + 1 := hconfined.sameFrames.depth.trans (depth_push env)
  have hpos := h.current_add_one
  have hpop := h'.depth_pop (by omega)
  have hbinding {i : Nat} (hi : i < env.depth) (name : String) :
      env'.pop.binding? i name = env'.binding? i name :=
    h'.binding?_pop (by omega)
  refine ⟨h.sameFrames h'.pop (by omega), fun {i name} hb => ?_, fun {i name} hb => ?_,
    fun {i j name} hlt hb => ?_⟩
  · have hi := lt_depth_of_binds hb
    exact (binds_congr (hbinding hi name)).2 (hconfined.kept (binds_push.2 hb))
  · have hi : i < env.depth := by
      have := lt_depth_of_binds hb
      omega
    rcases hconfined.added ((binds_congr (hbinding hi name)).1 hb) with hpushed | ⟨hi', -⟩
    · exact .inl (binds_push.1 hpushed)
    · -- The frame that was entered is gone.
      rw [current_push] at hi'
      omega
  · have hj := lt_depth_of_binds hb
    rw [hbinding (by omega), hconfined.shadowed hlt (binds_push.2 hb), binding?_push]

end Environment

end Lox
