import Lox.Proofs.Environment.Frames

namespace Lox

/-!
# One scope in place of two

Two scopes, one directly inside the other, are told apart by what is bound in the inner one only
while the name is looked at from outside. From inside, one scope with the bindings of both does as
well: names are found with the same values, rebound with the same effect, and bound anew in the
innermost scope.

* `Bindings.Merges` — a scope that binds what two scopes bind, the inner one first.
* `Environment.Splits` — environments that differ in a scope that is split in two.
* `Environment.Splits.lookup_eq`, `assign_cases`, `define`, `push`, `pop` — the operations on both.
* `Environment.Splits.binding?_eq`, `leave` — the scopes seen from outside, also when the inner one
  of the two is left.
-/

variable {merged own base : Bindings} {name : String}

/-! ### Merged bindings -/

namespace Bindings

/-- A scope binds what two scopes bind; the inner one of them comes first. -/
def Merges (merged own base : Bindings) : Prop :=
  ∀ name, merged.find? name = (own.find? name).or (base.find? name)

/-- With an empty scope inside it, a scope binds what it binds alone. -/
theorem merges_nil (b : Bindings) : Merges b [] b := fun _ => rfl

/-- A name that is bound in the inner scope is bound in the merged one. -/
theorem Merges.insert (h : Merges merged own base) (name : String) (value : Value) :
    Merges (merged.insert name value) (own.insert name value) base := by
  intro other
  rw [find?_insert, find?_insert, h other]
  split <;> simp

/-- A name that is rebound in the outer scope, since the inner one does not bind it. -/
theorem Merges.insert_base (h : Merges merged own base) (hown : own.find? name = none)
    (value : Value) : Merges (merged.insert name value) own (base.insert name value) := by
  intro other
  rw [find?_insert, find?_insert, h other]
  split
  · next heq => simp [heq, hown]
  · rfl

/-- A name is bound in the merged scope if one of the two binds it. -/
theorem Merges.isSome_iff (h : Merges merged own base) (name : String) :
    (merged.find? name).isSome ↔ (own.find? name).isSome ∨ (base.find? name).isSome := by
  rw [h name, Option.isSome_or, Bool.or_eq_true]

end Bindings

open Bindings (Merges)

/-! ### Scopes that are split -/

namespace Environment

/-- A name is found in the two scopes with the value that it has in the merged one. -/
theorem findSome?_split (h : Merges merged own base) (name : String) (inner outer : List Bindings) :
    (inner ++ merged :: outer).findSome? (fun scope => scope.find? name) =
      (inner ++ own :: base :: outer).findSome? fun scope => scope.find? name := by
  simp only [List.findSome?_append, List.findSome?_cons, h name]
  cases own.find? name <;> rfl

/-- An assignment changes one of the two scopes if and only if it changes the merged one, and else
    the same scope inside or outside of them. -/
theorem assignIn_split (h : Merges merged own base) (name : String) (value : Value)
    (inner outer : List Bindings) :
    (∃ inner' merged' own' base' outer', inner'.length = inner.length ∧
      Merges merged' own' base' ∧
      assignIn name value (inner ++ merged :: outer) = some (inner' ++ merged' :: outer') ∧
      assignIn name value (inner ++ own :: base :: outer) =
        some (inner' ++ own' :: base' :: outer')) ∨
    (assignIn name value (inner ++ merged :: outer) = none ∧
      assignIn name value (inner ++ own :: base :: outer) = none) := by
  induction inner with
  | nil =>
    simp only [List.nil_append, assignIn, h.isSome_iff]
    by_cases hown : (own.find? name).isSome
    · refine .inl ⟨[], merged.insert name value, own.insert name value, base, outer, rfl,
        h.insert name value, ?_, ?_⟩
      · simp [hown]
      · simp [hown]
    · have hnone : own.find? name = none := Option.not_isSome_iff_eq_none.1 hown
      by_cases hbase : (base.find? name).isSome
      · refine .inl ⟨[], merged.insert name value, own, base.insert name value, outer, rfl,
          h.insert_base hnone value, ?_, ?_⟩
        · simp [hbase]
        · simp [hnone, hbase]
      · -- Neither of the two binds the name, so it is looked for further out.
        cases houter : assignIn name value outer with
        | none => exact .inr (by simp [hown, hbase])
        | some outer' =>
          exact .inl ⟨[], merged, own, base, outer', rfl, h, by simp [hown, hbase],
            by simp [hown, hbase]⟩
  | cons c inner ih =>
    -- A scope inside of the two is the same in both environments.
    rw [List.cons_append, List.cons_append, assignIn, assignIn]
    by_cases hc : (c.find? name).isSome
    · rw [if_pos hc, if_pos hc]
      exact .inl ⟨c.insert name value :: inner, merged, own, base, outer, rfl, h, rfl, rfl⟩
    · rw [if_neg hc, if_neg hc]
      rcases ih with ⟨inner', merged', own', base', outer', hlength, h', hmerged, hsplit⟩ |
        ⟨hmerged, hsplit⟩
      · refine .inl ⟨c :: inner', merged', own', base', outer', ?_, h', ?_, ?_⟩
        · rw [List.length_cons, List.length_cons, hlength]
        · rw [hmerged, Option.map_some, List.cons_append]
        · rw [hsplit, Option.map_some, List.cons_append]
      · exact .inr ⟨by rw [hmerged, Option.map_none], by rw [hsplit, Option.map_none]⟩

/-- The environments differ in one scope, with `n` scopes inside it, for which the second one has
    two. -/
def Splits (n : Nat) (env env' : Environment) : Prop :=
  ∃ inner merged own base outer, inner.length = n ∧ Merges merged own base ∧
    env = ofScopes (inner ++ merged :: outer) ∧ env' = ofScopes (inner ++ own :: base :: outer)

namespace Splits

variable {n : Nat} {env env' : Environment}

/-- A name has the same value in both environments. -/
theorem lookup_eq (h : Splits n env env') (name : String) : env.lookup name = env'.lookup name := by
  obtain ⟨inner, merged, own, base, outer, -, hmerges, rfl, rfl⟩ := h
  rw [lookup_ofScopes, lookup_ofScopes, findSome?_split hmerges]

/-- An assignment succeeds in both environments, which still differ in this way, or fails in both
    with the same error. -/
theorem assign_cases (h : Splits n env env') (name : Token) (value : Value) :
    (∃ env₁ env₁', env.assign name value = .ok env₁ ∧ env'.assign name value = .ok env₁' ∧
      Splits n env₁ env₁') ∨
    ∃ e, env.assign name value = .error e ∧ env'.assign name value = .error e := by
  obtain ⟨inner, merged, own, base, outer, rfl, hmerges, rfl, rfl⟩ := h
  rcases assignIn_split hmerges name.lexeme value inner outer with
    ⟨inner', merged', own', base', outer', hlength, hmerges', hmerged, hsplit⟩ | ⟨hmerged, hsplit⟩
  · exact .inl ⟨_, _, assign_ofScopes hmerged, assign_ofScopes hsplit,
      inner', merged', own', base', outer', hlength, hmerges', rfl, rfl⟩
  · exact .inr ⟨_, assign_ofScopes_of_none hmerged, assign_ofScopes_of_none hsplit⟩

/-- A definition binds the name in the inner one of the two scopes, or further inside. -/
theorem define (h : Splits n env env') (name : String) (value : Value) :
    Splits n (env.define name value) (env'.define name value) := by
  obtain ⟨inner, merged, own, base, outer, rfl, hmerges, rfl, rfl⟩ := h
  cases inner with
  | nil =>
    exact ⟨[], _, _, base, outer, rfl, hmerges.insert name value, define_ofScopes ..,
      define_ofScopes ..⟩
  | cons c inner =>
    exact ⟨c.insert name value :: inner, merged, own, base, outer, rfl, hmerges,
      define_ofScopes .., define_ofScopes ..⟩

/-- A scope is entered inside of those in which the environments differ. -/
theorem push (h : Splits n env env') : Splits (n + 1) env.push env'.push := by
  obtain ⟨inner, merged, own, base, outer, rfl, hmerges, rfl, rfl⟩ := h
  exact ⟨[] :: inner, merged, own, base, outer, rfl, hmerges, push_ofScopes (by simp),
    push_ofScopes (by simp)⟩

/-- A scope is left inside of those in which the environments differ. -/
theorem pop (h : Splits (n + 1) env env') : Splits n env.pop env'.pop := by
  obtain ⟨inner, merged, own, base, outer, hlength, hmerges, rfl, rfl⟩ := h
  obtain ⟨c, inner, rfl⟩ := List.exists_cons_of_length_eq_add_one hlength
  exact ⟨inner, merged, own, base, outer, Nat.succ.inj hlength, hmerges,
    pop_ofScopes c (by simp), pop_ofScopes c (by simp)⟩

end Splits

/-- A scope that was just entered binds nothing yet. -/
theorem IsStack.splits_push {env : Environment} (h : IsStack env) : Splits 0 env env.push := by
  obtain ⟨scopes, hne, rfl⟩ := h
  obtain ⟨b, outer, rfl⟩ := List.exists_cons_of_ne_nil hne
  exact ⟨[], b, [], b, outer, rfl, Bindings.merges_nil b, rfl, push_ofScopes hne⟩

/-- The frame of the innermost scope. -/
theorem binding?_current_ofScopes (b : Bindings) (outer : List Bindings) (name : String) :
    (ofScopes (b :: outer)).binding? outer.length name = b.find? name := by
  show (stacked ([] ++ b :: outer))[outer.length]?.bind _ = _
  rw [getElem?_stacked]
  rfl

namespace Splits

variable {env env' : Environment}

/-- A name that the inner one of the two scopes does not bind is bound in the outer one as in the
    scope that is split. -/
theorem binding?_eq (h : Splits 0 env env') (hname : ¬ env'.Binds env'.current name) :
    env'.binding? env.current name = env.binding? env.current name := by
  obtain ⟨inner, merged, own, base, outer, hlength, hmerges, rfl, rfl⟩ := h
  obtain rfl := List.length_eq_zero_iff.1 hlength
  have hown : own.find? name = none := by
    rw [← binding?_current_ofScopes own (base :: outer)]
    exact Option.not_isSome_iff_eq_none.1 hname
  show (stacked ([own] ++ base :: outer))[outer.length]?.bind _ =
    (ofScopes (merged :: outer)).binding? outer.length name
  rw [getElem?_stacked, binding?_current_ofScopes, hmerges name, hown]
  rfl

/-- When the inner one of the two scopes is left, there are as many frames again, and those below
    the current one are the same. -/
theorem leave (h : Splits 0 env env') :
    SameFrames env env'.pop ∧ ∀ i, i < env.current → env'.pop.frames[i]? = env.frames[i]? := by
  obtain ⟨inner, merged, own, base, outer, hlength, hmerges, rfl, rfl⟩ := h
  obtain rfl := List.length_eq_zero_iff.1 hlength
  rw [List.nil_append, List.nil_append, pop_ofScopes own (List.cons_ne_nil base outer)]
  refine ⟨?_, fun i hi => ?_⟩
  · have hstack (b : Bindings) : IsStack (ofScopes (b :: outer)) :=
      ⟨b :: outer, List.cons_ne_nil b outer, rfl⟩
    refine (hstack merged).sameFrames (hstack base) ?_
    simp only [depth, ofScopes, size_stacked, List.length_cons]
  · show ((stacked outer).push _)[i]? = ((stacked outer).push _)[i]?
    have hne : i ≠ (stacked outer).size := by
      rw [size_stacked]
      exact Nat.ne_of_lt hi
    rw [Array.getElem?_push, Array.getElem?_push, if_neg hne, if_neg hne]

end Splits

end Environment

end Lox
