import Lox.Proofs.Environment.Stack
import Lox.Proofs.Evaluation.Simulation

namespace Lox

/-!
# An empty scope is not noticed

A scope that binds nothing makes no difference to the scopes around it and inside it: names are
found and rebound in the same places with it and without it. So a run that binds no name in a
scope of its own needs no such scope.

* `Simulation.padding` — environments that differ in one empty scope.
* `Simulation.stackwise` — the environments whose frames form a stack, unchanged.
* `Simulation.follows_of_inNewFrame`, `follows_inNewFrame_of` — a run in a scope of its own and
  the same run without it.
-/

namespace Environment

/-- Looking a name up passes over an empty scope. -/
theorem findSome?_padded (name : String) (inner outer : List Bindings) :
    (inner ++ [] :: outer).findSome? (fun scope => scope.find? name) =
      (inner ++ outer).findSome? fun scope => scope.find? name := by
  rw [List.findSome?_append, List.findSome?_append]
  rfl

/-- An assignment leaves the empty scope where it is. -/
theorem assignIn_padded (name : String) (value : Value) (inner outer : List Bindings) :
    (∃ inner' outer', inner'.length = inner.length ∧ outer'.length = outer.length ∧
      assignIn name value (inner ++ [] :: outer) = some (inner' ++ [] :: outer') ∧
      assignIn name value (inner ++ outer) = some (inner' ++ outer')) ∨
    (assignIn name value (inner ++ [] :: outer) = none ∧
      assignIn name value (inner ++ outer) = none) := by
  induction inner with
  -- The empty scope binds nothing, so it is passed over.
  | nil =>
    show (∃ inner' outer', _ ∧ _ ∧ (assignIn name value outer).map ([] :: ·) = _ ∧ _) ∨
      (assignIn name value outer).map ([] :: ·) = none ∧ _
    cases houter : assignIn name value outer with
    | none => exact .inr ⟨rfl, houter⟩
    | some outer' => exact .inl ⟨[], outer', rfl, length_assignIn houter, rfl, houter⟩
  | cons b inner ih =>
    rw [List.cons_append, List.cons_append, assignIn, assignIn]
    -- The scope is inside of the empty one, in both lists.
    by_cases hb : (b.find? name).isSome
    · rw [if_pos hb, if_pos hb]
      exact .inl ⟨b.insert name value :: inner, outer, rfl, rfl, rfl, rfl⟩
    · rw [if_neg hb, if_neg hb]
      rcases ih with ⟨inner', outer', hinner, houter, hpadded, hplain⟩ | ⟨hpadded, hplain⟩
      · rw [hpadded, hplain]
        refine .inl ⟨b :: inner', outer', ?_, houter, rfl, rfl⟩
        rw [List.length_cons, List.length_cons, hinner]
      · rw [hpadded, hplain]
        exact .inr ⟨rfl, rfl⟩

end Environment

namespace Simulation

open Environment (ofScopes IsStack)
open Run (Follows IsFinal Alike)

variable {α : Type}

/-- The first environment has one more scope, which is empty, with `n` scopes inside it. Names may
    be bound in a scope inside it, but not in the empty scope itself. -/
def padding : Simulation Nat where
  rel n env env' := ∃ inner outer, inner.length = n ∧ outer ≠ [] ∧
    env = ofScopes (inner ++ [] :: outer) ∧ env' = ofScopes (inner ++ outer)
  binds n := 0 < n
  lookup := by
    rintro _ _ _ name ⟨inner, outer, -, -, rfl, rfl⟩
    rw [Environment.lookup_ofScopes, Environment.lookup_ofScopes,
      Environment.findSome?_padded]
  assign := by
    rintro _ _ _ name value ⟨inner, outer, rfl, hne, rfl, rfl⟩
    rcases Environment.assignIn_padded name.lexeme value inner outer with
      ⟨inner', outer', hinner, houter, hpadded, hplain⟩ | ⟨hpadded, hplain⟩
    · refine .inl ⟨_, _, Environment.assign_ofScopes hpadded, Environment.assign_ofScopes hplain,
        inner', outer', hinner, fun hnil => hne ?_, rfl, rfl⟩
      rw [← List.length_eq_zero_iff, ← houter, hnil, List.length_nil]
    · exact .inr ⟨_, Environment.assign_ofScopes_of_none hpadded,
        Environment.assign_ofScopes_of_none hplain⟩
  define := by
    rintro _ _ _ name value hpos ⟨inner, outer, rfl, hne, rfl, rfl⟩
    -- The current scope is inside the empty one.
    obtain ⟨b, inner, rfl⟩ := List.exists_cons_of_length_pos hpos
    exact ⟨Bindings.insert name value b :: inner, outer, rfl, hne, Environment.define_ofScopes ..,
      Environment.define_ofScopes ..⟩
  push := by
    rintro _ _ _ ⟨inner, outer, rfl, hne, rfl, rfl⟩
    refine ⟨inner.length + 1, Nat.succ_pos _, ⟨[] :: inner, outer, rfl, hne, ?_, ?_⟩, ?_⟩
    · exact Environment.push_ofScopes (by simp)
    · exact Environment.push_ofScopes (by simp [hne])
    · rintro _ _ ⟨inner', outer', hlength, hne', rfl, rfl⟩
      obtain ⟨b, inner', rfl⟩ := List.exists_cons_of_length_eq_add_one hlength
      refine ⟨inner', outer', Nat.succ.inj hlength, hne', ?_, ?_⟩
      · exact Environment.pop_ofScopes b (by simp)
      · exact Environment.pop_ofScopes b (by simp [hne'])

/-- Equality of environments whose frames form a stack. -/
def stackwise : Simulation Unit :=
  .keeping IsStack (fun name value h => h.define name value) (fun h => h.assign) (fun h => h.push)
    (fun h => h.pop)

/-- The machines that the relation holds of are equal, and their frames form a stack. -/
theorem machines_stackwise {m m' : Machine} :
    stackwise.machines () m m' ↔ m' = m ∧ m.env.IsStack := by
  constructor
  · rintro ⟨⟨henv, hstack⟩, hm'⟩
    rw [hm', ← henv]
    exact ⟨rfl, hstack⟩
  · rintro ⟨rfl, hstack⟩
    exact ⟨⟨rfl, hstack⟩, rfl⟩

/-- A scope that was just entered is empty. -/
theorem padding_push {m : Machine} (h : m.env.IsStack) :
    padding.machines 0 { m with env := m.env.push } m := by
  obtain ⟨scopes, hne, henv⟩ := h
  refine ⟨⟨[], scopes, rfl, hne, ?_, henv⟩, rfl⟩
  rw [henv]
  exact Environment.push_ofScopes hne

/-- Leaving the empty scope leads to the environment without it. -/
theorem stackwise_of_padding {m m' : Machine} (h : padding.machines 0 m m') :
    stackwise.machines () { m with env := m.env.pop } m' := by
  obtain ⟨⟨inner, outer, hinner, hne, henv, henv'⟩, hm'⟩ := h
  obtain rfl := List.length_eq_zero_iff.1 hinner
  have hpop : m.env.pop = m'.env := by
    rw [henv, henv']
    exact Environment.pop_ofScopes [] hne
  rw [machines_stackwise, hpop]
  exact ⟨hm', outer, hne, henv'⟩

/-- The scope around a run can be left out if it stays empty. -/
theorem follows_of_inNewFrame {r r' : Run α} (h : Follows (padding.machines 0) r r') :
    Follows (stackwise.machines ()) (Run.inNewFrame r) r' := by
  intro m m' hm hfinal
  obtain ⟨rfl, hstack⟩ := machines_stackwise.1 hm
  rw [Run.inNewFrame_eq, Run.isFinal_moved] at hfinal
  rw [Run.inNewFrame_eq, ← Run.moved_id (r' m')]
  exact (h _ _ (padding_push hstack) hfinal).moved stackwise_of_padding

/-- A scope can be put around a run that leaves it empty. -/
theorem follows_inNewFrame_of {r r' : Run α} (h : Follows (padding.flip.machines 0) r r') :
    Follows (stackwise.machines ()) r (Run.inNewFrame r') := by
  intro m m' hm hfinal
  obtain ⟨rfl, hstack⟩ := machines_stackwise.1 hm
  rw [Run.inNewFrame_eq, ← Run.moved_id (r m')]
  refine (h _ _ (machines_flip.2 (padding_push hstack)) hfinal).moved fun hn => ?_
  obtain ⟨heq, hpopped⟩ := machines_stackwise.1 (stackwise_of_padding (machines_flip.1 hn))
  exact machines_stackwise.2 ⟨heq.symm, heq ▸ hpopped⟩

end Simulation

end Lox
