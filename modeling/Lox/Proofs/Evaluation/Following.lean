import Lox.Evaluation.Machine

namespace Lox

/-!
# Runs that follow each other

Two runs are compared on machines that are related. The second one follows the first if, whenever
the first one ends, so does the second one: with the same value or the same error, and on machines
that are related again. A run that wants for fuel is followed by every run, so the relation also
tells how runs with little and with much fuel compare.

* `Run.IsFinal`, `Run.Alike` — results that stay, and results that are the same up to a relation.
* `Run.Follows` — whenever the first run ends, the second one ends alike.
* `Run.Follows.bind` — sequences of runs that follow each other.
* `Run.inCall_eq`, `Run.inNewFrame_eq` — brackets as runs between two changes of the machine.
* `Run.behind` — what goes on behind a run that ends with a value.
-/

namespace Run

variable {α β : Type} {R : Machine → Machine → Prop}

/-! ### Results -/

/-- A result that is not due to a want of fuel. -/
def IsFinal : EStateM.Result Stop Machine α → Prop
  | .error .outOfFuel _ => False
  | _ => True

instance : (x : EStateM.Result Stop Machine α) → Decidable (IsFinal x)
  | .ok _ _ | .error (.failed _) _ => isTrue trivial
  | .error .outOfFuel _ => isFalse id

/-- The same value or the same reason to stop, on related machines. -/
inductive Alike (R : Machine → Machine → Prop) :
    EStateM.Result Stop Machine α → EStateM.Result Stop Machine α → Prop
  | ok (a : α) {m m' : Machine} : R m m' → Alike R (.ok a m) (.ok a m')
  | error (stop : Stop) {m m' : Machine} : R m m' → Alike R (.error stop m) (.error stop m')

/-- Whenever the first run ends, the second one ends alike on a related machine. -/
def Follows (R : Machine → Machine → Prop) (r r' : Run α) : Prop :=
  ∀ m m', R m m' → IsFinal (r m) → Alike R (r m) (r' m')

/-- What goes on behind a run, step by step, if it ends with a value. -/
def behind {σ : Type} (x : EStateM.Result Stop Machine α) (rest : α → Machine → List σ) : List σ :=
  match x with
  | .ok a m => rest a m
  | .error _ _ => []

/-- Nothing goes on behind a run if nothing does behind any of its values. -/
@[simp] theorem behind_nil {σ : Type} (x : EStateM.Result Stop Machine α) :
    (behind x fun _ _ => ([] : List σ)) = [] := by
  cases x <;> rfl

/-- A result whose machine is changed. -/
def moved (f : Machine → Machine) :
    EStateM.Result Stop Machine α → EStateM.Result Stop Machine α
  | .ok a m => .ok a (f m)
  | .error stop m => .error stop (f m)

/-- A result whose machine is left as it is stays the same. -/
theorem moved_id (x : EStateM.Result Stop Machine α) : moved id x = x := by
  cases x <;> rfl

/-- A change of the machine makes no result final that was not so before. -/
theorem isFinal_moved {f : Machine → Machine} {x : EStateM.Result Stop Machine α} :
    IsFinal (moved f x) ↔ IsFinal x := by
  cases x with
  | ok => exact Iff.rfl
  | error stop => cases stop <;> exact Iff.rfl

/-- Results stay alike if both machines are changed and the changes keep them related. -/
theorem Alike.moved {R' : Machine → Machine → Prop} {f f' : Machine → Machine}
    {x x' : EStateM.Result Stop Machine α} (h : Alike R' x x')
    (hf : ∀ {m m'}, R' m m' → R (f m) (f' m')) : Alike R (moved f x) (moved f' x') := by
  cases h with
  | ok a hm => exact .ok a (hf hm)
  | error stop hm => exact .error stop (hf hm)

/-- Of two results that are alike, both are final or neither is. -/
theorem Alike.isFinal_iff {x x' : EStateM.Result Stop Machine α} (h : Alike R x x') :
    IsFinal x' ↔ IsFinal x := by
  cases h with
  | ok a hm => exact Iff.rfl
  -- Both stop for the same reason, and only a want of fuel is not final.
  | error stop hm => cases stop <;> exact Iff.rfl

/-- A result that is like a value is the same value on a related machine. -/
theorem Alike.exists_eq_ok {a : α} {m : Machine} {x : EStateM.Result Stop Machine α}
    (h : Alike R (.ok a m) x) : ∃ m', x = .ok a m' ∧ R m m' := by
  cases h with
  | ok _ hm => exact ⟨_, rfl, hm⟩

/-! ### Sequences -/

/-- The second part of a sequence starts with the value and on the machine that the first part ends
    with. -/
theorem bind_eq (r : Run α) (f : α → Run β) (m : Machine) :
    (r >>= f) m = match r m with
      | .ok a n => f a n
      | .error stop n => .error stop n := by
  show EStateM.bind r f m = _
  unfold EStateM.bind
  cases r m <;> rfl

namespace Follows

theorem exhausted (r' : Run α) : Follows R Run.exhausted r' :=
  fun _ _ _ hfinal => hfinal.elim

theorem pure (a : α) : Follows R (Pure.pure a : Run α) (Pure.pure a) :=
  fun _ _ h _ => .ok a h

theorem fail (e : RuntimeError) : Follows R (Run.fail e : Run α) (Run.fail e) :=
  fun _ _ h _ => .error (.failed e) h

/-- What a computation without a machine gives is followed by itself. -/
theorem ofExcept (x : Except RuntimeError α) : Follows R (Run.ofExcept x) (Run.ofExcept x) := by
  cases x with
  | ok a => exact pure a
  | error e => exact fail e

/-- A sequence, whose second part need only be followed with values that the first part can end
    with. -/
theorem bind_of {r r' : Run α} {f f' : α → Run β} (h : Follows R r r')
    (hf : ∀ m a n, r m = .ok a n → Follows R (f a) (f' a)) : Follows R (r >>= f) (r' >>= f') := by
  intro m m' hm hfinal
  rw [bind_eq] at hfinal
  rw [bind_eq, bind_eq]
  -- A first part that wants for fuel would make the whole want for fuel.
  have hfirst : IsFinal (r m) := by
    cases hr : r m with
    | ok => trivial
    | error stop =>
      rw [hr] at hfinal
      cases stop with
      | failed => trivial
      | outOfFuel => exact hfinal
  have halike := h m m' hm hfirst
  have hsecond := hf m
  generalize r m = x at halike hfinal hsecond
  generalize r' m' = x' at halike
  cases halike with
  | ok a hn => exact hsecond a _ rfl _ _ hn hfinal
  | error stop hn => exact .error stop hn

/-- A sequence is followed if both its parts are. -/
theorem bind {r r' : Run α} {f f' : α → Run β} (h : Follows R r r')
    (hf : ∀ a, Follows R (f a) (f' a)) : Follows R (r >>= f) (r' >>= f') :=
  h.bind_of fun _ a _ _ => hf a

/-- A choice by a value that both runs have in common. -/
theorem ite {c : Prop} [Decidable c] {r r' u u' : Run α} (h : Follows R r r')
    (hu : Follows R u u') : Follows R (if c then r else u) (if c then r' else u') := by
  by_cases hc : c
  · rwa [if_pos hc, if_pos hc]
  · rwa [if_neg hc, if_neg hc]

/-- A run that looks at the machine is followed if it is so on every two machines. -/
theorem of_get {f f' : Machine → Run α}
    (h : ∀ m m', R m m' → IsFinal (f m m) → Alike R (f m m) (f' m' m')) :
    Follows R (MonadState.get >>= f) (MonadState.get >>= f') :=
  h

end Follows

/-! ### Brackets -/

/-- A call runs one level deeper and comes back by a level, whatever its result is. -/
theorem inCall_eq (r : Run α) (m : Machine) :
    inCall r m =
      moved (fun n => { n with depth := n.depth - 1 }) (r { m with depth := m.depth + 1 }) := by
  unfold inCall
  cases r { m with depth := m.depth + 1 } <;> rfl

/-- A scope is entered before the run and left after it, whatever its result is. -/
theorem inNewFrame_eq (r : Run α) (m : Machine) :
    inNewFrame r m =
      moved (fun n => { n with env := n.env.pop }) (r { m with env := m.env.push }) := by
  unfold inNewFrame
  cases r { m with env := m.env.push } <;> rfl

/-- Where no call is open, a run of its own is the run. -/
theorem anew_eq (r : Run α) {m : Machine} (h : m.depth = 0) : anew r m = r m := by
  unfold anew
  rw [← h]

end Run

end Lox
