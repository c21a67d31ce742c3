import Lox.Proofs.Environment.Split
import Lox.Proofs.Evaluation.Declaration

namespace Lox

/-!
# Blocks and their statements

A block executes its statements in a scope of its own. The same statements, executed without that
scope, bind their names in the scope around, over what was bound there. No step can tell the
difference: where one run has a single scope, the other one has two, with the same names in both.
So both end alike, and only what is left of the declarations differs.

* `Simulation.splitting` — environments that differ in a scope that is split in two.
* `Machine.Passes.not_binds` — names that have not been declared in a new scope are not bound there.
* `Machine.Unscoped` — the machines behind the statements and behind the block.
* `execute_block` — the two runs.
-/

open Environment (IsStack SameFrames Splits)
open Run (Alike IsFinal after)

/-- The second environment has two scopes for one scope of the first one, with so many scopes inside
    it. -/
def Simulation.splitting : Simulation Nat where
  rel := Splits
  binds _ := True
  lookup name h := h.lookup_eq name
  assign name value h := h.assign_cases name value
  define name value _ h := h.define name value
  push h := ⟨_, trivial, h.push, fun h₁ => h₁.pop⟩

namespace Machine

/-- The machine in a new scope. -/
def entered (m : Machine) : Machine := { m with env := m.env.push }

variable {m k n : Machine} {declared : List Declaration} {d : Declaration} {name : String}

/-- In a scope that was entered, only what has been declared is bound. -/
theorem Passes.not_binds (h : Passes m.entered declared k)
    (hname : name ∉ declared.map Declaration.bound) : ¬ k.env.Binds k.env.current name := by
  intro hbinds
  have hcurrent : k.env.current = m.env.depth := h.confined.sameFrames.current
  rcases h.confined.added hbinds with hentered | ⟨-, hmem⟩
  · -- The new frame is empty at first.
    have hlt := Environment.lt_depth_of_binds (Environment.binds_push.1 hentered)
    omega
  · exact hname hmem

/-- A declaration in a scope that was entered covers the binding of its name in the scope around,
    which stays as it is from then on. -/
theorem Passes.binding?_eq (hm : m.env.IsStack) (h : Passes m.entered declared n)
    (hd : d ∈ declared) :
    n.env.binding? m.env.current d.bound = d.machine.env.binding? m.env.current d.bound := by
  obtain ⟨before, rest, rfl⟩ := List.append_of_mem hd
  obtain ⟨hbefore, hbehind⟩ := h.split
  have hcurrent : d.machine.env.current = m.env.depth := hbefore.confined.sameFrames.current
  have hdepth : d.machine.env.depth = m.env.depth + 1 :=
    hbefore.confined.sameFrames.depth.trans (Environment.depth_push m.env)
  have hinner := hm.current_add_one
  have hbinding (i : Nat) : d.done.env.binding? i d.bound =
      if i = m.env.depth ∧ d.bound = d.bound then some d.value
      else d.machine.env.binding? i d.bound := by
    show (d.machine.env.bindAt d.machine.env.current d.bound d.value).binding? i d.bound = _
    rw [hcurrent, Environment.binding?_bindAt (by omega)]
  -- The new scope binds the name now, so the scope around it is out of reach.
  have hbound : d.done.env.Binds m.env.depth d.bound := by
    rw [Environment.Binds, hbinding, if_pos ⟨rfl, rfl⟩]
    rfl
  rw [hbehind.confined.shadowed (by omega) hbound, hbinding, if_neg (by omega)]

/-- Two machines that are reached from `m`: behind some statements, which have made declarations in
    the current scope, and behind the block of these statements, whose declarations are the same but
    are gone. -/
structure Unscoped (m : Machine) (made made' : List Declaration) (n n' : Machine) : Prop where
  /-- Nothing but the environments differ. -/
  same : n' = { n with env := n'.env }
  sameFrames : SameFrames n.env n'.env
  /-- The scopes around the current one are the same. -/
  outside {i : Nat} : i < m.env.current → n'.env.frames[i]? = n.env.frames[i]?
  /-- So is the current one, for each name that is not declared. -/
  undeclared {name : String} : name ∉ made.map Declaration.bound →
    n'.env.binding? m.env.current name = n.env.binding? m.env.current name
  /-- Behind the block, the current scope binds a name that was declared as it did before the
      declaration. -/
  declared {d : Declaration} : d ∈ made' →
    n'.env.binding? m.env.current d.bound = d.machine.env.binding? m.env.current d.bound
  /-- Without the block, it did so too before the first declaration of the name. -/
  first {before rest : List Declaration} {d : Declaration} : made = before ++ d :: rest →
    d.bound ∉ before.map Declaration.bound →
    n'.env.binding? m.env.current d.bound = d.machine.env.binding? m.env.current d.bound

end Machine

open Machine (Passes Unscoped)

namespace Simulation

variable {ι : Type} {S : Simulation ι} {i : ι} {made made' : List Declaration}

/-- Related runs declare the same names. -/
theorem RelatesDeclarations.map_bound (h : List.Forall₂ (S.RelatesDeclarations i) made made') :
    made'.map Declaration.bound = made.map Declaration.bound := by
  induction h with
  | nil => rfl
  | cons hd _ ih =>
    rw [List.map_cons, List.map_cons, ih, Declaration.bound, hd.name]
    rfl

/-- To a declaration of the first run belongs one of the second run, and so it is with those before
    it. -/
theorem RelatesDeclarations.exists_split {before rest : List Declaration} {d : Declaration}
    (h : List.Forall₂ (S.RelatesDeclarations i) (before ++ d :: rest) made') :
    ∃ before' d' rest', made' = before' ++ d' :: rest' ∧ S.RelatesDeclarations i d d' ∧
      List.Forall₂ (S.RelatesDeclarations i) before before' := by
  have hbefore := List.forall₂_take_append _ _ _ h.flip
  have hrest := List.forall₂_drop_append _ _ _ h.flip
  obtain ⟨d', rest', hd, -, hdrop⟩ := List.forall₂_cons_right_iff.1 hrest
  refine ⟨made'.take before.length, d', rest', ?_, hd, hbefore.flip⟩
  rw [← hdrop, List.take_append_drop]

end Simulation

open Simulation (RelatesDeclarations splitting)

/-- What is left when the scope is left in which the second one of two runs was. -/
theorem unscoped_of_splitting {m n n' : Machine} {made made' : List Declaration}
    (hm : m.env.IsStack) (hn : splitting.machines 0 n n')
    (hmade : List.Forall₂ (splitting.RelatesDeclarations 0) made made')
    (hpasses : Passes m made n) (hpasses' : Passes m.entered made' n') :
    m.Unscoped made made' n { n' with env := n'.env.pop } := by
  have hcurrent : n.env.current = m.env.current := hpasses.confined.sameFrames.current
  have hdepth : n'.env.depth = m.env.depth + 1 :=
    hpasses'.confined.sameFrames.depth.trans (Environment.depth_push m.env)
  have hinner := hm.current_add_one
  obtain ⟨hframes, houtside⟩ := hn.1.leave
  have hpop (name : String) : n'.env.pop.binding? m.env.current name =
      n'.env.binding? m.env.current name :=
    hpasses'.isStack.binding?_pop (by omega)
  constructor
  case same => rw [hn.2]
  case sameFrames => exact hframes
  case outside => exact fun hi => houtside _ (hcurrent ▸ hi)
  case undeclared =>
    intro name hname
    rw [← RelatesDeclarations.map_bound hmade] at hname
    rw [hpop, ← hcurrent]
    exact hn.1.binding?_eq (hpasses'.not_binds hname)
  case declared =>
    intro d hd
    rw [hpop, hpasses'.binding?_eq hm hd]
  case first =>
    intro before rest d hsplit hfirst
    subst hsplit
    -- The run in the block makes the same declaration, and has not bound the name before either.
    obtain ⟨before', d', rest', rfl, hd, hbefore⟩ := RelatesDeclarations.exists_split hmade
    have hbound : d'.bound = d.bound := congrArg Token.lexeme hd.name
    have hmachine : d.machine.env.current = m.env.current :=
      hpasses.split.1.confined.sameFrames.current
    rw [← RelatesDeclarations.map_bound hbefore] at hfirst
    rw [hpop, ← hbound, hpasses'.binding?_eq hm (by simp), hbound, ← hmachine]
    exact hd.machines.1.binding?_eq (hpasses'.split.1.not_binds hfirst)

/-- **A block changes only the lifetime of its declarations.** A block and its statements, executed
    directly in the current scope, both end or neither of them does, with the same flow or the same
    error and with the same output, calls and time. They make the same declarations, and behind both
    the scopes around the current one are the same, and so is the current one but for the declared
    names. Of these, the block leaves the bindings as they were before the declarations. -/
theorem execute_block {m : Machine} (hm : m.env.Reachable) (settings : Settings)
    (body : List (Stmt Nat)) :
    let direct (fuel : Nat) : Run Flow := executeBlock settings fuel body
    let block (fuel : Nat) : Run Flow := execute settings fuel (.block body)
    ((∃ r, Terminates block m r) ↔ ∃ r, Terminates direct m r) ∧
      ∀ fuel,
        let made := executeBlockDeclarations settings fuel body m
        let made' := executeBlockDeclarations settings fuel body m.entered
        made'.map Declaration.bound = made.map Declaration.bound ∧
          (IsFinal (block (fuel + 1) m) ↔ IsFinal (direct fuel m)) ∧
          (IsFinal (direct fuel m) →
            Alike (m.Unscoped made made') (direct fuel m) (block (fuel + 1) m)) := by
  intro direct block
  have hstack := hm.isStack
  -- In front of both runs the scope that was entered is empty, so the one around it is split in
  -- two.
  have hentered : splitting.machines 0 m m.entered := ⟨hstack.splits_push, rfl⟩
  have hblock (fuel : Nat) : block (fuel + 1) m =
      Run.moved (fun n => { n with env := n.env.pop }) (direct fuel m.entered) :=
    Run.inNewFrame_eq (direct fuel) m
  have halike (fuel : Nat) := Simulation.alike_or
    ((splitting.covers settings (Nat.le_refl fuel)).executeBlock 0 body trivial)
    ((splitting.flip.covers settings (Nat.le_refl fuel)).executeBlock 0 body trivial) hentered
  have hmade (fuel : Nat) :=
    (splitting.declareAlike settings fuel).executeBlock (i := 0) trivial body hentered
  have hfinal (fuel : Nat) : IsFinal (block (fuel + 1) m) ↔ IsFinal (direct fuel m) := by
    rw [hblock, Run.isFinal_moved]
    rcases halike fuel with halike | ⟨hx, hx'⟩
    · exact halike.isFinal_iff
    · exact iff_of_false hx' hx
  refine ⟨⟨?_, ?_⟩, fun fuel => ⟨RelatesDeclarations.map_bound (hmade fuel), hfinal fuel,
    fun hends => ?_⟩⟩
  · -- The block takes one fuel more than its statements do.
    rintro ⟨r, hr, fuel, rfl⟩
    cases fuel with
    | zero => exact hr.elim
    | succ fuel => exact ⟨_, (hfinal fuel).1 hr, fuel, rfl⟩
  · rintro ⟨r, hr, fuel, rfl⟩
    exact ⟨_, (hfinal fuel).2 hr, fuel + 1, rfl⟩
  · -- Each of the runs passes the machines of its own declarations.
    have hpasses := (declaringAll settings fuel).executeBlock body m hstack
    have hpasses' := (declaringAll settings fuel).executeBlock body m.entered hstack.push
    rw [hblock]
    rcases halike fuel with halike | ⟨hx, -⟩
    · have hmade := hmade fuel
      unfold after at hpasses hpasses'
      unfold direct at *
      generalize executeBlock settings fuel body m = x,
        executeBlock settings fuel body m.entered = x' at *
      cases halike with
      | ok flow hn => exact .ok flow (unscoped_of_splitting hstack hn hmade hpasses hpasses')
      | error stop hn => exact .error stop (unscoped_of_splitting hstack hn hmade hpasses hpasses')
    · exact absurd hends hx

/-- The statements `x = nil; var x = "a"; x = "b";`. -/
def redeclaring : List (Stmt Nat) :=
  let name : Token := { kind := .identifier, lexeme := "x", line := 1 }
  [.expression (.assign name (.constant .nil)), .variable name (.constant (.string "a")),
    .expression (.assign name (.constant (.string "b")))]

/-- Where `x` is bound already, the statements assign to that `x` twice and the block once. -/
theorem execute_block_redeclaring :
    shadowing.env.Reachable ∧ ∃ n n',
      executeBlock { clock := fun _ => 0 } 9 redeclaring shadowing = .ok .normal n ∧
      execute { clock := fun _ => 0 } 10 (.block redeclaring) shadowing = .ok .normal n' ∧
      n'.env.frames[0]? = n.env.frames[0]? ∧
      (n.env.binding? 1 "x").map Value.text = some "b" ∧
      (n'.env.binding? 1 "x").map Value.text = some "nil" := by
  have hreachable : shadowing.env.Reachable :=
    ((Environment.reachable_global.define "x" _).push).define "x" _
  have hdirect : (match executeBlock { clock := fun _ => 0 } 9 redeclaring shadowing with
      | .ok .normal n => (n.env.binding? 1 "x").map Value.text == some "b"
      | _ => false) = true := by decide +kernel
  have hmade : ((executeBlockDeclarations { clock := fun _ => 0 } 9 redeclaring shadowing).map
      fun d => (d.bound, (d.machine.env.binding? 1 "x").map Value.text)) = [("x", some "nil")] := by
    decide +kernel
  obtain ⟨-, hblock⟩ := execute_block hreachable { clock := fun _ => 0 } redeclaring
  obtain ⟨-, -, halike⟩ := hblock 9
  split at hdirect
  · next n hn =>
    simp only [hn] at halike
    obtain ⟨n', hn', hunscoped⟩ := (halike trivial).exists_eq_ok
    obtain ⟨d, hd, hbound⟩ := List.map_eq_singleton_iff.1 hmade
    obtain ⟨hname, hbinding⟩ := Prod.mk.inj hbound
    have hfirst := hunscoped.first (List.nil_append [d] ▸ hd) (by simp)
    rw [hname, show shadowing.env.current = 1 from rfl] at hfirst
    refine ⟨hreachable, n, n', hn, hn', hunscoped.outside (by decide), by simpa using hdirect, ?_⟩
    rw [hfirst, hbinding]
  · cases hdirect

end Lox
