import Lox.Proofs.Evaluation.Arising
import Lox.Proofs.Evaluation.ErrorToken
import Lox.Proofs.Syntax.Numbering
import Mathlib

namespace Lox

/-!
# Equality of values in a session

The operators `==` and `!=` compare values of all types and never fail. Functions are compared by
the numbers of their declarations. All functions that arise in a session are declared in its
programs, and there each declaration has a number of its own; so a function is equal to those that
stem from the same declaration, however often that is executed, and to no others.

* `Value.equal_comm`, `equal_trans`, `equal_self_iff`, `kind_eq_of_equal` — equality of values.
* `Session.programs`, `Session.moments` — what a session executes, and its moments.
* `Function.StemsFrom` — the declaration that a function stems from.
* `Session.standsAt_unique` — functions of the same number are declared at the same place.
* `Session.existsUnique_stemsFrom` — each function that arises stems from one declaration.
* `equality_sound` — equality in sessions.
-/

variable {settings : Settings} {fuel : Nat}

open Run (after)

/-! ### Values -/

namespace Callable

/-- Equality of what can be called is symmetric. -/
theorem equal_comm (c d : Callable) : c.equal d = d.equal c := by
  cases c with
  | native m =>
    cases d with
    | native n => exact BEq.comm
    | function g => rfl
  | function f =>
    cases d with
    | native n => rfl
    | function g => exact BEq.comm

/-- Equality of what can be called is transitive. -/
theorem equal_trans {c d e : Callable} (h : c.equal d = true) (h' : d.equal e = true) :
    c.equal e = true := by
  cases c with
  | native m =>
    cases d with
    | native n => rwa [← eq_of_beq h] at h'
    | function g => exact absurd h Bool.false_ne_true
  | function f =>
    cases d with
    | native n => exact absurd h Bool.false_ne_true
    | function g =>
      cases e with
      | native n => exact absurd h' Bool.false_ne_true
      | function k => exact beq_iff_eq.2 ((eq_of_beq h).trans (eq_of_beq h'))

/-- What can be called is equal to itself. -/
theorem equal_self (c : Callable) : c.equal c = true := by
  cases c with
  | native n => exact BEq.rfl
  | function f => exact BEq.rfl

end Callable

/-- The types of values, where native functions are apart from those that are declared. -/
inductive Value.Kind
  | nil
  | bool
  | number
  | string
  | native
  | function
deriving DecidableEq, Repr

namespace Value

/-- The type of a value. -/
def kind : Value → Kind
  | .nil => .nil
  | .bool _ => .bool
  | .number _ => .number
  | .string _ => .string
  | .callable (.native _) => .native
  | .callable (.function _) => .function

/-- Only values of the same type are equal. -/
theorem kind_eq_of_equal {v w : Value} (h : v.equal w = true) : v.kind = w.kind := by
  unfold equal at h
  split at h
  any_goals rfl
  · -- Native functions and declared ones are of different types, and never equal.
    next c d =>
    cases c with
    | native m =>
      cases d with
      | native n => rfl
      | function g => exact absurd h Bool.false_ne_true
    | function f =>
      cases d with
      | native n => exact absurd h Bool.false_ne_true
      | function g => rfl
  · exact absurd h Bool.false_ne_true

/-- Equality of values is symmetric. -/
theorem equal_comm (v w : Value) : v.equal w = w.equal v := by
  cases v with
  | nil => cases w <;> rfl
  | bool a =>
    cases w with
    | bool b => exact BEq.comm
    | _ => rfl
  | number x =>
    cases w with
    | number y => exact BEq.comm
    | _ => rfl
  | string s =>
    cases w with
    | string t => exact BEq.comm
    | _ => rfl
  | callable c =>
    cases w with
    | callable d => exact c.equal_comm d
    | _ => rfl

/-- Equality of values is transitive. -/
theorem equal_trans {u v w : Value} (h : u.equal v = true) (h' : v.equal w = true) :
    u.equal w = true := by
  -- Apart from numbers and functions, only the same value is equal to a value.
  cases u with
  | nil =>
    cases v with
    | nil => exact h'
    | _ => exact absurd h Bool.false_ne_true
  | bool a =>
    cases v with
    | bool b => rwa [← eq_of_beq h] at h'
    | _ => exact absurd h Bool.false_ne_true
  | string s =>
    cases v with
    | string t => rwa [← eq_of_beq h] at h'
    | _ => exact absurd h Bool.false_ne_true
  | number x =>
    cases v with
    | number y =>
      cases w with
      | number z => exact BEq.trans h h'
      | _ => exact absurd h' Bool.false_ne_true
    | _ => exact absurd h Bool.false_ne_true
  | callable c =>
    cases v with
    | callable d =>
      cases w with
      | callable e => exact Callable.equal_trans h h'
      | _ => exact absurd h' Bool.false_ne_true
    | _ => exact absurd h Bool.false_ne_true

/-- Each value is equal to itself but what is not a number. -/
theorem equal_self_iff (v : Value) : v.equal v = true ↔ ∀ x, v = .number x → x.isNaN = false := by
  cases v with
  | number x =>
    refine Float.beq_self_iff.trans ⟨fun h y hy => ?_, fun h hnan => ?_⟩
    · cases hy
      rw [Float.isNaN_eq_decide_eq_nan, decide_eq_false h]
    · have hx : x.isNaN = false := h x rfl
      rw [Float.isNaN_eq_decide_eq_nan, decide_eq_true hnan] at hx
      cases hx
  | nil => exact iff_of_true rfl fun x hx => by cases hx
  | bool b => exact iff_of_true BEq.rfl fun x hx => by cases hx
  | string s => exact iff_of_true BEq.rfl fun x hx => by cases hx
  | callable c => exact iff_of_true c.equal_self fun x hx => by cases hx

end Value

/-- An operator is applied to the values of its operands. -/
theorem evaluate_binary {l r : Expr} {m n k : Machine} {left right : Value}
    (hl : evaluate settings fuel l m = .ok left n) (hr : evaluate settings fuel r n = .ok right k)
    (op : Token) :
    evaluate settings (fuel + 1) (.binary l op r) m =
      Run.ofExcept (Value.binary op left right) k := by
  show (evaluate settings fuel l >>= fun left => evaluate settings fuel r >>= fun right =>
    Run.ofExcept (Value.binary op left right)) m = _
  rw [Run.bind_eq, hl]
  show (evaluate settings fuel r >>= _) n = _
  rw [Run.bind_eq, hr]

/-! ### What a session executes -/

namespace Session

/-- The statements of a program text that are executed: none if there are syntax errors. -/
def executed (source : String) : List (Stmt Unit) :=
  match parse (scan source) with
  | (program, []) => program
  | _ => []

/-- The programs that are executed for some texts, numbered as they are if the first free number is
    `next`. -/
def programs : (next : Nat) → List String → List (List (Stmt Nat))
  | _, [] => []
  | next, source :: rest =>
    (Stmt.numberAll next (executed source)).1 ::
      programs (Stmt.numberAll next (executed source)).2 rest

/-- The moments of running some texts in a session, each in a run of its own. -/
def moments (settings : Settings) (fuel : Nat) : List String → Session → List Moment
  | [], _ => []
  | source :: rest, s =>
    executeAllMoments settings fuel [] (s.load (executed source)).1 { s.machine with depth := 0 } ++
      moments settings fuel rest (s.run settings fuel source).2

/-- Running a text takes the numbers of its functions. It leaves the machine as it is, if the text
    has syntax errors, or executes the text. -/
theorem run_executed (settings : Settings) (fuel : Nat) (s : Session) (source : String) :
    (s.run settings fuel source).2.nextFunction = (s.load (executed source)).2.nextFunction ∧
      ((s.run settings fuel source).2.machine = s.machine ∨
        (s.run settings fuel source).2.machine =
          after (Run.anew (executeAll settings fuel (s.load (executed source)).1)) s.machine) := by
  rw [run, executed]
  cases parse (scan source) with
  | mk program errors =>
    cases errors with
    | nil =>
      show (execute settings fuel (s.load program).2 (s.load program).1).2.nextFunction = _ ∧
        (_ ∨ (execute settings fuel (s.load program).2 (s.load program).1).2.machine = _)
      rw [execute_eq]
      exact ⟨rfl, .inr rfl⟩
    | cons e errors => exact ⟨rfl, .inl rfl⟩

end Session

/-! ### The declarations that functions stem from -/

/-- A place at which a statement stands. -/
structure Origin where
  /-- Which of the texts of a session it is in. -/
  text : Nat
  /-- Which of the statements of that text it is, with those inside others counted too. -/
  place : Nat

/-- The declaration of the function stands at a place of some programs. -/
def Function.StandsAt (f : Function) (programs : List (List (Stmt Nat))) (o : Origin) : Prop :=
  ∃ program, programs[o.text]? = some program ∧
    (Stmt.partsAll program)[o.place]? = some f.declaration

/-- The declaration of a function stands in the first program or in one of the others. -/
theorem Function.StandsAt.cons_cases {f : Function} {program : List (Stmt Nat)}
    {programs : List (List (Stmt Nat))} {o : Origin} (h : f.StandsAt (program :: programs) o) :
    (∃ place, o = ⟨0, place⟩ ∧ (Stmt.partsAll program)[place]? = some f.declaration) ∨
      ∃ text place, o = ⟨text + 1, place⟩ ∧ f.StandsAt programs ⟨text, place⟩ := by
  obtain ⟨text, place⟩ := o
  obtain ⟨p, hp, hplace⟩ := h
  cases text with
  | zero =>
    obtain rfl : program = p := Option.some.inj hp
    exact .inl ⟨place, rfl, hplace⟩
  | succ text => exact .inr ⟨text, place, rfl, p, hp, hplace⟩

/-- The function stems from the declaration at a place of the texts of a session. -/
def Function.StemsFrom (f : Function) (sources : List String) (o : Origin) : Prop :=
  f.StandsAt (Session.programs 0 sources) o

namespace Session

variable {f g : Function} {o o' : Origin}

/-- The functions of a program have numbers from the first one of the program on. -/
theorem le_id_of_standsAt (sources : List String) {next : Nat}
    (h : f.StandsAt (programs next sources) o) : next ≤ f.id := by
  induction sources generalizing next o with
  | nil =>
    obtain ⟨program, hprogram, -⟩ := h
    cases hprogram
  | cons source rest ih =>
    have hnumbers := Stmt.numbers_numberAll (executed source) next
    rcases h.cons_cases with ⟨place, -, hplace⟩ | ⟨text, place, -, hrest⟩
    · exact (hnumbers.bounds _ (List.mem_of_getElem? hplace) f.id rfl).1
    · exact Nat.le_trans hnumbers.le (ih hrest)

/-- Functions of the same number are declared at the same place. -/
theorem standsAt_unique (sources : List String) {next : Nat}
    (hf : f.StandsAt (programs next sources) o) (hg : g.StandsAt (programs next sources) o')
    (hid : f.id = g.id) : o = o' := by
  induction sources generalizing next o o' with
  | nil =>
    obtain ⟨program, hprogram, -⟩ := hf
    cases hprogram
  | cons source rest ih =>
    have hnumbers := Stmt.numbers_numberAll (executed source) next
    -- In the first text the numbers are below those of all others.
    rcases hf.cons_cases with ⟨i, rfl, hi⟩ | ⟨text, i, rfl, hi⟩ <;>
      rcases hg.cons_cases with ⟨j, rfl, hj⟩ | ⟨text', j, rfl, hj⟩
    · rw [hnumbers.place_unique hi hj rfl (congrArg some hid.symm)]
    · have hlt := (hnumbers.bounds _ (List.mem_of_getElem? hi) f.id rfl).2
      have hle := le_id_of_standsAt rest hj
      omega
    · have hlt := (hnumbers.bounds _ (List.mem_of_getElem? hj) g.id rfl).2
      have hle := le_id_of_standsAt rest hi
      omega
    · obtain ⟨rfl, rfl⟩ := Origin.mk.inj (ih hi hj)
      rfl

end Session

/-- Functions that stem from a declaration are equal exactly if they stem from the same one. -/
theorem Function.StemsFrom.id_eq_iff {f g : Function} {sources : List String} {o o' : Origin}
    (hf : f.StemsFrom sources o) (hg : g.StemsFrom sources o') : f.id = g.id ↔ o = o' := by
  refine ⟨Session.standsAt_unique sources hf hg, ?_⟩
  rintro rfl
  obtain ⟨program, hprogram, hplace⟩ := hf
  obtain ⟨program', hprogram', hplace'⟩ := hg
  obtain rfl := Option.some.inj (hprogram.symm.trans hprogram')
  have hdeclaration := Option.some.inj (hplace.symm.trans hplace')
  exact (Stmt.function.inj hdeclaration).1

/-! ### The functions that arise in a session -/

/-- Each token corresponds to itself, and so does each function that is declared in some
    programs. -/
def declaredIn (programs : List (List (Stmt Nat))) : Correspondence where
  token _ t t' := t' = t
  function f _ := ∃ program ∈ programs, f.declaration ∈ Stmt.partsAll program
  kind_eq h := by rw [h]
  lexeme_eq h := by rw [h]

/-- Each of the programs corresponds to itself, since its functions are declared in it. -/
theorem matchesAll_declaredIn {programs : List (List (Stmt Nat))} {program : List (Stmt Nat)}
    (h : program ∈ programs) : Stmt.MatchesAll (declaredIn programs) program program := by
  have hself : Stmt.MatchesAll (declaredIn programs) program (Stmt.relabelAll id program) :=
    Stmt.matchesAll_relabelAll program (fun _ _ => rfl) fun f hf => ⟨program, h, hf⟩
  rwa [(Stmt.relabelAll_eq_self_iff program).2 fun _ _ => rfl] at hself

namespace Session

/-- All values that arise in a session match themselves if the functions do that are there at
    first and those that are declared in its programs. -/
theorem arising_moments (settings : Settings) (fuel : Nat) {C : Correspondence}
    (sources : List String) {s : Session} (hs : s.machine.Matches C s.machine)
    (hprograms : ∀ program ∈ programs s.nextFunction sources, Stmt.MatchesAll C program program) :
    ∀ v, .value v ∈ s.moments settings fuel sources → v.Matches C v := by
  induction sources generalizing s with
  | nil => exact fun v hv => absurd hv List.not_mem_nil
  | cons source rest ih =>
    obtain ⟨hprogram, hrest⟩ := List.forall_mem_cons.1 hprograms
    have hstart : Machine.Matches C { s.machine with depth := 0 } { s.machine with depth := 0 } :=
      ⟨hs.env, rfl⟩
    obtain ⟨hnext, hmachine⟩ := run_executed settings fuel s source
    have hafter : (s.run settings fuel source).2.machine.Matches C
        (s.run settings fuel source).2.machine := by
      rcases hmachine with hsame | hexecuted
      · rwa [hsame]
      · rw [hexecuted]
        exact (matches_executeAll settings fuel hprogram _ _ hstart).after
    intro v hv
    rcases List.mem_append.1 hv with hv | hv
    · exact arising_executeAll settings fuel hprogram [] hstart v hv
    · refine ih hafter ?_ v hv
      rwa [hnext]

/-- A function that arises in a session is declared at one place of its texts and no other. -/
theorem existsUnique_stemsFrom (settings : Settings) (fuel : Nat) (output : Sink)
    (sources : List String) {f : Function}
    (hf : .value (.callable (.function f)) ∈
      ({ machine := { output } } : Session).moments settings fuel sources) :
    ∃! o, f.StemsFrom sources o := by
  have hstart : Machine.Matches (declaredIn (programs 0 sources)) { output } { output } :=
    ⟨Environment.matches_self_iff.2 fun f hf =>
      absurd hf (Environment.not_hasFunction (.inr rfl) f), rfl⟩
  have hmatches := arising_moments settings fuel sources hstart
    (fun program hprogram => matchesAll_declaredIn hprogram) _ hf
  cases hmatches with
  | function hself =>
    obtain ⟨program, hprogram, hplace⟩ := hself.function
    obtain ⟨text, htext⟩ := List.getElem?_of_mem hprogram
    obtain ⟨place, hplace⟩ := List.getElem?_of_mem hplace
    have hstems : f.StemsFrom sources ⟨text, place⟩ := ⟨program, htext, hplace⟩
    exact ⟨_, hstems, fun o ho => (ho.id_eq_iff hstems).1 rfl⟩

end Session

/-- **Equality is sound over whole sessions.** The operators `==` and `!=` never fail on evaluated
    operands, and one is the negation of the other. Equality is symmetric and transitive, each value
    is equal to itself but what is not a number, and values of different types are never equal, nor
    is a native function to a declared one. Each function that arises in a session, whatever its
    texts, stems from one declaration in one of them, and two are equal if and only if they stem
    from the same one. -/
theorem equality_sound (settings : Settings) (fuel : Nat) (output : Sink)
    (sources : List String) :
    (∀ l op r m left n right k, evaluate settings fuel l m = .ok left n →
      evaluate settings fuel r n = .ok right k →
        (op.kind = .symbol .equalEqual → evaluate settings (fuel + 1) (.binary l op r) m =
          .ok (.bool (left.equal right)) k) ∧
        (op.kind = .symbol .bangEqual → evaluate settings (fuel + 1) (.binary l op r) m =
          .ok (.bool !left.equal right) k)) ∧
    (∀ v w : Value, v.equal w = w.equal v) ∧
    (∀ u v w : Value, u.equal v = true → v.equal w = true → u.equal w = true) ∧
    (∀ v : Value, v.equal v = true ↔ ∀ x, v = .number x → x.isNaN = false) ∧
    (∀ v w : Value, v.equal w = true → v.kind = w.kind) ∧
    let moments := ({ machine := { output } } : Session).moments settings fuel sources
    (∀ f, .value (.callable (.function f)) ∈ moments → ∃! o, f.StemsFrom sources o) ∧
    ∀ f g, .value (.callable (.function f)) ∈ moments →
      .value (.callable (.function g)) ∈ moments →
        (Value.equal (.callable (.function f)) (.callable (.function g)) = true ↔
          ∃ o, f.StemsFrom sources o ∧ g.StemsFrom sources o) := by
  refine ⟨fun l op r m left n right k hl hr => ?_, Value.equal_comm, fun _ _ _ => Value.equal_trans,
    Value.equal_self_iff, fun _ _ => Value.kind_eq_of_equal, ?_⟩
  · rw [evaluate_binary hl hr]
    unfold Value.binary
    constructor
    · intro hop
      rw [hop]
      rfl
    · intro hop
      rw [hop]
      rfl
  intro moments
  have horigin (f : Function) (hf : .value (.callable (.function f)) ∈ moments) :
      ∃! o, f.StemsFrom sources o :=
    Session.existsUnique_stemsFrom settings fuel output sources hf
  refine ⟨horigin, fun f g hf hg => ?_⟩
  obtain ⟨o, ho, -⟩ := horigin f hf
  obtain ⟨o', ho', -⟩ := horigin g hg
  have hequal : Value.equal (.callable (.function f)) (.callable (.function g)) = true ↔
      f.id = g.id := beq_iff_eq
  rw [hequal, ho.id_eq_iff ho']
  constructor
  · rintro rfl
    exact ⟨o, ho, ho'⟩
  · rintro ⟨o₁, hf₁, hg₁⟩
    exact ((ho.id_eq_iff hf₁).1 rfl).trans ((hg₁.id_eq_iff ho').1 rfl)

/-- The declared function that arises at a moment. -/
def Moment.function? : Moment → Option Function
  | .value (.callable (.function f)) => some f
  | _ => none

/-- The moment of a declared function is that at which it arises. -/
theorem Moment.eq_of_function? {moment : Moment} {f : Function} (h : moment.function? = some f) :
    moment = .value (.callable (.function f)) := by
  unfold function? at h
  split at h
  · rw [Option.some.inj h]
  · cases h

/-- Two texts with the same declarations. In the first one, the inner declaration is executed twice,
    by calls of the outer function. -/
def makers : List String :=
  ["fun make() { fun f() {} return f; } make(); make();", "fun make() { fun f() {} return f; }"]

/-- What arises when the texts are run one after the other. -/
def makersMoments : List Moment :=
  ({ machine := { output := {} } } : Session).moments { clock := fun _ => 0 } 16 makers

/-- The functions that arise then, one after the other. -/
def makersFunctions : List Function := makersMoments.filterMap Moment.function?

/-- What the two calls of the first `make` come to are equal functions, which stem from the same
    declaration. The two functions named `make` do not, and are not equal. -/
theorem equality_sound_makers :
    ∃ make f f' make', makersFunctions[0]? = some make ∧ makersFunctions[4]? = some f ∧
      makersFunctions[8]? = some f' ∧ makersFunctions[9]? = some make' ∧
      make.name.lexeme = "make" ∧ f.name.lexeme = "f" ∧ f'.name.lexeme = "f" ∧
      make'.name.lexeme = "make" ∧
      (Value.equal (.callable (.function f)) (.callable (.function f')) = true ∧
        ∃! o, f.StemsFrom makers o ∧ f'.StemsFrom makers o) ∧
      Value.equal (.callable (.function make)) (.callable (.function make')) = false ∧
        (∃! o, make.StemsFrom makers o) ∧ (∃! o, make'.StemsFrom makers o) ∧
          ¬ ∃ o, make.StemsFrom makers o ∧ make'.StemsFrom makers o := by
  have hfunctions : makersFunctions.map (fun f => (f.id, f.name.lexeme)) =
      [(1, "make"), (1, "make"), (0, "f"), (0, "f"), (0, "f"), (1, "make"), (0, "f"), (0, "f"),
        (0, "f"), (3, "make")] := by
    decide +kernel
  have harises (i id : Nat) (name : String)
      (h : (makersFunctions.map fun f => (f.id, f.name.lexeme))[i]? = some (id, name)) :
      ∃ f, makersFunctions[i]? = some f ∧ .value (.callable (.function f)) ∈ makersMoments ∧
        f.id = id ∧ f.name.lexeme = name := by
    rw [List.getElem?_map] at h
    obtain ⟨f, hf, hfunction⟩ := Option.map_eq_some_iff.1 h
    obtain ⟨moment, hmoment, hmade⟩ := List.mem_filterMap.1 (List.mem_of_getElem? hf)
    obtain ⟨hid, hname⟩ := Prod.mk.inj hfunction
    obtain rfl := Moment.eq_of_function? hmade
    exact ⟨f, hf, hmoment, hid, hname⟩
  obtain ⟨make, hmake, hmakeMoment, hmakeId, hmakeName⟩ :=
    harises 0 1 "make" (by rw [hfunctions]; rfl)
  obtain ⟨f, hf, hfMoment, hfId, hfName⟩ := harises 4 0 "f" (by rw [hfunctions]; rfl)
  obtain ⟨f', hf', hfMoment', hfId', hfName'⟩ := harises 8 0 "f" (by rw [hfunctions]; rfl)
  obtain ⟨make', hmake', hmakeMoment', hmakeId', hmakeName'⟩ :=
    harises 9 3 "make" (by rw [hfunctions]; rfl)
  obtain ⟨-, -, -, -, -, horigin, hequal⟩ := equality_sound { clock := fun _ => 0 } 16 {} makers
  have hsame : Value.equal (.callable (.function f)) (.callable (.function f')) = true :=
    beq_iff_eq.2 (hfId.trans hfId'.symm)
  have hother : Value.equal (.callable (.function make)) (.callable (.function make')) = false := by
    refine beq_eq_false_iff_ne.2 fun h : make.id = make'.id => ?_
    omega
  obtain ⟨o, ho, ho'⟩ := (hequal f f' hfMoment hfMoment').1 hsame
  refine ⟨make, f, f', make', hmake, hf, hf', hmake', hmakeName, hfName, hfName', hmakeName',
    ⟨hsame, o, ⟨ho, ho'⟩, fun o' h => (horigin f hfMoment).unique h.1 ho⟩, hother,
    horigin make hmakeMoment, horigin make' hmakeMoment', fun hcommon => ?_⟩
  rw [(hequal make make' hmakeMoment hmakeMoment').2 hcommon] at hother
  cases hother

end Lox
