import Lox.Proofs.Evaluation.Simulation
import Lox.Proofs.Evaluation.Trace

namespace Lox

/-!
# Output that stops being accepted

A program does not look at what it prints. If the sink takes only so many bytes, the program runs as
it does without that limit, up to the print that does not fit; there the run fails, and on the way
out nothing happens but that the scopes and calls entered since the start are left. Each step and
bracket keeps to this, with the trace of the unlimited run telling where the limit strikes.

* `Machine.limited`, `Machine.unwound` — a limit on the output, and the way out.
* `Run.cutShort` — how a run ends with a limit, told from the run without it.
* `Truncated` — a run ends in that way, with its lemmas for steps, sequences and brackets.
* `executeAll_limited` — whole programs, also those that never end.
-/

variable {α β : Type} {settings : Settings} {fuel : Nat} {names : List String} {c : Nat}

open Event (bytesOf Recorded)
open Run (IsFinal Keeps after moved sequel)

/-! ### Bytes and sinks -/

/-- Cutting off behind the end leaves the bytes as they are. -/
theorem extract_of_size_le {bytes : ByteArray} (h : bytes.size ≤ c) :
    bytes.extract 0 c = bytes := by
  rw [← Nat.max_eq_left h, ByteArray.extract_zero_max_size]

/-- What comes behind the first `c` bytes does not count. -/
theorem extract_append_of_le {bytes : ByteArray} (h : c ≤ bytes.size) (rest : ByteArray) :
    (bytes ++ rest).extract 0 c = bytes.extract 0 c := by
  rw [ByteArray.extract_append, Nat.zero_sub, Nat.sub_eq_zero_of_le h, ByteArray.extract_same,
    ByteArray.append_empty]

namespace Sink

variable {written bytes : ByteArray}

/-- Without a limit a sink takes all bytes. -/
theorem write_unlimited (written bytes : ByteArray) :
    write ⟨written, none⟩ bytes = (true, ⟨written ++ bytes, none⟩) := by
  simp [write, accepted]

/-- A sink takes bytes that fit as if there was no limit. -/
theorem write_of_fits (h : bytes.size ≤ c - written.size) :
    write ⟨written, some c⟩ bytes = (true, ⟨written ++ bytes, some c⟩) := by
  simp [write, accepted, extract_of_size_le h]

/-- Of bytes that do not fit, a sink takes those in front of its limit. -/
theorem write_of_beyond (hwritten : written.size ≤ c) (h : ¬ bytes.size ≤ c - written.size) :
    write ⟨written, some c⟩ bytes = (false, ⟨(written ++ bytes).extract 0 c, some c⟩) := by
  have hcut : (written ++ bytes).extract 0 c = written ++ bytes.extract 0 (c - written.size) := by
    rw [ByteArray.extract_append, extract_of_size_le hwritten, Nat.zero_sub]
  -- Fewer bytes were taken than there are, and so the sink says no.
  have hshort : ((bytes.extract 0 (c - written.size)).size == bytes.size) = false := by
    rw [beq_eq_false_iff_ne, ByteArray.size_extract]
    omega
  simp only [write, accepted, hcut, hshort]

end Sink

/-! ### The way out -/

namespace Environment

/-- The environment of which only the frames of another one are left. -/
def unwound (env reached : Environment) : Environment :=
  ⟨reached.frames.extract 0 env.depth, env.current⟩

/-- No frames have been entered yet. -/
theorem unwound_self (env : Environment) : env.unwound env = env := by
  have hframes : env.frames.extract 0 env.depth = env.frames :=
    Array.extract_eq_self_of_le (Nat.le_refl _)
  rw [unwound, hframes]

/-- Leaving a scope is one step of the way out. -/
theorem IsStack.pop_unwound_push {env reached : Environment} (h : IsStack env)
    (hframes : SameFrames env.push (env.push.unwound reached)) :
    (env.push.unwound reached).pop = env.unwound reached := by
  -- The scope that is left is not the global one.
  have hinner : env.depth ≠ 0 := by
    have := h.current_add_one
    omega
  have hsize : env.depth < reached.frames.size := by
    have hdepth : (reached.frames.extract 0 env.push.depth).size = env.push.depth := hframes.depth
    rw [Array.size_extract, depth_push] at hdepth
    omega
  -- Its frame is the last one that is kept.
  have hpushed : (env.push.unwound reached).frames =
      (reached.frames.extract 0 env.depth).push reached.frames[env.depth] := by
    rw [unwound, depth_push, Array.extract_succ_right (Nat.zero_lt_succ _) hsize]
  -- The scope that is left lies in the one that is current outside.
  have hparent : reached.frames[env.depth].parent = some env.current := by
    have houter : env.depth = (reached.frames.extract 0 env.depth).size := by
      rw [Array.size_extract]
      omega
    have hlast : env.push.frames[env.depth]? = some { parent := some env.current } :=
      Array.getElem?_push_size
    have hsame := hframes.parent env.depth
    rw [hpushed, Array.getElem?_push, if_pos houter, hlast] at hsame
    exact Option.some.inj hsame
  have hcurrent : (env.push.unwound reached).current = env.depth := rfl
  rw [Environment.pop, hcurrent, if_neg hinner, hpushed, Array.back?_push]
  simp only [hparent, Array.pop_push, Option.getD_some, unwound]

end Environment

namespace Machine

/-- The machine with a sink that takes `c` bytes in all. -/
def limited (m : Machine) (c : Nat) : Machine :=
  { m with output := { m.output with capacity := some c } }

/-- The machine on which a run ends that was started on `m` and fails at `reached`: the frames and
    calls entered since then are left. -/
def unwound (m reached : Machine) : Machine :=
  { reached with env := m.env.unwound reached.env, depth := m.depth }

/-- Nothing has been entered yet. -/
theorem unwound_self (m : Machine) : m.unwound m = m := by
  rw [unwound, Environment.unwound_self]

/-- Only where a machine stands matters. -/
theorem unwound_eq {m m' : Machine} (h : m.Restored m') (reached : Machine) :
    m'.unwound reached = m.unwound reached := by
  simp only [unwound, Environment.unwound, h.sameFrames.depth, h.sameFrames.current, h.depth]

/-- A machine on which the output is not limited and has at most `c` bytes. -/
structure HasRoom (c : Nat) (m : Machine) : Prop where
  isStack : m.env.IsStack
  unlimited : m.output.capacity = none
  size_le : m.output.written.size ≤ c

end Machine

/-! ### How a limit cuts a run short -/

/-- How a run ends on a machine with a limit, told from the run without it: in the same way, or at
    the first print that does not fit. -/
def Run.cutShort (c : Nat) (r : Run α) (m : Machine) :
    Option Event → EStateM.Result Stop Machine α
  | none => moved (·.limited c) (r m)
  | some e =>
    .error (.failed ⟨e.token, .output Sink.closed⟩)
      { m.unwound e.machine with output := ⟨(after r m).output.written.extract 0 c, some c⟩ }

open Run (cutShort)

/-- The trace tells what a run writes, and where a limit of `c` bytes cuts it short. -/
structure Truncated (c : Nat) (t : Machine → List Event) (r : Run α) : Prop where
  writes {m : Machine} : m.output.capacity = none →
    (after r m).output = ⟨m.output.written ++ bytesOf (t m), none⟩
  recorded {m : Machine} : m.output.capacity = none → Recorded m.output.written (t m)
  limited {m : Machine} : m.HasRoom c →
    r (m.limited c) = cutShort c r m (firstBeyond (c - m.output.written.size) (t m))

/-! ### Steps that write nothing -/

/-- The run does not look at the output and leaves it as it is. -/
def Run.Quiet (r : Run α) : Prop :=
  ∀ (m : Machine) (output : Sink), r { m with output } = moved (fun n => { n with output }) (r m)

namespace Run.Quiet

theorem pure (a : α) : Quiet (Pure.pure a : Run α) := fun _ _ => rfl

theorem fail (e : RuntimeError) : Quiet (Run.fail e : Run α) := fun _ _ => rfl

theorem exhausted : Quiet (Run.exhausted : Run α) := fun _ _ => rfl

/-- A value or an error that is given does not depend on the output. -/
theorem ofExcept (x : Except RuntimeError α) : Quiet (Run.ofExcept x) := by
  cases x with
  | ok a => exact pure a
  | error e => exact fail e

/-- A sequence is quiet where both parts are. -/
theorem bind {r : Run α} {f : α → Run β} (h : Quiet r) (hf : ∀ a, Quiet (f a)) :
    Quiet (r >>= f) := by
  intro m output
  rw [bind_eq, bind_eq, h m output]
  cases r m with
  | ok a n => exact hf a n output
  | error stop n => rfl

theorem ite {p : Prop} [Decidable p] {r r' : Run α} (h : Quiet r) (h' : Quiet r') :
    Quiet (if p then r else r') := by
  by_cases hp : p
  · rwa [if_pos hp]
  · rwa [if_neg hp]

theorem get (name : Token) : Quiet (Run.get name) :=
  fun m output => ofExcept (m.env.get name) m output

/-- An assignment is quiet, whether it finds the name or not. -/
theorem assign (name : Token) (value : Value) : Quiet (Run.assign name value) := by
  intro m output
  show (Run.ofExcept (m.env.assign name value) >>= _) { m with output } =
    moved _ ((Run.ofExcept (m.env.assign name value) >>= _) m)
  exact (ofExcept (m.env.assign name value)).bind (fun env n output => rfl) m output

/-- A definition is quiet. -/
theorem define (name : Token) (value : Value) : Quiet (Run.define name value) := fun _ _ => rfl

/-- Binding parameters is a sequence of definitions. -/
theorem defineAll (names : List Token) (values : List Value) :
    Quiet (Run.defineAll names values) := by
  induction names generalizing values with
  | nil => exact pure ()
  | cons name names ih =>
    cases values with
    | nil => exact pure ()
    | cons value values => exact (define name value).bind fun _ => ih values

/-- Native functions do not print. -/
theorem callNative (n : Native) (paren : Token) (arguments : List Value) :
    Quiet (callNative settings n paren arguments) := by
  unfold Lox.callNative
  split
  · exact bind (fun _ _ => rfl) fun seconds => ofExcept _
  · exact ite (fun _ _ => rfl) (fail _)
  · exact pure _
  · exact fail _

/-- Setting the output to what it is changes nothing, so it is the same at the end. -/
theorem output_after {r : Run α} (h : Quiet r) (m : Machine) :
    (after r m).output = m.output := by
  have hsame : r m = moved (fun n => { n with output := m.output }) (r m) := h m m.output
  unfold after
  generalize r m = x at hsame
  cases x with
  | ok a n =>
    have hn : n = { n with output := m.output } := (EStateM.Result.ok.inj hsame).2
    show n.output = m.output
    rw [hn]
  | error stop n =>
    have hn : n = { n with output := m.output } := (EStateM.Result.error.inj hsame).2
    show n.output = m.output
    rw [hn]

end Run.Quiet

/-! ### Steps, sequences and brackets -/

namespace Run

/-- What the sink says of the bytes decides how a print ends. -/
theorem print_eq (keyword : Token) (value : Value) (m : Machine) {b : Bool} {output : Sink}
    (h : m.output.write (Event.print keyword value m).bytes = (b, output)) :
    Run.print keyword value m =
      if b then .ok () { m with output }
      else .error (.failed ⟨keyword, .output Sink.closed⟩) { m with output } := by
  show (if (m.output.write (Event.print keyword value m).bytes).1 then Pure.pure () else _ :
    Run Unit) { m with output := (m.output.write (Event.print keyword value m).bytes).2 } = _
  rw [h]
  cases b <;> rfl

end Run

namespace Truncated

variable {t : Machine → List Event} {r : Run α}

/-- The trace may be written in another way. -/
theorem congr {t' : Machine → List Event} (h : Truncated c t r) (ht : ∀ m, t m = t' m) :
    Truncated c t' r := by
  rwa [← funext ht]

/-- A quiet run is the same under the limit, and its trace is empty. -/
theorem of_quiet (h : r.Quiet) : Truncated c (fun _ => []) r where
  writes {m} hm := by
    have hwritten : m.output = ⟨m.output.written, none⟩ := by rw [← hm]
    rw [h.output_after, show bytesOf [] = ByteArray.empty from rfl, ByteArray.append_empty]
    exact hwritten
  recorded _ := trivial
  limited {m} hm := by
    -- Without a print, the output behind the run is that in front of it, with the limit or without.
    have houtput := h.output_after m
    show r { m with output := (m.limited c).output } = moved (·.limited c) (r m)
    rw [h m]
    cases hr : r m with
    | ok a n =>
      rw [Run.after_eq_of_ok hr] at houtput
      simp [moved, Machine.limited, houtput]
    | error stop n =>
      rw [Run.after_eq_of_error hr] at houtput
      simp [moved, Machine.limited, houtput]

/-- A print is the one step at which the limit can strike. -/
theorem print (keyword : Token) (value : Value) :
    Truncated c (fun m => [.print keyword value m]) (Run.print keyword value) := by
  have hsink {m : Machine} (hm : m.output.capacity = none) :
      m.output = ⟨m.output.written, none⟩ := by rw [← hm]
  -- Without a limit all bytes are written.
  have hunlimited {m : Machine} (hm : m.output.capacity = none) :
      Run.print keyword value m = .ok () { m with
        output := ⟨m.output.written ++ (Event.print keyword value m).bytes, none⟩ } := by
    refine Run.print_eq keyword value m (b := true) ?_
    rw [hsink hm, Sink.write_unlimited]
  refine ⟨fun {m} hm => ?_, fun {m} hm => ⟨hsink hm, trivial⟩, fun {m} hm => ?_⟩
  · rw [Run.after_eq_of_ok (hunlimited hm), bytesOf, bytesOf, ByteArray.append_empty]
  · -- With a limit, either all bytes fit or the print is the first one beyond it.
    rw [firstBeyond]
    split
    · next hfits =>
      -- The sink with the limit takes the same bytes.
      show Run.print keyword value (m.limited c) = moved _ (Run.print keyword value m)
      rw [hunlimited hm.unlimited]
      exact Run.print_eq keyword value (m.limited c) (Sink.write_of_fits hfits)
    · next hbeyond =>
      rw [cutShort, Run.after_eq_of_ok (hunlimited hm.unlimited)]
      rw [show (Event.print keyword value m).machine = m from rfl, Machine.unwound_self]
      exact Run.print_eq keyword value (m.limited c) (Sink.write_of_beyond hm.size_le hbeyond)

/-- The machine behind a run still has room, if all that the run writes fits. -/
theorem hasRoom (h : Truncated c t r) (hk : Keeps names r) {m : Machine} (hm : m.HasRoom c)
    (hfits : firstBeyond (c - m.output.written.size) (t m) = none) : (after r m).HasRoom c where
  isStack := (hk m hm.isStack).isStack
  unlimited := by rw [h.writes hm.unlimited]
  size_le := by
    have hle := hm.size_le
    -- What fits was written in full, so the limit is not passed.
    have hsize := firstBeyond_eq_none.1 hfits
    rw [h.writes hm.unlimited, ByteArray.size_append]
    omega

/-- What a sequence writes is what its parts write. -/
theorem writes_bind {t' : α → Machine → List Event} {f : α → Run β} (h : Truncated c t r)
    (hf : ∀ a, Truncated c (t' a) (f a)) {m : Machine} (hm : m.output.capacity = none) :
    (after (r >>= f) m).output =
      ⟨(after r m).output.written ++ bytesOf (sequel (r m) t'), none⟩ := by
  have hfirst := h.writes hm
  rw [Run.after_bind]
  cases hr : r m with
  | ok a n =>
    rw [Run.after_eq_of_ok hr] at hfirst ⊢
    have hn : n.output.capacity = none := by rw [hfirst]
    exact (hf a).writes hn
  | error stop n =>
    rw [Run.after_eq_of_error hr] at hfirst ⊢
    show n.output = ⟨n.output.written ++ ByteArray.empty, none⟩
    rw [ByteArray.append_empty, hfirst]

/-- A sequence is cut short in its first part, or in its second part with the room that is left. -/
theorem bind {t' : α → Machine → List Event} {f : α → Run β} (h : Truncated c t r)
    (hk : Keeps names r) (hf : ∀ a, Truncated c (t' a) (f a)) :
    Truncated c (fun m => t m ++ sequel (r m) t') (r >>= f) where
  -- The trace of the second part starts where the first one ends.
  writes {m} hm := by
    rw [h.writes_bind hf hm, h.writes hm, ByteArray.append_assoc, Event.bytesOf_append]
  recorded {m} hm := by
    have hfirst := h.writes hm
    refine Event.recorded_append.2 ⟨h.recorded hm, ?_⟩
    cases hr : r m with
    | ok a n =>
      rw [Run.after_eq_of_ok hr] at hfirst
      have hrest := (hf a).recorded (m := n) (by rw [hfirst])
      rwa [hfirst] at hrest
    | error stop n => trivial
  limited {m} hm := by
    have hwrites := h.writes_bind hf hm.unlimited
    have hsize : (after r m).output.written.size =
        m.output.written.size + (bytesOf (t m)).size := by
      rw [h.writes hm.unlimited, ByteArray.size_append]
    rw [Run.bind_eq, h.limited hm]
    cases hfirst : firstBeyond (c - m.output.written.size) (t m) with
    | some e =>
      -- The first part is cut short, and what the second one would write is beyond the limit.
      have hbeyond : c ≤ (after r m).output.written.size := by
        have hnot : ¬ (bytesOf (t m)).size ≤ c - m.output.written.size := fun hle => by
          rw [firstBeyond_eq_none.2 hle] at hfirst
          cases hfirst
        omega
      rw [firstBeyond_append_of_some hfirst, cutShort, cutShort, hwrites,
        extract_append_of_le hbeyond]
    | none =>
      -- The second part starts with the room that the first one has left.
      have hroom := h.hasRoom hk hm hfirst
      have hrestored := (hk m hm.isStack).restored
      have hcut : cutShort c r m none = moved (·.limited c) (r m) := rfl
      rw [firstBeyond_append hfirst, hcut]
      cases hr : r m with
      | ok a n =>
        rw [Run.after_eq_of_ok hr] at hroom hrestored hsize
        have hafter : after (r >>= f) m = after (f a) n := by rw [Run.after_bind, hr]
        have hrest : c - m.output.written.size - (bytesOf (t m)).size =
            c - n.output.written.size := by omega
        show f a (n.limited c) = _
        rw [(hf a).limited hroom, hrest]
        -- It starts in the same scopes and calls, so the way out is the same.
        unfold cutShort
        rw [hafter, Run.bind_eq, hr]
        simp only [sequel, Machine.unwound_eq hrestored]
      | error stop n =>
        show _ = moved _ ((r >>= f) m)
        rw [Run.bind_eq, hr]
        rfl

/-- What follows writes nothing. -/
theorem bind_quiet {f : α → Run β} (h : Truncated c t r) (hk : Keeps names r)
    (hf : ∀ a, (f a).Quiet) : Truncated c t (r >>= f) := by
  refine (h.bind hk fun a => of_quiet (hf a)).congr fun m => ?_
  cases hr : r m <;> simp [sequel]

/-- A choice between two runs. -/
theorem ite {p : Prop} [Decidable p] {t' : Machine → List Event} {r' : Run α}
    (h : Truncated c t r) (h' : Truncated c t' r') :
    Truncated c (fun m => if p then t m else t' m) (if p then r else r') := by
  by_cases hp : p
  · simpa only [if_pos hp] using h
  · simpa only [if_neg hp] using h'

/-- A choice by a test of the machine that does not look at the output. -/
theorem ite_get {p : Machine → Prop} [DecidablePred p] {t' : Machine → List Event} {r' : Run α}
    (hp : ∀ m output, p { m with output } ↔ p m) (h : Truncated c t r) (h' : Truncated c t' r') :
    Truncated c (fun m => if p m then t m else t' m)
      (MonadState.get >>= fun m => if p m then r else r') where
  writes {m} hm := (h.ite (p := p m) h').writes hm
  recorded {m} hm := (h.ite (p := p m) h').recorded hm
  limited {m} hm := by
    have hsame : p (m.limited c) ↔ p m := hp m _
    have hchoice := (h.ite (p := p m) h').limited hm
    show (if p (m.limited c) then r else r') (m.limited c) = _
    simp only [hsame]
    exact hchoice

/-- A call writes nothing by itself. -/
theorem cons_call (f : Function) (paren : Token) (arguments : List Value) (h : Truncated c t r) :
    Truncated c (fun m => .call f paren arguments m :: t m) r where
  writes {m} hm := by
    rw [h.writes hm, bytesOf, Event.bytes, ByteArray.empty_append]
  recorded {m} hm := by
    refine ⟨show m.output = ⟨m.output.written, none⟩ by rw [← hm], ?_⟩
    rw [Event.bytes, ByteArray.append_empty]
    exact h.recorded hm
  limited {m} hm := h.limited hm

/-- A bracket around the run that is cut short, if leaving it is one step of the way out. -/
theorem moved_cutShort {u : Run α} {leave : Machine → Machine} {m inside : Machine}
    (hu : u m = moved leave (r inside))
    (hleave : ∀ n output, leave { n with output } = { leave n with output }) {cut : Option Event}
    (hout : ∀ e ∈ cut, leave (inside.unwound e.machine) = m.unwound e.machine) :
    moved leave (cutShort c r inside cut) = cutShort c u m cut := by
  -- Leaving the bracket does not look at the output.
  have houtput (n : Machine) : (leave n).output = n.output := by
    rw [show leave n = { leave n with output := n.output } from hleave n n.output]
  cases cut with
  | none =>
    have hlimited (n : Machine) : leave (n.limited c) = (leave n).limited c := by
      rw [Machine.limited, Machine.limited, hleave, houtput]
    rw [cutShort, cutShort, hu]
    cases r inside with
    | ok a n => simp only [moved, hlimited]
    | error stop n => simp only [moved, hlimited]
  -- Where the run is cut short, leaving the bracket is the next step of unwinding.
  | some e =>
    have hafter : (after u m).output = (after r inside).output := by
      unfold after
      rw [hu]
      cases r inside with
      | ok a n => exact houtput n
      | error stop n => exact houtput n
    rw [cutShort, cutShort, moved, hleave, hout e rfl, hafter]

/-- A scope that is cut short is left as on the way out. -/
theorem inNewFrame (h : Truncated c t r) (hk : Keeps names r) :
    Truncated c (fun m => t { m with env := m.env.push }) (Run.inNewFrame r) where
  writes {m} hm := by
    rw [Run.after_inNewFrame]
    exact h.writes (m := { m with env := m.env.push }) hm
  recorded {m} hm := h.recorded (m := { m with env := m.env.push }) hm
  limited {m} hm := by
    let inside : Machine := { m with env := m.env.push }
    have hinside := h.limited (m := inside) ⟨hm.isStack.push, hm.unlimited, hm.size_le⟩
    -- The frames outside are those of the start, so the pop leads back to them.
    have hkept := (hk (inside.limited c) hm.isStack.push).restored
    rw [Run.inNewFrame_eq]
    refine (congrArg (moved _) hinside).trans
      (moved_cutShort (Run.inNewFrame_eq r m) (fun _ _ => rfl) fun e he => ?_)
    rw [Option.mem_def.1 he] at hinside
    rw [Run.after_eq_of_error hinside] at hkept
    have hpop : (inside.unwound e.machine).env.pop = (m.unwound e.machine).env :=
      hm.isStack.pop_unwound_push hkept.sameFrames
    show { inside.unwound e.machine with env := (inside.unwound e.machine).env.pop } = _
    rw [hpop]
    rfl

/-- A call that is cut short is left as on the way out. -/
theorem inCall (h : Truncated c t r) :
    Truncated c (fun m => t { m with depth := m.depth + 1 }) (Run.inCall r) where
  writes {m} hm := by
    rw [Run.after_inCall]
    exact h.writes (m := { m with depth := m.depth + 1 }) hm
  recorded {m} hm := h.recorded (m := { m with depth := m.depth + 1 }) hm
  limited {m} hm := by
    have hinside := h.limited (m := { m with depth := m.depth + 1 })
      ⟨hm.isStack, hm.unlimited, hm.size_le⟩
    rw [Run.inCall_eq]
    exact (congrArg (moved _) hinside).trans
      (moved_cutShort (Run.inCall_eq r m) (fun _ _ => rfl) fun _ _ => rfl)

end Truncated

/-! ### Programs -/

/-- With some fuel, all runs are cut short as their traces tell. -/
structure TruncatedAll (c : Nat) (settings : Settings) (fuel : Nat) : Prop where
  evaluate (e : Expr) : Truncated c (evaluateTrace settings fuel e) (evaluate settings fuel e)
  evaluateAll (es : List Expr) :
    Truncated c (evaluateAllTrace settings fuel es) (evaluateAll settings fuel es)
  call (callee : Value) (paren : Token) (arguments : List Value) :
    Truncated c (callTrace settings fuel callee paren arguments)
      (call settings fuel callee paren arguments)
  execute (s : Stmt Nat) : Truncated c (executeTrace settings fuel s) (execute settings fuel s)
  executeBlock (body : List (Stmt Nat)) :
    Truncated c (executeBlockTrace settings fuel body) (executeBlock settings fuel body)
  loop (condition : Expr) (body : Stmt Nat) :
    Truncated c (loopTrace settings fuel condition body) (loop settings fuel condition body)

/-- Without fuel nothing is written. -/
theorem truncatedAll_zero : TruncatedAll c settings 0 where
  evaluate _ := .of_quiet .exhausted
  evaluateAll _ := .of_quiet .exhausted
  call _ _ _ := .of_quiet .exhausted
  execute _ := .of_quiet .exhausted
  executeBlock _ := .of_quiet .exhausted
  loop _ _ := .of_quiet .exhausted

namespace TruncatedAll

variable (h : TruncatedAll c settings fuel)

include h

/-- One level of evaluation, with one case for each kind of expression. -/
theorem evaluate_succ (e : Expr) :
    Truncated c (evaluateTrace settings (fuel + 1) e) (Lox.evaluate settings (fuel + 1) e) := by
  have hk := keepsAll settings fuel
  cases e with
  | constant k => exact .of_quiet (.pure _)
  | group e => exact h.evaluate e
  | name name => exact .of_quiet (.get name)
  | assign name e =>
    exact (h.evaluate e).bind_quiet (hk.evaluate e) fun value =>
      (Run.Quiet.assign name value).bind fun _ => .pure value
  | unary op e => exact (h.evaluate e).bind_quiet (hk.evaluate e) fun operand => .ofExcept _
  | binary l op r =>
    exact (h.evaluate l).bind (hk.evaluate l) fun left =>
      (h.evaluate r).bind_quiet (hk.evaluate r) fun right => .ofExcept _
  | logical l op r =>
    refine (h.evaluate l).bind (hk.evaluate l) fun left => ?_
    cases left.decides? op with
    | none => exact .of_quiet (.fail _)
    | some decided =>
      cases decided with
      | true => exact .of_quiet (.pure left)
      | false => exact h.evaluate r
  | call callee paren arguments =>
    exact (h.evaluate callee).bind (hk.evaluate callee) fun callee =>
      (h.evaluateAll arguments).bind (hk.evaluateAll arguments) fun arguments =>
        h.call callee paren arguments

/-- A list of expressions is evaluated one by one. -/
theorem evaluateAll_succ (es : List Expr) :
    Truncated c (evaluateAllTrace settings (fuel + 1) es)
      (Lox.evaluateAll settings (fuel + 1) es) := by
  have hk := keepsAll settings fuel
  cases es with
  | nil => exact .of_quiet (.pure [])
  | cons e es =>
    exact (h.evaluate e).bind (hk.evaluate e) fun value =>
      (h.evaluateAll es).bind_quiet (hk.evaluateAll es) fun values => .pure _

/-- A call writes what its body writes. -/
theorem call_succ (callee : Value) (paren : Token) (arguments : List Value) :
    Truncated c (callTrace settings (fuel + 1) callee paren arguments)
      (Lox.call settings (fuel + 1) callee paren arguments) := by
  cases callee with
  | callable callee =>
    cases callee with
    | native n =>
      -- Native functions do not print, and no event stands for their calls.
      refine .of_quiet ?_
      exact .ite (.fail _) (.callNative n paren arguments)
    | function f =>
      refine .ite (.of_quiet (.fail _)) ?_
      refine .cons_call f paren arguments ?_
      refine .ite_get (fun _ _ => Iff.rfl) (.of_quiet (.fail _)) ?_
      -- The body runs with one more call open and in a scope of its own; both are left again.
      have hk := (keepsAll settings fuel).callBody f arguments
      have hbody := (Truncated.of_quiet (.defineAll f.parameters arguments)).bind
        (Run.keeps_defineAll f.parameters arguments) fun _ => h.executeBlock f.body
      exact (hbody.inNewFrame hk).inCall.bind_quiet (.inCall (.inNewFrame hk)) fun flow => .pure _
  | _ => exact .of_quiet (.fail _)

/-- One level of execution, with one case for each kind of statement. -/
theorem execute_succ (s : Stmt Nat) :
    Truncated c (executeTrace settings (fuel + 1) s) (Lox.execute settings (fuel + 1) s) := by
  have hk := keepsAll settings fuel
  cases s with
  | expression e => exact (h.evaluate e).bind_quiet (hk.evaluate e) fun _ => .pure _
  | print keyword e =>
    refine (h.evaluate e).bind (hk.evaluate e) fun value => ?_
    have hprint : Keeps [] (Run.print keyword value) := Run.keeps_print keyword value
    exact (Truncated.print keyword value).bind_quiet hprint fun _ => .pure _
  | «variable» name e =>
    exact (h.evaluate e).bind_quiet (hk.evaluate e) fun value =>
      (Run.Quiet.define name value).bind fun _ => .pure _
  | function id name parameters body =>
    exact .of_quiet ((Run.Quiet.define name _).bind fun _ => .pure _)
  | block body => exact (h.executeBlock body).inNewFrame (hk.executeBlock body)
  | ifThen condition yes =>
    exact (h.evaluate condition).bind (hk.evaluate condition) fun value =>
      (h.execute yes).ite (.of_quiet (.pure _))
  | ifElse condition yes no =>
    exact (h.evaluate condition).bind (hk.evaluate condition) fun value =>
      (h.execute yes).ite (h.execute no)
  | «while» condition body => exact h.loop condition body
  | «return» keyword e => exact (h.evaluate e).bind_quiet (hk.evaluate e) fun value => .pure _

/-- A block of statements stops at the first `return`. -/
theorem executeBlock_succ (body : List (Stmt Nat)) :
    Truncated c (executeBlockTrace settings (fuel + 1) body)
      (Lox.executeBlock settings (fuel + 1) body) := by
  cases body with
  | nil => exact .of_quiet (.pure _)
  | cons s rest =>
    refine (h.execute s).bind ((keepsAll settings fuel).execute s) fun flow => ?_
    cases flow with
    | «return» value => exact .of_quiet (.pure _)
    | normal => exact h.executeBlock rest

/-- A turn of a loop is its condition, its body and the loop that is left. -/
theorem loop_succ (condition : Expr) (body : Stmt Nat) :
    Truncated c (loopTrace settings (fuel + 1) condition body)
      (Lox.loop settings (fuel + 1) condition body) := by
  have hk := keepsAll settings fuel
  refine (h.evaluate condition).bind (hk.evaluate condition) fun value =>
    .ite ?_ (.of_quiet (.pure _))
  refine (h.execute body).bind (hk.execute body) fun flow => ?_
  cases flow with
  | «return» value => exact .of_quiet (.pure _)
  | normal => exact h.loop condition body

end TruncatedAll

/-- All runs are cut short as their traces tell, whatever the fuel. -/
theorem truncatedAll (c : Nat) (settings : Settings) (fuel : Nat) :
    TruncatedAll c settings fuel := by
  induction fuel with
  | zero => exact truncatedAll_zero
  | succ fuel ih =>
    exact ⟨ih.evaluate_succ, ih.evaluateAll_succ, ih.call_succ, ih.execute_succ,
      ih.executeBlock_succ, ih.loop_succ⟩

/-- Programs are cut short as their traces tell. -/
theorem truncated_executeAll (c : Nat) (settings : Settings) (fuel : Nat)
    (program : List (Stmt Nat)) :
    Truncated c (executeAllTrace settings fuel program) (executeAll settings fuel program) := by
  induction program with
  | nil => exact .of_quiet (.pure ())
  | cons s rest ih =>
    exact ((truncatedAll c settings fuel).execute s).bind ((keepsAll settings fuel).execute s)
      fun _ => ih

/-- **A sink that stops accepting output cuts a run short and does nothing else.** A run that ends
    with at most `n` more bytes of output ends in the same way with a sink that takes just these.
    If a run, be it one that never ends, writes more, it ends with such a sink: at the first print
    that does not fit, with the first bytes of the output, in the scopes and calls that it started
    in, and with the bindings and the time that it had reached at that print without the limit. -/
theorem executeAll_limited {m : Machine} (hm : m.env.Reachable)
    (hunlimited : m.output.capacity = none) (settings : Settings) (program : List (Stmt Nat))
    (n fuel : Nat) :
    let run fuel := executeAll settings fuel program
    let c := m.output.written.size + n
    let written := (after (run fuel) m).output.written
    (IsFinal (run fuel m) → written.size ≤ c →
      Terminates run (m.limited c) (moved (·.limited c) (run fuel m))) ∧
    (c < written.size → ∃ before keyword value reached rest final,
      executeAllTrace settings fuel program m = before ++ .print keyword value reached :: rest ∧
      reached.output = ⟨m.output.written ++ bytesOf before, none⟩ ∧
      reached.output.written.size ≤ c ∧
      c < reached.output.written.size + (value.text ++ "\n").toUTF8.size ∧
      Terminates run (m.limited c) (.error (.failed ⟨keyword, .output Sink.closed⟩) final) ∧
      final.output.written = written.extract 0 c ∧
      m.Restored final ∧ final.env.frames = reached.env.frames.extract 0 m.env.depth ∧
      final.readings = reached.readings ∧ final.paused = reached.paused) := by
  intro run c written
  have hroom : m.HasRoom c := ⟨hm.isStack, hunlimited, Nat.le_add_right _ n⟩
  have htruncated := truncated_executeAll c settings fuel program
  have hlimited : run fuel (m.limited c) = cutShort c (run fuel) m _ := htruncated.limited hroom
  have hsize : written.size =
      m.output.written.size + (bytesOf (executeAllTrace settings fuel program m)).size := by
    rw [show written = _ from congrArg Sink.written (htruncated.writes hunlimited),
      ByteArray.size_append]
  refine ⟨fun hfinal hle => ?_, fun hlt => ?_⟩
  · -- All of the output fits, so no print is beyond the limit.
    rw [firstBeyond_eq_none.2 (by omega)] at hlimited
    exact ⟨Run.isFinal_moved.2 hfinal, fuel, hlimited⟩
  · -- Some print is the first one beyond the limit, as the output is longer.
    cases hbeyond : firstBeyond (c - m.output.written.size)
        (executeAllTrace settings fuel program m) with
    | none =>
      have hfits := firstBeyond_eq_none.1 hbeyond
      omega
    | some e =>
      rw [hbeyond] at hlimited
      obtain ⟨before, keyword, value, reached, rest, rfl, htrace, houtput, hfits, hover⟩ :=
        exists_of_firstBeyond (htruncated.recorded hunlimited) hroom.size_le hbeyond
      -- However the limited run ends, the scopes and calls are those of the start.
      have hkept := (keeps_executeAll settings fuel program (m.limited c) hm.isStack).restored
      rw [Run.after_eq_of_error hlimited] at hkept
      exact ⟨before, keyword, value, reached, rest, _, htrace, houtput, hfits, hover,
        ⟨trivial, fuel, hlimited⟩, rfl, ⟨hkept.sameFrames, hkept.depth⟩, rfl, rfl, rfl⟩

/-- The program `fun f() { print "ab"; } while (true) f();`. -/
def endlessPrints : List (Stmt Nat) :=
  let word (kind : Token.Kind) (lexeme : String) : Token := { kind, lexeme, line := 1 }
  let name : Token := word .identifier "f"
  [.function 0 name [] [.print (word Keyword.print_ "print") (.constant (.string "ab"))],
    .while (.constant (.bool true))
      (.expression (.call (.name name) (word Symbol.rightParen ")") []))]

/-- With a sink that takes four bytes, the second call fails in the middle of its print. -/
theorem limited_endlessPrints :
    Environment.global.Reachable ∧ ({} : Machine).output.capacity = none ∧
      ∃ keyword final,
        Terminates (fun fuel => executeAll { clock := fun _ => 0 } fuel endlessPrints)
          (({} : Machine).limited 4) (.error (.failed ⟨keyword, .output Sink.closed⟩) final) ∧
        final.output.written = "ab\na".toUTF8 ∧ ({} : Machine).Restored final := by
  have hreachable : ({} : Machine).env.Reachable := Environment.reachable_global
  obtain ⟨-, keyword, -, -, -, final, -, -, -, -, hends, hwritten, hrestored, -⟩ :=
    (executeAll_limited hreachable rfl { clock := fun _ => 0 } endlessPrints 4 12).2
      (by decide +kernel)
  refine ⟨hreachable, rfl, keyword, final, hends, ?_, hrestored⟩
  rw [hwritten]
  decide +kernel

end Lox
