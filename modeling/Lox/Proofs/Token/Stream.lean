import Lox.Proofs.Token.Standing
import Lox.Proofs.Token.Reading
import Lox.Token.Stream

namespace Lox

/-!
# Taking tokens from a stream

The two ways to ask a stream for a token may be mixed in any order. They share the cursor, so the
answers are the tokens of the text one after the other, whoever asks, and then its end token again
and again. Only `next?` ever declines to answer: once it has handed out the end token itself. An end
token that was pulled does not count.

* `Stream.Request` — a call of `pull` or of `next?`; `Stream.Exchange` — the call, its answer, and
  the streams before and behind it.
* `Stream.exchanges` — what becomes of a list of requests, made one after the other.
* `Cursor.next_next_of_kind_eq_eof` — at the end of the text, the cursor stays where it is.
* `Stream.answers_isPrefix` — the answers, in order.
* `Stream.ended_iff` — when `next?` has ended the stream.
* `exchanges_ofText` — all requests to the stream of a text.
-/

/-! ### The end of the text -/

/-- Behind the end token there is nothing but the end token, on the same line. -/
theorem Cursor.next_next_of_kind_eq_eof {c : Cursor} (h : c.next.1.kind = .eof) :
    c.next.2.next = c.next := by
  obtain ⟨hgap, -⟩ := gap_of_kind_eq_eof h
  have hskip := hgap.next_eq c.line
  rw [List.append_nil] at hskip
  have hend : c.next = (Token.eof (c.line + c.rest.count '\n'), ⟨[], c.line + c.rest.count '\n'⟩) :=
    hskip.trans (next_of_rest_eq_nil rfl)
  rw [hend]
  exact next_of_rest_eq_nil rfl

namespace Stream

/-! ### Requests -/

/-- The two ways to ask for a token. -/
inductive Request
  | pull
  | next
deriving DecidableEq, Repr

/-- A request that has been made. -/
structure Exchange where
  request : Request
  before : Stream
  answer : Option Token
  behind : Stream

/-- The exchange that a request leads to. -/
def exchange (s : Stream) : Request → Exchange
  | .pull => ⟨.pull, s, some s.pull.1, s.pull.2⟩
  | .next => ⟨.next, s, s.next?.1, s.next?.2⟩

/-- Requests made one after the other, each to the stream that the one before has left. -/
def exchanges (s : Stream) : List Request → List Exchange
  | [] => []
  | r :: requests => s.exchange r :: (s.exchange r).behind.exchanges requests

variable {s : Stream} {r : Request} {requests : List Request}

@[simp] theorem request_exchange : (s.exchange r).request = r := by
  cases r <;> rfl

@[simp] theorem before_exchange : (s.exchange r).before = s := by
  cases r <;> rfl

/-- The exchanges have the requests that are made, in order. -/
theorem map_request_exchanges : (s.exchanges requests).map (·.request) = requests := by
  induction requests generalizing s with
  | nil => rfl
  | cons r requests ih => rw [exchanges, List.map_cons, ih, request_exchange]

/-- Each exchange is what its request leads to in the stream before it. -/
theorem eq_exchange_of_mem {x : Exchange} (h : x ∈ s.exchanges requests) :
    x = x.before.exchange x.request := by
  induction requests generalizing s with
  | nil => exact absurd h List.not_mem_nil
  | cons r requests ih =>
    rcases List.mem_cons.1 h with rfl | h
    · rw [before_exchange, request_exchange]
    · exact ih h

/-- A stream that has not ended answers with the next token of the cursor, and ends with the end
    token. -/
theorem next?_of_not_ended (h : s.ended = false) :
    s.next? = (some s.cursor.next.1, ⟨s.cursor.next.2, s.cursor.next.1.kind == .eof⟩) := by
  simp [next?, pull, h]

/-- A request is declined, and the stream stays as it is, or the answer is the next token and the
    cursor moves behind it. -/
theorem exchange_cases (s : Stream) (r : Request) :
    (r = .next ∧ s.ended = true ∧ (s.exchange r).answer = none ∧ (s.exchange r).behind = s) ∨
      (r = .pull ∨ s.ended = false) ∧ (s.exchange r).answer = some s.cursor.next.1 ∧
        (s.exchange r).behind.cursor = s.cursor.next.2 := by
  cases r with
  | pull => exact .inr ⟨.inl rfl, rfl, rfl⟩
  | next =>
    cases h : s.ended with
    | true => exact .inl ⟨rfl, rfl, by simp [exchange, h], by simp [exchange, h]⟩
    | false =>
      refine .inr ⟨.inr rfl, ?_, ?_⟩ <;> rw [exchange, next?_of_not_ended h]

/-! ### Answers -/

/-- The answers are the words ahead, and then the end token as often as it is asked for. -/
theorem answers_isPrefix {words : List Token} {c : Cursor} (h : s.cursor.Reads words c)
    (hend : c.next.1.kind = .eof) (requests : List Request) :
    (s.exchanges requests).filterMap (·.answer) <+:
      words ++ List.replicate requests.length c.next.1 := by
  induction requests generalizing s words c with
  | nil => exact List.nil_prefix
  | cons r requests ih =>
    rw [exchanges, List.length_cons]
    rcases s.exchange_cases r with ⟨-, -, hanswer, hbehind⟩ | ⟨-, hanswer, hbehind⟩
    · rw [List.filterMap_cons_none hanswer, hbehind, List.replicate_succ', ← List.append_assoc]
      exact (ih h hend).trans (List.prefix_append _ _)
    · rw [List.filterMap_cons_some hanswer]
      cases h with
      | nil =>
        -- The end token is the answer, and it will be again.
        have hstays := Cursor.next_next_of_kind_eq_eof hend
        rw [← hbehind] at hstays
        have hrest := ih (.nil _) (by rwa [hstays])
        rw [hstays] at hrest
        rw [List.nil_append, List.replicate_succ]
        exact List.cons_prefix_cons.2 ⟨rfl, hrest⟩
      | cons hk hreads =>
        rw [← hbehind] at hreads
        rw [List.replicate_succ', List.cons_append, ← List.append_assoc]
        exact List.cons_prefix_cons.2 ⟨rfl, (ih hreads hend).trans (List.prefix_append _ _)⟩

/-- The answer number `i` is the token number `i`, or the end token when there is none. -/
theorem answer_cases {words : List Token} {c : Cursor} (h : s.cursor.Reads words c)
    (hend : c.next.1.kind = .eof) {i : Nat} {token : Token}
    (htoken : ((s.exchanges requests).filterMap (·.answer))[i]? = some token) :
    (words ++ [c.next.1])[i]? = some token ∨
      (words ++ [c.next.1]).length ≤ i ∧ token = c.next.1 := by
  obtain ⟨others, hanswers⟩ := answers_isPrefix h hend requests
  -- The answers begin with the words and go on with end tokens only.
  have hall : (words ++ List.replicate requests.length c.next.1)[i]? = some token := by
    rw [← hanswers, List.getElem?_append_left (List.getElem?_eq_some_iff.1 htoken).1, htoken]
  rcases Nat.lt_or_ge i words.length with hi | hi
  · rw [List.getElem?_append_left hi] at hall ⊢
    exact .inl hall
  · rw [List.getElem?_append_right hi] at hall
    obtain rfl := List.eq_of_mem_replicate (List.mem_of_getElem? hall)
    rcases Nat.eq_or_lt_of_le hi with rfl | hi
    · exact .inl List.getElem?_concat_length
    · exact .inr ⟨by rwa [List.length_append, List.length_singleton], rfl⟩

/-! ### Declined requests -/

/-- The end token has been handed out by `next?`. -/
def Exchange.Ends (x : Exchange) : Prop :=
  x.request = .next ∧ ∃ token, x.answer = some token ∧ token.kind = .eof

/-- A stream has ended behind an exchange just if it had ended before or ends in it. -/
theorem ended_exchange (s : Stream) (r : Request) :
    (s.exchange r).behind.ended = true ↔ s.ended = true ∨ (s.exchange r).Ends := by
  cases r with
  | pull => simp [Exchange.Ends, exchange]
  | next =>
    cases h : s.ended with
    | true => simp [exchange, h]
    | false => simp [Exchange.Ends, exchange, next?_of_not_ended h]

/-- A stream has ended exactly if `next?` has handed out the end token. -/
theorem ended_iff {earlier later : List Exchange} {x : Exchange}
    (h : s.exchanges requests = earlier ++ x :: later) :
    x.before.ended = true ↔ s.ended = true ∨ ∃ y ∈ earlier, y.Ends := by
  induction earlier generalizing s requests with
  | nil =>
    cases requests with
    | nil => cases h
    | cons r requests =>
      obtain ⟨rfl, -⟩ := List.cons.inj h
      simp
  | cons y earlier ih =>
    cases requests with
    | nil => cases h
    | cons r requests =>
      obtain ⟨rfl, hrest⟩ := List.cons.inj h
      rw [ih hrest, ended_exchange, or_assoc, List.exists_mem_cons_iff]

/-- `next?` declines to answer exactly when the stream has ended. -/
theorem answer_next_eq_none_iff (s : Stream) :
    (s.exchange .next).answer = none ↔ s.ended = true := by
  rcases s.exchange_cases .next with ⟨-, hended, hanswer, -⟩ | ⟨hgoes, hanswer, -⟩
  · simp only [hanswer, hended]
  · simp only [hanswer, hgoes.resolve_left nofun, reduceCtorEq]

/-- A request that is declined leaves the stream as it is. -/
theorem behind_of_answer_eq_none (h : (s.exchange r).answer = none) :
    (s.exchange r).behind = s := by
  rcases s.exchange_cases r with ⟨-, -, -, hbehind⟩ | ⟨-, hanswer, -⟩
  · exact hbehind
  · rw [hanswer] at h
    cases h

end Stream

/-- **Tokens on request.** Whatever requests are made to the stream of a text, and in whatever
    order: the answers are the tokens of the text in turn, and its end token, on the same line, when
    they are used up. A pull is always answered. The other request is declined exactly if one of its
    kind has been answered by the end token before, and then nothing moves. -/
theorem exchanges_ofText (source : String) (requests : List Stream.Request) :
    let exchanges := (Stream.ofText source).exchanges requests
    exchanges.map (·.request) = requests ∧
      (∀ i token, (exchanges.filterMap (·.answer))[i]? = some token →
        (scan source)[i]? = some token ∨
          (scan source).length ≤ i ∧ (scan source).getLast? = some token ∧ token.kind = .eof) ∧
      (∀ x ∈ exchanges, x.request = .pull → ∃ token, x.answer = some token) ∧
      ∀ (earlier later : List Stream.Exchange) (x : Stream.Exchange),
        exchanges = earlier ++ x :: later → x.request = .next →
          (x.answer = none ↔ ∃ y ∈ earlier, y.request = .next ∧
            ∃ token, y.answer = some token ∧ token.kind = .eof) ∧
          (x.answer = none → x.behind = x.before) := by
  intro exchanges
  refine ⟨Stream.map_request_exchanges, fun i token htoken => ?_, fun x hx hpull => ?_,
    fun earlier later x hsplit hnext => ?_⟩
  · -- The answers are those of the cursor, whichever kind of request is made.
    obtain ⟨words, c, hreads, hend, hscan⟩ := Cursor.scan_eq_append source
    rw [hscan, List.getLast?_concat]
    refine (Stream.answer_cases hreads hend htoken).imp_right ?_
    rintro ⟨hlength, rfl⟩
    exact ⟨hlength, rfl, hend⟩
  · rw [Stream.eq_exchange_of_mem hx, hpull]
    exact ⟨_, rfl⟩
  · have hx := Stream.eq_exchange_of_mem (hsplit ▸ List.mem_append_right earlier List.mem_cons_self)
    -- The stream of a text has not ended at first, so an exchange has ended it.
    have hended : x.before.ended = true ↔ ∃ y ∈ earlier, y.Ends :=
      (Stream.ended_iff hsplit).trans (or_iff_right Bool.false_ne_true)
    rw [hx, Stream.before_exchange, hnext]
    exact ⟨(Stream.answer_next_eq_none_iff _).trans hended, Stream.behind_of_answer_eq_none⟩

/-- An end token that was pulled does not end the stream, and one that ended it can still be
    pulled. -/
example : ((Stream.ofText "x // y").exchanges [.pull, .pull, .next, .next, .pull]).map
    (fun x => x.answer.map (·.kind)) =
      [some .identifier, some .eof, some .eof, none, some .eof] := by
  decide +kernel

end Lox
