import Mathlib.Data.List.Forall2
import Lox.Proofs.Grammar.Relabelling
import Lox.Proofs.Syntax.Place

namespace Lox

/-!
# Trees that match up to their tokens

Two trees match if they have the same shape and the same constants, and the tokens at each place
correspond to each other. What corresponds to what is a parameter, and so is what functions have to
fulfil besides. Corresponding tokens have the same kind and the same spelling; that is all of them
that a run can notice.

* `Correspondence` — tokens, each at its place, and functions that correspond to each other.
* `Expr.Matches`, `Stmt.Matches` — trees that match.
* `Stmt.matches_relabel` — a tree matches itself with other tokens at each place.
* `Stmt.relabel_eq_self_iff` — when other tokens change nothing.
* `Stmt.number_relabel` — functions get the same numbers, whatever their tokens.
-/

/-- What corresponds to what in two programs that are the same but for some of their tokens. -/
structure Correspondence where
  token : Place → Token → Token → Prop
  /-- What functions fulfil beyond having trees that match. -/
  function : Function → Function → Prop
  kind_eq {place : Place} {t t' : Token} : token place t t' → t.kind = t'.kind
  lexeme_eq {place : Place} {t t' : Token} : token place t t' → t.lexeme = t'.lexeme

variable {ι : Type} {C : Correspondence}

mutual

/-- Expressions with corresponding tokens. -/
inductive Expr.Matches (C : Correspondence) : Expr → Expr → Prop
  | constant (c : Constant) : Expr.Matches C (.constant c) (.constant c)
  | group {e e' : Expr} : Expr.Matches C e e' → Expr.Matches C (.group e) (.group e')
  | unary {op op' : Token} {e e' : Expr} : C.token .unary op op' → Expr.Matches C e e' →
      Expr.Matches C (.unary op e) (.unary op' e')
  | binary {l l' r r' : Expr} {op op' : Token} : C.token .binary op op' → Expr.Matches C l l' →
      Expr.Matches C r r' → Expr.Matches C (.binary l op r) (.binary l' op' r')
  | logical {l l' r r' : Expr} {op op' : Token} : C.token .logical op op' →
      Expr.Matches C l l' → Expr.Matches C r r' →
      Expr.Matches C (.logical l op r) (.logical l' op' r')
  | name {n n' : Token} : C.token .variable n n' → Expr.Matches C (.name n) (.name n')
  | assign {n n' : Token} {e e' : Expr} : C.token .variable n n' → Expr.Matches C e e' →
      Expr.Matches C (.assign n e) (.assign n' e')
  | call {callee callee' : Expr} {paren paren' : Token} {arguments arguments' : List Expr} :
      C.token .call paren paren' → Expr.Matches C callee callee' →
      Expr.MatchesAll C arguments arguments' →
      Expr.Matches C (.call callee paren arguments) (.call callee' paren' arguments')

/-- Lists of expressions that match one by one. -/
inductive Expr.MatchesAll (C : Correspondence) : List Expr → List Expr → Prop
  | nil : Expr.MatchesAll C [] []
  | cons {e e' : Expr} {es es' : List Expr} : Expr.Matches C e e' → Expr.MatchesAll C es es' →
      Expr.MatchesAll C (e :: es) (e' :: es')

end

mutual

/-- Statements with corresponding tokens and corresponding functions. -/
inductive Stmt.Matches (C : Correspondence) : Stmt Nat → Stmt Nat → Prop
  | expression {e e' : Expr} : e.Matches C e' →
      Stmt.Matches C (.expression e) (.expression e')
  | print {keyword keyword' : Token} {e e' : Expr} : C.token .print keyword keyword' →
      e.Matches C e' → Stmt.Matches C (.print keyword e) (.print keyword' e')
  | variable {n n' : Token} {e e' : Expr} : C.token .declared n n' → e.Matches C e' →
      Stmt.Matches C (.variable n e) (.variable n' e')
  | block {body body' : List (Stmt Nat)} : Stmt.MatchesAll C body body' →
      Stmt.Matches C (.block body) (.block body')
  | ifThen {c c' : Expr} {yes yes' : Stmt Nat} : c.Matches C c' → Stmt.Matches C yes yes' →
      Stmt.Matches C (.ifThen c yes) (.ifThen c' yes')
  | ifElse {c c' : Expr} {yes yes' no no' : Stmt Nat} : c.Matches C c' →
      Stmt.Matches C yes yes' → Stmt.Matches C no no' →
      Stmt.Matches C (.ifElse c yes no) (.ifElse c' yes' no')
  | while {c c' : Expr} {body body' : Stmt Nat} : c.Matches C c' → Stmt.Matches C body body' →
      Stmt.Matches C (.while c body) (.while c' body')
  | function {id : Nat} {n n' : Token} {parameters parameters' : List Token}
      {body body' : List (Stmt Nat)} : C.token .declared n n' →
      List.Forall₂ (C.token .declared) parameters parameters' → Stmt.MatchesAll C body body' →
      C.function ⟨id, n, parameters, body⟩ ⟨id, n', parameters', body'⟩ →
      Stmt.Matches C (.function id n parameters body) (.function id n' parameters' body')
  | return {keyword keyword' : Token} {e e' : Expr} : C.token .returned keyword keyword' →
      e.Matches C e' → Stmt.Matches C (.return keyword e) (.return keyword' e')

/-- Lists of statements that match one by one. -/
inductive Stmt.MatchesAll (C : Correspondence) : List (Stmt Nat) → List (Stmt Nat) → Prop
  | nil : Stmt.MatchesAll C [] []
  | cons {s s' : Stmt Nat} {rest rest' : List (Stmt Nat)} : Stmt.Matches C s s' →
      Stmt.MatchesAll C rest rest' → Stmt.MatchesAll C (s :: rest) (s' :: rest')

end

/-- Functions of the same number with trees that match. -/
structure Function.Matches (C : Correspondence) (f f' : Function) : Prop where
  id_eq : f.id = f'.id
  name : C.token .declared f.name f'.name
  parameters : List.Forall₂ (C.token .declared) f.parameters f'.parameters
  body : Stmt.MatchesAll C f.body f'.body
  function : C.function f f'

/-- Lists of statements that match one by one still do so one behind the other. -/
theorem Stmt.MatchesAll.append {body body' rest rest' : List (Stmt Nat)}
    (h : MatchesAll C body body') (h' : MatchesAll C rest rest') :
    MatchesAll C (body ++ rest) (body' ++ rest') := by
  match h with
  | .nil => exact h'
  | .cons hs hrest => exact .cons hs (hrest.append h')

/-! ### Other tokens at the same places -/

/-- Applies a function to the tokens in a function. -/
def Function.relabel (g : Token → Token) (f : Function) : Function :=
  ⟨f.id, g f.name, f.parameters.map g, Stmt.relabelAll g f.body⟩

section

variable {g : Token → Token}

mutual

/-- An expression matches itself with other tokens if these correspond to those that were there. -/
theorem Expr.matches_relabel (e : Expr) (h : ∀ p ∈ e.places, C.token p.1 p.2 (g p.2)) :
    e.Matches C (e.relabel g) := by
  match e with
  | .constant c => exact .constant c
  | .group e => exact .group (Expr.matches_relabel e h)
  | .unary op e =>
    obtain ⟨hop, he⟩ := List.forall_mem_cons.1 h
    exact .unary hop (Expr.matches_relabel e he)
  | .binary l op r =>
    obtain ⟨hop, hlr⟩ := List.forall_mem_cons.1 h
    obtain ⟨hl, hr⟩ := List.forall_mem_append.1 hlr
    exact .binary hop (Expr.matches_relabel l hl) (Expr.matches_relabel r hr)
  | .logical l op r =>
    obtain ⟨hop, hlr⟩ := List.forall_mem_cons.1 h
    obtain ⟨hl, hr⟩ := List.forall_mem_append.1 hlr
    exact .logical hop (Expr.matches_relabel l hl) (Expr.matches_relabel r hr)
  | .name n => exact .name (h (.variable, n) List.mem_cons_self)
  | .assign n e =>
    obtain ⟨hn, he⟩ := List.forall_mem_cons.1 h
    exact .assign hn (Expr.matches_relabel e he)
  | .call callee paren arguments =>
    obtain ⟨hparen, hrest⟩ := List.forall_mem_cons.1 h
    obtain ⟨hcallee, harguments⟩ := List.forall_mem_append.1 hrest
    exact .call hparen (Expr.matches_relabel callee hcallee)
      (Expr.matchesAll_relabelAll arguments harguments)

/-- Expressions match themselves with other tokens if these correspond to those that were there. -/
theorem Expr.matchesAll_relabelAll (es : List Expr)
    (h : ∀ p ∈ Expr.placesAll es, C.token p.1 p.2 (g p.2)) :
    Expr.MatchesAll C es (Expr.relabelAll g es) := by
  match es with
  | [] => exact .nil
  | e :: es =>
    obtain ⟨he, hes⟩ := List.forall_mem_append.1 h
    exact .cons (Expr.matches_relabel e he) (Expr.matchesAll_relabelAll es hes)

end

mutual

/-- A statement matches itself with other tokens if these correspond to those that were there, and
    the functions declared inside correspond to themselves with other tokens. -/
theorem Stmt.matches_relabel (s : Stmt Nat) (h : ∀ p ∈ s.places, C.token p.1 p.2 (g p.2))
    (hf : ∀ f : Function, f.declaration ∈ s.parts → C.function f (f.relabel g)) :
    s.Matches C (s.relabel g) := by
  match s with
  | .expression e => exact .expression (e.matches_relabel h)
  | .print keyword e =>
    obtain ⟨hkeyword, he⟩ := List.forall_mem_cons.1 h
    exact .print hkeyword (e.matches_relabel he)
  | .variable n e =>
    obtain ⟨hn, he⟩ := List.forall_mem_cons.1 h
    exact .variable hn (e.matches_relabel he)
  | .block body =>
    exact .block (Stmt.matchesAll_relabelAll body h fun f hmem =>
      hf f (List.mem_cons_of_mem _ hmem))
  | .ifThen c yes =>
    obtain ⟨hc, hyes⟩ := List.forall_mem_append.1 h
    exact .ifThen (c.matches_relabel hc)
      (Stmt.matches_relabel yes hyes fun f hmem => hf f (List.mem_cons_of_mem _ hmem))
  | .ifElse c yes no =>
    obtain ⟨hc, hrest⟩ := List.forall_mem_append.1 h
    obtain ⟨hyes, hno⟩ := List.forall_mem_append.1 hrest
    refine .ifElse (c.matches_relabel hc) (Stmt.matches_relabel yes hyes fun f hmem => ?_)
      (Stmt.matches_relabel no hno fun f hmem => ?_)
    · exact hf f (List.mem_cons_of_mem _ (List.mem_append_left _ hmem))
    · exact hf f (List.mem_cons_of_mem _ (List.mem_append_right _ hmem))
  | .while c body =>
    obtain ⟨hc, hbody⟩ := List.forall_mem_append.1 h
    exact .while (c.matches_relabel hc)
      (Stmt.matches_relabel body hbody fun f hmem => hf f (List.mem_cons_of_mem _ hmem))
  | .function id n parameters body =>
    obtain ⟨hn, hrest⟩ := List.forall_mem_cons.1 h
    obtain ⟨hparameters, hbody⟩ := List.forall_mem_append.1 hrest
    -- Parameters are declared names; the function itself is the first of the parts.
    have hparameters : List.Forall₂ (C.token .declared) parameters (parameters.map g) :=
      List.forall₂_map_right_iff.2 <| List.forall₂_same.2 fun parameter hmem =>
        hparameters (.declared, parameter) (List.mem_map_of_mem hmem)
    exact .function hn hparameters
      (Stmt.matchesAll_relabelAll body hbody fun f hmem => hf f (List.mem_cons_of_mem _ hmem))
      (hf ⟨id, n, parameters, body⟩ List.mem_cons_self)
  | .return keyword e =>
    obtain ⟨hkeyword, he⟩ := List.forall_mem_cons.1 h
    exact .return hkeyword (e.matches_relabel he)

/-- Statements match themselves with other tokens if these correspond to those that were there, and
    the functions declared inside correspond to themselves with other tokens. -/
theorem Stmt.matchesAll_relabelAll (body : List (Stmt Nat))
    (h : ∀ p ∈ Stmt.placesAll body, C.token p.1 p.2 (g p.2))
    (hf : ∀ f : Function, f.declaration ∈ Stmt.partsAll body → C.function f (f.relabel g)) :
    Stmt.MatchesAll C body (Stmt.relabelAll g body) := by
  match body with
  | [] => exact .nil
  | s :: rest =>
    obtain ⟨hs, hrest⟩ := List.forall_mem_append.1 h
    exact .cons (Stmt.matches_relabel s hs fun f hmem => hf f (List.mem_append_left _ hmem))
      (Stmt.matchesAll_relabelAll rest hrest fun f hmem => hf f (List.mem_append_right _ hmem))

end

/-! ### The same tokens -/

mutual

/-- Other tokens leave an expression as it is exactly if they are no others at any place. -/
theorem Expr.relabel_eq_self_iff (e : Expr) :
    e.relabel g = e ↔ ∀ p ∈ e.places, g p.2 = p.2 := by
  match e with
  | .constant c => simp [relabel, places]
  | .group e => simp [relabel, places, relabel_eq_self_iff e]
  | .unary op e => simp [relabel, places, relabel_eq_self_iff e]
  | .binary l op r =>
    simp [relabel, places, relabel_eq_self_iff l, relabel_eq_self_iff r, or_imp, forall_and,
      and_left_comm]
  | .logical l op r =>
    simp [relabel, places, relabel_eq_self_iff l, relabel_eq_self_iff r, or_imp, forall_and,
      and_left_comm]
  | .name n => simp [relabel, places]
  | .assign n e => simp [relabel, places, relabel_eq_self_iff e]
  | .call callee paren arguments =>
    simp [relabel, places, relabel_eq_self_iff callee, relabelAll_eq_self_iff arguments, or_imp,
      forall_and, and_left_comm]

/-- Other tokens leave several expressions as they are exactly if they are no others at any
    place. -/
theorem Expr.relabelAll_eq_self_iff (es : List Expr) :
    Expr.relabelAll g es = es ↔ ∀ p ∈ Expr.placesAll es, g p.2 = p.2 := by
  match es with
  | [] => simp [relabelAll, placesAll]
  | e :: es =>
    simp [relabelAll, placesAll, relabel_eq_self_iff e, relabelAll_eq_self_iff es, or_imp,
      forall_and]

end

mutual

/-- Other tokens leave a statement as it is exactly if they are no others at any place. -/
theorem Stmt.relabel_eq_self_iff (s : Stmt ι) :
    s.relabel g = s ↔ ∀ p ∈ s.places, g p.2 = p.2 := by
  match s with
  | .expression e => simp [relabel, places, e.relabel_eq_self_iff]
  | .print keyword e => simp [relabel, places, e.relabel_eq_self_iff]
  | .variable n e => simp [relabel, places, e.relabel_eq_self_iff]
  | .block body => simp [relabel, places, relabelAll_eq_self_iff body]
  | .ifThen c yes =>
    simp [relabel, places, c.relabel_eq_self_iff, relabel_eq_self_iff yes, or_imp, forall_and]
  | .ifElse c yes no =>
    simp [relabel, places, c.relabel_eq_self_iff, relabel_eq_self_iff yes,
      relabel_eq_self_iff no, or_imp, forall_and]
  | .while c body =>
    simp [relabel, places, c.relabel_eq_self_iff, relabel_eq_self_iff body, or_imp, forall_and]
  | .function i n parameters body =>
    have hparameters : parameters.map g = parameters ↔ ∀ t ∈ parameters, g t = t := by
      induction parameters with
      | nil => simp
      | cons t parameters ih => simp [ih]
    simp [relabel, places, relabelAll_eq_self_iff body, or_imp, forall_and, hparameters]
  | .return keyword e => simp [relabel, places, e.relabel_eq_self_iff]

/-- Other tokens leave several statements as they are exactly if they are no others at any place. -/
theorem Stmt.relabelAll_eq_self_iff (body : List (Stmt ι)) :
    Stmt.relabelAll g body = body ↔ ∀ p ∈ Stmt.placesAll body, g p.2 = p.2 := by
  match body with
  | [] => simp [relabelAll, placesAll]
  | s :: rest =>
    simp [relabelAll, placesAll, relabel_eq_self_iff s, relabelAll_eq_self_iff rest, or_imp,
      forall_and]

end

/-- Changing no token changes no statement. -/
theorem Stmt.relabel_id : Stmt.relabel id = (id : Stmt ι → Stmt ι) :=
  funext fun s => (Stmt.relabel_eq_self_iff s).2 fun _ _ => rfl

/-! ### Numbering -/

mutual

/-- The functions in a statement get the same numbers, whatever its tokens. -/
theorem Stmt.number_relabel (s : Stmt ι) (next : Nat) :
    (s.relabel g).number next = ((s.number next).1.relabel g, (s.number next).2) := by
  match s with
  | .block body =>
    simp only [Stmt.relabel, Stmt.number, Stmt.numberAll_relabelAll body]
  | .ifThen c yes => simp only [Stmt.relabel, Stmt.number, Stmt.number_relabel yes]
  | .ifElse c yes no =>
    simp only [Stmt.relabel, Stmt.number, Stmt.number_relabel yes, Stmt.number_relabel no]
  | .while c body => simp only [Stmt.relabel, Stmt.number, Stmt.number_relabel body]
  | .function i n parameters body =>
    simp only [Stmt.relabel, Stmt.number, Stmt.numberAll_relabelAll body]
  | .expression _ | .print _ _ | .variable _ _ | .return _ _ => rfl

/-- The functions in several statements get the same numbers, whatever their tokens. -/
theorem Stmt.numberAll_relabelAll (body : List (Stmt ι)) (next : Nat) :
    Stmt.numberAll next (Stmt.relabelAll g body) =
      (Stmt.relabelAll g (Stmt.numberAll next body).1, (Stmt.numberAll next body).2) := by
  match body with
  | [] => rfl
  | s :: rest =>
    simp only [Stmt.relabelAll, Stmt.numberAll, Stmt.number_relabel s,
      Stmt.numberAll_relabelAll rest]

end

end

/-- Two lists of statements one behind the other are numbered one after the other. -/
theorem Stmt.numberAll_append (body rest : List (Stmt ι)) (next : Nat) :
    Stmt.numberAll next (body ++ rest) =
      ((Stmt.numberAll next body).1 ++ (Stmt.numberAll (Stmt.numberAll next body).2 rest).1,
        (Stmt.numberAll (Stmt.numberAll next body).2 rest).2) := by
  induction body generalizing next with
  | nil => rfl
  | cons s body ih => simp only [List.cons_append, Stmt.numberAll, ih]

end Lox
