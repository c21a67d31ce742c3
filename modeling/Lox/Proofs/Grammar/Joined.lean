import Lox.Proofs.Grammar.Exact
import Lox.Proofs.Syntax.Correspondence
import Lox.Proofs.Token.Joined

namespace Lox

/-!
# Programs joined by line feeds

A phrase stays one whatever follows it, except that an `if` without `else` takes an `else` that
comes next. No program begins with one. So if two texts are programs, the two of them with a line
feed between them are the one program followed by the other.

* `Grammar.SameFront` — lists of tokens that begin alike.
* `Grammar.IsLocal` — phrases that stay what they are when something else follows.
* `Grammar.parse_append` — the tokens of two programs.
* `parse_intercalate` — texts joined by line feeds.
* `mem_of_mem_placesAll_parse` — the tokens in a program are among those that it is read from.
-/

namespace Grammar

/-! ### Lists that begin alike -/

/-- The first two lists begin with the same tokens, all of which the grammar knows, and go on with
    the last two. -/
inductive SameFront : (tokens tokens' rest rest' : List Token) → Prop
  | nil {rest rest' : List Token} : SameFront rest rest' rest rest'
  | cons {token : Token} {tokens tokens' rest rest' : List Token} :
      token.kind.IsKnown → SameFront tokens tokens' rest rest' →
      SameFront (token :: tokens) (token :: tokens') rest rest'

namespace SameFront

variable {token : Token} {tokens tokens' between between' rest rest' : List Token}

theorem trans (h : SameFront tokens tokens' between between')
    (h' : SameFront between between' rest rest') : SameFront tokens tokens' rest rest' := by
  induction h with
  | nil => exact h'
  | cons hknown _ ih => exact .cons hknown (ih h')

/-- A symbol in front of both lists. -/
theorem symbol {s : Symbol} (hk : token.kind = s) (h : SameFront tokens tokens' rest rest') :
    SameFront (token :: tokens) (token :: tokens') rest rest' :=
  .cons (by simp [hk]) h

/-- A keyword in front of both lists. -/
theorem keyword {k : Keyword} (hk : token.kind = k) (h : SameFront tokens tokens' rest rest') :
    SameFront (token :: tokens) (token :: tokens') rest rest' :=
  .cons (by simp [hk]) h

/-- A name in front of both lists. -/
theorem identifier (hk : token.kind = .identifier) (h : SameFront tokens tokens' rest rest') :
    SameFront (token :: tokens) (token :: tokens') rest rest' :=
  .cons (by simp [hk]) h

/-- One of the lists can only begin with `else` where the other one does not if so does what they
    go on with. -/
theorem noElse (h : SameFront tokens tokens' rest rest') (hrest : NoElse rest → NoElse rest') :
    NoElse tokens → NoElse tokens' := by
  cases h with
  | nil => exact hrest
  | cons => exact id

/-- The tokens that the lists have in common, as a list of their own. -/
theorem exists_front (h : SameFront tokens tokens' rest rest') :
    ∃ front, tokens = front ++ rest ∧ tokens' = front ++ rest' ∧
      ∀ t ∈ front, t.kind.IsKnown := by
  induction h with
  | nil => exact ⟨[], rfl, rfl, by simp⟩
  | cons hknown _ ih =>
    obtain ⟨front, rfl, rfl, hfront⟩ := ih
    exact ⟨_ :: front, rfl, rfl, List.forall_mem_cons.2 ⟨hknown, hfront⟩⟩

end SameFront

/-! ### Phrases with other tokens behind them -/

/-- Each phrase of the language is still one if other tokens follow. An `else` may only follow if
    there was one before. -/
def IsLocal {α : Type} (L : Language α) : Prop :=
  ∀ ⦃tokens rest : List Token⦄ ⦃a : α⦄, L tokens a rest → ∀ rest', (NoElse rest → NoElse rest') →
    ∃ tokens', SameFront tokens tokens' rest rest' ∧ L tokens' a rest'

namespace IsLocal

variable {α : Type} {Item : Language α}

/-- In front of a token, the tokens behind it do not matter. -/
theorem before {L : Language α} (h : IsLocal L) {tokens rest : List Token} {token : Token} {a : α}
    (hL : L tokens a (token :: rest)) (rest' : List Token) :
    ∃ tokens', SameFront tokens tokens' (token :: rest) (token :: rest') ∧
      L tokens' a (token :: rest') :=
  h hL (token :: rest') id

/-- There are no phrases to be moved. -/
theorem none : IsLocal (Language.none (α := α)) := fun _ _ _ h => h.elim

/-! ### Lists -/

/-- A phrase that may be left out can be left out in front of anything. -/
theorem maybe (hi : IsLocal Item) : IsLocal (Maybe Item) := by
  intro tokens rest a h rest' hrest
  cases h with
  | missing => exact ⟨rest', .nil, .missing rest'⟩
  | given h =>
    obtain ⟨tokens', hfront, h'⟩ := hi h rest' hrest
    exact ⟨tokens', hfront, .given h'⟩

/-- Each phrase is followed by the next one, so the last one comes first. -/
theorem repeated (hi : IsLocal Item) : IsLocal (Repeated Item) := by
  intro tokens rest as h rest' hrest
  induction h with
  | nil => exact ⟨rest', .nil, .nil rest'⟩
  | cons h _ ih =>
    -- The phrases behind it come first, as they are what follows this one.
    obtain ⟨between', hbehind, hs'⟩ := ih hrest
    obtain ⟨tokens', hfront, h'⟩ := hi h between' (hbehind.noElse hrest)
    exact ⟨tokens', hfront.trans hbehind, .cons h' hs'⟩

/-- All items but the last one stand in front of a comma. -/
theorem separated (hi : IsLocal Item) : IsLocal (Separated Item) := by
  intro tokens rest as h rest' hrest
  induction h with
  | last h =>
    obtain ⟨tokens', hfront, h'⟩ := hi h rest' hrest
    exact ⟨tokens', hfront, .last h'⟩
  | cons h hcomma _ ih =>
    obtain ⟨between', hbehind, hs'⟩ := ih hrest
    obtain ⟨tokens', hfront, h'⟩ := hi.before h between'
    exact ⟨tokens', hfront.trans (.symbol hcomma hbehind), .cons h' hcomma hs'⟩

/-- A list has as many items as before, so it is not too long. -/
theorem listed (hi : IsLocal Item) : IsLocal (Listed Item) := by
  intro tokens rest as h rest' hrest
  cases h with
  | none => exact ⟨rest', .nil, .none rest'⟩
  | some h hle =>
    obtain ⟨tokens', hfront, h'⟩ := hi.separated h rest' hrest
    exact ⟨tokens', hfront, .some h' hle⟩

/-! ### Expressions -/

section Expressions

variable {Expression Operand Inner : Language Expr}

/-- Every operand but the last one stands in front of an operator. -/
theorem chain {isOperator : Token.Kind → Bool} {join : Expr → Token → Expr → Expr}
    (hoperator : ∀ k, isOperator k = true → k.IsKnown) (ho : IsLocal Operand) :
    IsLocal (Chain isOperator join Operand) := by
  intro tokens rest e h rest' hrest
  induction h generalizing rest' with
  | operand h =>
    obtain ⟨tokens', hfront, h'⟩ := ho h rest' hrest
    exact ⟨tokens', hfront, .operand h'⟩
  | @operator tokens between rest op left right _ hop hright ih =>
    -- What stands on the left of the operator goes on with the operator, as before.
    obtain ⟨between', hbehind, hright'⟩ := ho hright rest' hrest
    obtain ⟨tokens', hfront, hleft'⟩ := ih (op :: between') id
    exact ⟨tokens', hfront.trans (.cons (hoperator _ hop) hbehind), .operator hleft' hop hright'⟩

/-- Six chains, one around the other. -/
theorem disjunction (ho : IsLocal Operand) : IsLocal (Disjunction Operand) := by
  -- No unreadable token is an operator, so the operators of every level are known.
  have hknown {isOperator : Token.Kind → Bool}
      (h : ∀ cause, isOperator (.invalid cause) = false) (k : Token.Kind)
      (hk : isOperator k = true) : k.IsKnown := by
    rintro cause rfl
    exact absurd hk (by simp [h])
  have hproduct : IsLocal (Product Operand) := ho.chain (hknown fun _ => rfl)
  have hsum : IsLocal (Sum Operand) := hproduct.chain (hknown fun _ => rfl)
  have hcomparison : IsLocal (Comparison Operand) := hsum.chain (hknown fun _ => rfl)
  have hequality : IsLocal (Equality Operand) := hcomparison.chain (hknown fun _ => rfl)
  have hconjunction : IsLocal (Conjunction Operand) := hequality.chain (hknown fun _ => rfl)
  exact hconjunction.chain (hknown fun _ => rfl)

/-- The value is what comes last in an assignment. -/
theorem assignment (he : IsLocal Expression) (ho : IsLocal Operand) :
    IsLocal (Assignment Expression Operand) := by
  intro tokens rest e h rest' hrest
  cases h with
  | assign hname hequal hvalue =>
    obtain ⟨tokens', hfront, hvalue'⟩ := he hvalue rest' hrest
    exact ⟨_, .identifier hname (.symbol hequal hfront), .assign hname hequal hvalue'⟩
  | disjunction h =>
    obtain ⟨tokens', hfront, h'⟩ := ho.disjunction h rest' hrest
    exact ⟨tokens', hfront, .disjunction h'⟩

/-- A primary expression ends with a token of its own. -/
theorem primary (he : IsLocal Expression) : IsLocal (Primary Expression) := by
  intro tokens rest e h rest' hrest
  cases h with
  | falsehood _ hk => exact ⟨_, .keyword hk .nil, .falsehood rest' hk⟩
  | truth _ hk => exact ⟨_, .keyword hk .nil, .truth rest' hk⟩
  | nil _ hk => exact ⟨_, .keyword hk .nil, .nil rest' hk⟩
  | literal _ hk hvalue =>
    refine ⟨_, .cons ?_ .nil, .literal rest' hk hvalue⟩
    rcases hk with hk | hk
    · simp [hk]
    · simp [hk]
  | name _ hk => exact ⟨_, .identifier hk .nil, .name rest' hk⟩
  -- In a group, the inner expression is followed by the closing parenthesis, whatever comes then.
  | group hopening hinner hclosing =>
    obtain ⟨tokens', hfront, hinner'⟩ := he.before hinner rest'
    exact ⟨_, .symbol hopening (hfront.trans (.symbol hclosing .nil)),
      .group hopening hinner' hclosing⟩

/-- Calls end with a parenthesis, or where the callee does. -/
theorem calls (he : IsLocal Expression) : IsLocal (Calls Expression) := by
  intro tokens rest e h rest' hrest
  induction h generalizing rest' with
  | primary h =>
    obtain ⟨tokens', hfront, h'⟩ := he.primary h rest' hrest
    exact ⟨tokens', hfront, .primary h'⟩
  | @call tokens between rest opening closing callee arguments _ hopening hlist hclosing ih =>
    obtain ⟨between', hbehind, hlist'⟩ := he.listed.before hlist rest'
    obtain ⟨tokens', hfront, hcallee'⟩ := ih (opening :: between') id
    exact ⟨tokens', hfront.trans (.symbol hopening (hbehind.trans (.symbol hclosing .nil))),
      .call hcallee' hopening hlist' hclosing⟩

/-- The operand is what comes last. -/
theorem unaryOr (hi : IsLocal Inner) (ho : IsLocal Operand) : IsLocal (UnaryOr Inner Operand) := by
  intro tokens rest e h rest' hrest
  cases h with
  | operator hop h =>
    obtain ⟨tokens', hfront, h'⟩ := hi h rest' hrest
    refine ⟨_, .cons ?_ hfront, .operator hop h'⟩
    exact (isKnown_of_startsDeclaration (startsDeclaration_of_startsExpression
      (by rw [startsExpression, hop, Bool.true_or]))).1
  | operand h =>
    obtain ⟨tokens', hfront, h'⟩ := ho h rest' hrest
    exact ⟨tokens', hfront, .operand h'⟩

end Expressions

/-- Expressions stay what they are at every level of nesting. -/
theorem expression_unary (free : Nat) : IsLocal (Expression free) ∧ IsLocal (Unary free) := by
  induction free with
  | zero => exact ⟨none, none.unaryOr none.calls⟩
  | succ free ih =>
    have he : IsLocal (Expression (free + 1)) := ih.1.assignment ih.2
    exact ⟨he, ih.2.unaryOr he.calls⟩

/-! ### Statements and declarations -/

section Statements

variable {inside : Bool} {Expression : Language Expr} {Statement Declaration : Language (Stmt Unit)}
  {Block : Language (List (Stmt Unit))}

/-- A variable declaration ends with a semicolon. -/
theorem variableDeclaration (he : IsLocal Expression) :
    IsLocal (VariableDeclaration Expression) := by
  intro tokens rest s h rest' hrest
  cases h with
  | initialized hname hequal hvalue hsemicolon =>
    obtain ⟨tokens', hfront, hvalue'⟩ := he.before hvalue rest'
    exact ⟨_, .identifier hname (.symbol hequal (hfront.trans (.symbol hsemicolon .nil))),
      .initialized hname hequal hvalue' hsemicolon⟩
  | bare _ hname hsemicolon =>
    exact ⟨_, .identifier hname (.symbol hsemicolon .nil), .bare rest' hname hsemicolon⟩

/-- An expression statement ends with a semicolon. -/
theorem expressionStatement (he : IsLocal Expression) :
    IsLocal (ExpressionStatement Expression) := by
  intro tokens rest s h rest' hrest
  cases h with
  | expression h hsemicolon =>
    obtain ⟨tokens', hfront, h'⟩ := he.before h rest'
    exact ⟨tokens', hfront.trans (.symbol hsemicolon .nil), .expression h' hsemicolon⟩

/-- An initializer ends with a semicolon. -/
theorem initializer (he : IsLocal Expression) : IsLocal (Initializer Expression) := by
  intro tokens rest s h rest' hrest
  cases h with
  | none _ hsemicolon => exact ⟨_, .symbol hsemicolon .nil, .none rest' hsemicolon⟩
  | «variable» hk h =>
    obtain ⟨tokens', hfront, h'⟩ := he.variableDeclaration h rest' hrest
    exact ⟨_, .keyword hk hfront, .variable hk h'⟩
  | expression h =>
    obtain ⟨tokens', hfront, h'⟩ := he.expressionStatement h rest' hrest
    exact ⟨tokens', hfront, .expression h'⟩

/-- Of the statements, only an `if` without `else` depends on what follows. -/
theorem anyStatement (he : IsLocal Expression) (hs : IsLocal Statement) (hb : IsLocal Block) :
    IsLocal (AnyStatement inside Expression Statement Block) := by
  intro tokens rest s h rest' hrest
  cases h with
  | print hk h hsemicolon =>
    obtain ⟨tokens', hfront, h'⟩ := he.before h rest'
    exact ⟨_, .keyword hk (hfront.trans (.symbol hsemicolon .nil)), .print hk h' hsemicolon⟩
  | block hopening h =>
    obtain ⟨tokens', hfront, h'⟩ := hb h rest' hrest
    exact ⟨_, .symbol hopening hfront, .block hopening h'⟩
  | ifThen hk hopening hc hclosing hyes hno =>
    -- The only phrase for which it matters what follows.
    obtain ⟨between', hbehind, hyes'⟩ := hs hyes rest' hrest
    obtain ⟨tokens', hfront, hc'⟩ := he.before hc between'
    exact ⟨_, .keyword hk (.symbol hopening (hfront.trans (.symbol hclosing hbehind))),
      .ifThen hk hopening hc' hclosing hyes' (hrest hno)⟩
  | ifElse hk hopening hc hclosing hyes hother hno =>
    -- The first branch stands in front of `else`, whatever follows the second one.
    obtain ⟨behind', hlast, hno'⟩ := hs hno rest' hrest
    obtain ⟨between', hbehind, hyes'⟩ := hs.before hyes behind'
    obtain ⟨tokens', hfront, hc'⟩ := he.before hc between'
    exact ⟨_, .keyword hk (.symbol hopening (hfront.trans (.symbol hclosing
        (hbehind.trans (.keyword hother hlast))))),
      .ifElse hk hopening hc' hclosing hyes' hother hno'⟩
  | «while» hk hopening hc hclosing hbody =>
    obtain ⟨between', hbehind, hbody'⟩ := hs hbody rest' hrest
    obtain ⟨tokens', hfront, hc'⟩ := he.before hc between'
    exact ⟨_, .keyword hk (.symbol hopening (hfront.trans (.symbol hclosing hbehind))),
      .while hk hopening hc' hclosing hbody'⟩
  | «for» hk hopening hinitializer hc hsemicolon hstep hclosing hbody =>
    -- From the back to the front, as each part needs to know what follows it.
    obtain ⟨bodies', hlast, hbody'⟩ := hs hbody rest' hrest
    obtain ⟨steps', hsteps, hstep'⟩ := he.maybe.before hstep bodies'
    obtain ⟨conditions', hconditions, hc'⟩ := he.maybe.before hc steps'
    obtain ⟨tokens', hfront, hinitializer'⟩ := he.initializer hinitializer conditions'
      ((hconditions.trans (.symbol hsemicolon hsteps)).noElse id)
    exact ⟨_, .keyword hk (.symbol hopening (hfront.trans (hconditions.trans (.symbol hsemicolon
        (hsteps.trans (.symbol hclosing hlast)))))),
      .for hk hopening hinitializer' hc' hsemicolon hstep' hclosing hbody'⟩
  | «return» hinside hk hvalue hsemicolon =>
    obtain ⟨tokens', hfront, hvalue'⟩ := he.maybe.before hvalue rest'
    exact ⟨_, .keyword hk (hfront.trans (.symbol hsemicolon .nil)),
      .return hinside hk hvalue' hsemicolon⟩
  | expression h =>
    obtain ⟨tokens', hfront, h'⟩ := he.expressionStatement h rest' hrest
    exact ⟨tokens', hfront, .expression h'⟩

/-- A name is a single token. -/
theorem name : IsLocal Name := by
  intro tokens rest token h rest' hrest
  cases h with
  | name _ hk => exact ⟨_, .identifier hk .nil, .name rest' hk⟩

/-- What comes last in a function declaration is its body. -/
theorem functionDeclaration (hb : IsLocal Block) : IsLocal (FunctionDeclaration Block) := by
  intro tokens rest s h rest' hrest
  cases h with
  | @function name opening closing brace tokens bodies _ parameters body hname hopening hlist
      hclosing hbrace hbody =>
    obtain ⟨bodies', hlast, hbody'⟩ := hb hbody rest' hrest
    obtain ⟨tokens', hfront, hlist'⟩ := IsLocal.name.listed.before hlist (brace :: bodies')
    exact ⟨_, .identifier hname (.symbol hopening (hfront.trans (.symbol hclosing
        (.symbol hbrace hlast)))),
      .function hname hopening hlist' hclosing hbrace hbody'⟩

/-- Declarations of all kinds stay what they are. -/
theorem anyDeclaration (he : IsLocal Expression) (hs : IsLocal Statement) (hb : IsLocal Block) :
    IsLocal (AnyDeclaration Expression Statement Block) := by
  intro tokens rest s h rest' hrest
  cases h with
  | «variable» hk h =>
    obtain ⟨tokens', hfront, h'⟩ := he.variableDeclaration h rest' hrest
    exact ⟨_, .keyword hk hfront, .variable hk h'⟩
  | function hk h =>
    obtain ⟨tokens', hfront, h'⟩ := hb.functionDeclaration h rest' hrest
    exact ⟨_, .keyword hk hfront, .function hk h'⟩
  | statement h =>
    obtain ⟨tokens', hfront, h'⟩ := hs h rest' hrest
    exact ⟨tokens', hfront, .statement h'⟩

/-- A block ends with a brace. -/
theorem blockContents (hd : IsLocal Declaration) : IsLocal (BlockContents Declaration) := by
  intro tokens rest body h rest' hrest
  cases h with
  | close h hclosing =>
    obtain ⟨tokens', hfront, h'⟩ := hd.repeated.before h rest'
    exact ⟨tokens', hfront.trans (.symbol hclosing .nil), .close h' hclosing⟩

end Statements

/-- Statements and blocks stay what they are at every level of nesting. -/
theorem statement_block (free : Nat) (inside : Bool) :
    IsLocal (Statement free inside) ∧ IsLocal (Block free inside) := by
  induction free generalizing inside with
  | zero => exact ⟨none, none⟩
  | succ free ih =>
    have he := (expression_unary free).1
    exact ⟨he.anyStatement (ih inside).1 (ih inside).2,
      (he.anyDeclaration (ih inside).1 (ih true).2).blockContents⟩

/-- Programs stay what they are when something other than `else` follows. -/
theorem program : IsLocal Program :=
  ((expression_unary maxNesting).1.anyDeclaration (statement_block maxNesting false).1
    (statement_block maxNesting true).2).repeated

end IsLocal

/-! ### Programs one behind the other -/

/-- Phrases that follow one another, one list behind the other. -/
theorem Repeated.append {α : Type} {Item : Language α} {tokens between rest : List Token}
    {as bs : List α} (h : Repeated Item tokens as between) (h' : Repeated Item between bs rest) :
    Repeated Item tokens (as ++ bs) rest := by
  induction h with
  | nil => exact h'
  | cons h _ ih => exact .cons h (ih h')

/-- No program begins with `else`, as no declaration does. -/
theorem noElse_of_program {tokens : List Token} {program : List (Stmt Unit)} {last : Token}
    (h : Program tokens program [last]) (hlast : last.kind = .eof) : NoElse tokens := by
  cases h with
  | nil =>
    intro token htoken
    obtain rfl := Option.some.inj htoken
    rw [hlast]
    simp
  | cons h _ =>
    obtain ⟨first, _, rfl, hfirst, -⟩ := opens_declaration maxNesting false h
    intro token htoken hk
    obtain rfl := Option.some.inj htoken
    rw [hk] at hfirst
    exact absurd hfirst (by decide)

variable {tokens tokens' : List Token} {last last' : Token} {program program' : List (Stmt Unit)}

/-- What is read without errors is known to the grammar. -/
theorem isKnown_of_parse (hlast : last.kind = .eof) (honly : ∀ t ∈ tokens, t.kind ≠ .eof)
    (h : parse (tokens ++ [last]) = (program, [])) : ∀ t ∈ tokens, t.kind.IsKnown := by
  obtain ⟨_, hfront, -⟩ := IsLocal.program ((parse_eq_nil_iff hlast honly program).1 h) [last] id
  obtain ⟨front, htokens, -, hknown⟩ := hfront.exists_front
  rwa [List.append_cancel_right htokens]

/-- **The tokens of two programs.** Behind the tokens of a program, without its end token, stand
    those of another one: this is a program, too, of the statements of the one and of the other. -/
theorem parse_append (hlast : last.kind = .eof) (honly : ∀ t ∈ tokens, t.kind ≠ .eof)
    (hlast' : last'.kind = .eof) (honly' : ∀ t ∈ tokens', t.kind ≠ .eof)
    (h : parse (tokens ++ [last]) = (program, []))
    (h' : parse (tokens' ++ [last']) = (program', [])) :
    parse (tokens ++ (tokens' ++ [last'])) = (program ++ program', []) := by
  have hprogram := (parse_eq_nil_iff hlast honly program).1 h
  have hprogram' := (parse_eq_nil_iff hlast' honly' program').1 h'
  -- The first program stays one in front of the second, which begins with no `else`.
  obtain ⟨all, hfront, hall⟩ := IsLocal.program hprogram (tokens' ++ [last'])
    fun _ => noElse_of_program hprogram' hlast'
  obtain ⟨front, htokens, rfl, -⟩ := hfront.exists_front
  obtain rfl := List.append_cancel_right htokens
  rw [← List.append_assoc]
  refine (parse_eq_nil_iff hlast' (List.forall_mem_append.2 ⟨honly, honly'⟩) _).2 ?_
  rw [List.append_assoc]
  exact hall.append hprogram'

end Grammar

open Grammar

/-! ### Texts -/

/-- Moving tokens down changes their lines only. -/
theorem isRelabelling_below (lines : Nat) : Token.IsRelabelling (Token.below lines) where
  kind_eq _ := rfl
  literal_eq _ := rfl

/-- Line feeds in front of a text only move the tokens in the program down. -/
theorem parse_scan_lowered (lines : Nat) (source : String) :
    parse (scan (lowered lines source)) =
      ((parse (scan source)).1.map (Stmt.relabel (Token.below lines)),
        (parse (scan source)).2.map (SyntaxError.relabel (Token.below lines))) := by
  rw [scan_lowered]
  exact parse_map (isRelabelling_below lines) (exists_eof_scan source)

/-- Line feeds in front of a text cause no errors. -/
theorem errors_lowered (lines : Nat) {source : String} (h : (parse (scan source)).2 = []) :
    (parse (scan (lowered lines source))).2 = [] := by
  rw [parse_scan_lowered, h, List.map_nil]

/-- A text that is read without errors has readable tokens only. -/
theorem isKnown_of_parse_scan {source : String} (h : (parse (scan source)).2 = []) :
    ∀ t ∈ scan source, t.kind.IsKnown := by
  obtain ⟨words, c, hreads, hend, hscan⟩ := Cursor.scan_eq_append source
  have hparse : parse (words ++ [c.next.1]) = ((parse (scan source)).1, []) := by
    rw [← hscan]
    exact Prod.ext rfl h
  rw [hscan]
  refine List.forall_mem_append.2 ⟨isKnown_of_parse hend hreads.kind_ne hparse,
    List.forall_mem_singleton.2 ?_⟩
  rw [hend]
  exact nofun

/-- Two programs with a line feed between their texts. -/
theorem parse_append_lineFeed {source source' : String} {program program' : List (Stmt Unit)}
    (h : parse (scan source) = (program, []))
    (h' : parse (scan (lowered (lineCount source) source')) = (program', [])) :
    parse (scan (source ++ "\n" ++ source')) = (program ++ program', []) := by
  obtain ⟨words', c', hreads', hend', hscan'⟩ :=
    Cursor.scan_eq_append (lowered (lineCount source) source')
  -- A string that nothing ends would be an error of the first text.
  have hunterminated : ∀ t ∈ scan source, t.kind ≠ .invalid .unterminatedString :=
    fun t ht => isKnown_of_parse_scan (congrArg Prod.snd h) t ht _
  obtain ⟨words, last, hscan, hlast, honly, hjoined⟩ := scan_append_lineFeed hunterminated source'
  rw [hscan] at h
  rw [hscan'] at h'
  rw [hjoined, hscan']
  exact parse_append hlast honly hend' hreads'.kind_ne h h'

/-- Some texts, each behind as many line feeds as the texts before it have lines, and `lines` more:
    so their tokens are where they are if all of them are joined. -/
def lowerAll (lines : Nat) : List String → List String
  | [] => []
  | source :: rest => lowered lines source :: lowerAll (lines + lineCount source) rest

/-- Texts without errors stay so behind any number of line feeds. -/
theorem errors_of_mem_lowerAll (lines : Nat) {sources : List String}
    (h : ∀ source ∈ sources, (parse (scan source)).2 = []) :
    ∀ source ∈ lowerAll lines sources, (parse (scan source)).2 = [] := by
  induction sources generalizing lines with
  | nil => simp [lowerAll]
  | cons source rest ih =>
    obtain ⟨hsource, hrest⟩ := List.forall_mem_cons.1 h
    exact List.forall_mem_cons.2 ⟨errors_lowered lines hsource, ih _ hrest⟩

/-- The statements of a text that are well formed. -/
def statements (source : String) : List (Stmt Unit) := (parse (scan source)).1

/-- **Texts joined by line feeds.** If each of some texts is read without errors, so are all of
    them, joined by line feeds: as the statements of the one text after those of the other. -/
theorem parse_intercalate (lines : Nat) {sources : List String}
    (h : ∀ source ∈ sources, (parse (scan source)).2 = []) :
    parse (scan (lowered lines ("\n".intercalate sources))) =
      ((lowerAll lines sources).flatMap statements, []) := by
  have hlowered {source : String} (hsource : (parse (scan source)).2 = []) (lines : Nat) :
      parse (scan (lowered lines source)) = (statements (lowered lines source), []) :=
    Prod.ext rfl (errors_lowered lines hsource)
  -- The induction is for every number of lines, which grows from text to text.
  induction sources generalizing lines with
  | nil =>
    rw [String.intercalate_nil, parse_scan_lowered]
    rfl
  | cons source rest ih =>
    obtain ⟨hsource, hrest⟩ := List.forall_mem_cons.1 h
    cases rest with
    | nil =>
      rw [String.intercalate_singleton, hlowered hsource lines]
      simp [lowerAll]
    | cons source' rest =>
      have htext : lowered lines ("\n".intercalate (source :: source' :: rest)) =
          lowered lines source ++ "\n" ++ "\n".intercalate (source' :: rest) := by
        simp [lowered, String.intercalate_cons_cons, String.append_assoc]
      rw [htext, lowerAll, List.flatMap_cons]
      refine parse_append_lineFeed (hlowered hsource lines) ?_
      rw [lineCount_lowered]
      exact ih (lines + lineCount source) hrest

/-! ### Tokens of a program -/

/-- The tokens in a program are among those that it is read from. -/
theorem mem_of_mem_placesAll_parse {tokens : List Token}
    (hend : ∃ token ∈ tokens, token.kind = .eof) :
    ∀ p ∈ Stmt.placesAll (parse tokens).1, p.2 ∈ tokens := by
  classical
  -- If all other tokens were on another line, the program would be the same.
  let g (t : Token) : Token := if t ∈ tokens then t else t.below 1
  have hg : Token.IsRelabelling g := by
    constructor <;> intro t <;> simp only [g] <;> split <;> rfl
  have hsame : tokens.map g = tokens :=
    (List.map_congr_left fun _ ht => if_pos ht).trans (List.map_id tokens)
  have hprogram : Stmt.relabelAll g (parse tokens).1 = (parse tokens).1 := by
    have hmap := congrArg Prod.fst (parse_map hg hend)
    rw [hsame] at hmap
    rw [Stmt.relabelAll_eq_map]
    exact hmap.symm
  intro p hp
  by_contra hmem
  have hline : (g p.2).line = p.2.line + 1 := congrArg Token.line (if_neg hmem)
  rw [(Stmt.relabelAll_eq_self_iff _).1 hprogram p hp] at hline
  omega

end Lox
