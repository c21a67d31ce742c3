import Lox.Proofs.Grammar.Exact
import Lox.Proofs.Grammar.Relabelling
import Lox.Proofs.Token.Written
import Lox.Syntax.Source

namespace Lox

/-!
# Reading printed expressions back

The text of an expression that was read from tokens is a text for these tokens, up to the lines
and the spelling of numbers. The parser looks at neither, so it reads the same expression again.

* `Expr.isFinite` — whether all numbers in an expression are finite.
* `Grammar.Reprints` — in a language, the texts of the trees are texts for the tokens.
* `Grammar.reprints_expression` — this holds for expressions.
* `parseExpression_source` — the text of an expression that was parsed is parsed as the expression.
-/

/-! ### Finite numbers -/

/-- Whether a constant is not an infinite number. -/
def Constant.isFinite : Constant → Bool
  | .number x => Number.magnitude x < Number.infinity
  | _ => true

mutual

/-- Whether all numbers in an expression are finite. -/
def Expr.isFinite : Expr → Bool
  | .constant c => c.isFinite
  | .group e => e.isFinite
  | .unary _ e => e.isFinite
  | .binary l _ r | .logical l _ r => l.isFinite && r.isFinite
  | .name _ => true
  | .assign _ e => e.isFinite
  | .call callee _ arguments => callee.isFinite && Expr.areFinite arguments

/-- Whether all numbers in several expressions are finite. -/
def Expr.areFinite : List Expr → Bool
  | [] => true
  | e :: es => e.isFinite && Expr.areFinite es

end

mutual

/-- Relabelling does not touch numbers. -/
theorem Expr.isFinite_relabel (f : Token → Token) (e : Expr) :
    (e.relabel f).isFinite = e.isFinite := by
  cases e with
  | constant c => rfl
  | group e => exact isFinite_relabel f e
  | unary op e => exact isFinite_relabel f e
  | binary l op r | logical l op r =>
    show ((l.relabel f).isFinite && (r.relabel f).isFinite) = (l.isFinite && r.isFinite)
    rw [isFinite_relabel f l, isFinite_relabel f r]
  | name n => rfl
  | assign n e => exact isFinite_relabel f e
  | call callee paren arguments =>
    show ((callee.relabel f).isFinite && areFinite (relabelAll f arguments)) =
      (callee.isFinite && areFinite arguments)
    rw [isFinite_relabel f callee, areFinite_relabelAll f arguments]

/-- The same for several expressions. -/
theorem Expr.areFinite_relabelAll (f : Token → Token) (es : List Expr) :
    Expr.areFinite (Expr.relabelAll f es) = Expr.areFinite es := by
  cases es with
  | nil => rfl
  | cons e es =>
    show ((e.relabel f).isFinite && areFinite (relabelAll f es)) = (e.isFinite && areFinite es)
    rw [isFinite_relabel f e, areFinite_relabelAll f es]

end

/-! ### Tokens read back -/

/-- Forgetting lines and the spelling of numbers keeps kinds and literals. -/
theorem Token.isRelabelling_content : Token.IsRelabelling Token.content :=
  ⟨fun _ => rfl, fun _ => rfl⟩

/-- Of a token that is no number, only the line is forgotten. -/
theorem Token.content_eq_onLine {t : Token} (h : t.kind ≠ .number) : t.content = t.onLine 0 := by
  unfold Token.content
  rw [if_neg h]
  rfl

/-! ### Texts of expressions -/

namespace Expr

/-- Between two unary operators there is a blank. -/
theorem toList_source_unary (op : Token) (e : Expr) :
    (Expr.unary op e).source.toList =
      op.lexeme.toList ++ (if e.isUnary then ' ' :: e.source.toList else e.source.toList) := by
  rw [Expr.source]
  cases e.isUnary <;> simp

/-- Around the `=` there are blanks. -/
theorem toList_source_assign (n : Token) (e : Expr) :
    (Expr.assign n e).source.toList =
      n.lexeme.toList ++ ' ' :: (['='] ++ ' ' :: e.source.toList) := by
  rw [Expr.source]
  simp

/-- Around a group there are parentheses. -/
theorem toList_source_group (e : Expr) :
    (Expr.group e).source.toList = ['('] ++ (e.source.toList ++ [')']) := by
  rw [Expr.source]
  simp

/-- Around arguments there are parentheses. -/
theorem toList_source_call (callee : Expr) (paren : Token) (arguments : List Expr) :
    (Expr.call callee paren arguments).source.toList =
      callee.source.toList ++ (['('] ++ ((Expr.sourceList arguments).toList ++ [')'])) := by
  rw [Expr.source]
  simp

/-- Between arguments there are a comma and a blank. -/
theorem toList_sourceList_cons (e : Expr) {es : List Expr} (h : es ≠ []) :
    (Expr.sourceList (e :: es)).toList =
      e.source.toList ++ ([','] ++ ' ' :: (Expr.sourceList es).toList) := by
  cases es with
  | nil => exact absurd rfl h
  | cons =>
    rw [Expr.sourceList]
    · simp
    · exact nofun

end Expr

namespace Grammar

open Cursor

/-- The text of an expression is one for the tokens that it was read from. -/
structure IsPrinted (e : Expr) (taken : List Token) : Prop where
  /-- No number is among the tokens that the tree keeps. -/
  relabel_eq : e.relabel Token.content = e.relabel (Token.onLine 0)
  written : Written Delimits e.source.toList taken
  startsWith : StartsWith EndsSymbol e.source.toList

namespace IsPrinted

variable {e left right value : Expr} {taken taken' : List Token} {op token opening closing : Token}

/-- A constant is a single token, which the tree does not keep. -/
theorem constant {c : Constant} (hwritten : Written Delimits c.source.toList [token])
    (hstart : StartsWith EndsSymbol c.source.toList) : IsPrinted (.constant c) [token] where
  relabel_eq := rfl
  written := hwritten
  startsWith := hstart

/-- A name is written as it was. -/
theorem name (ht : token.IsScanned) (hk : token.kind = .identifier) :
    IsPrinted (.name token) [token] where
  relabel_eq := by
    show Expr.name token.content = .name (token.onLine 0)
    rw [Token.content_eq_onLine (by rw [hk]; nofun)]
  written := ht.written_identifier hk
  startsWith := ht.startsWith (.inr (.inl hk))

/-- The parenthesis that closes a group ends what is inside. -/
theorem group (h : IsPrinted e taken) (hopening : opening.IsScanned)
    (hk : opening.kind = Symbol.leftParen) (hclosing : closing.IsScanned)
    (hk' : closing.kind = Symbol.rightParen) :
    IsPrinted (.group e) (opening :: (taken ++ [closing])) where
  relabel_eq := congrArg Expr.group h.relabel_eq
  written := by
    -- Any text may stand in front of a closing parenthesis, as it delimits what is there.
    have hinner : Written Delimits (e.source.toList ++ [')']) (taken ++ [closing]) :=
      h.written.append ⟨')', [], rfl, .inr (.inr (.inl rfl))⟩
        ((hclosing.written_symbol hk').mono fun c => Delimits.endsSymbol)
    rw [Expr.toList_source_group]
    exact (hopening.written_symbol hk).append (h.startsWith.append _) hinner
  startsWith := by
    rw [Expr.toList_source_group]
    exact ⟨'(', _, rfl, by decide, by decide⟩

/-- An operator, and its operand after a blank if that has an operator in front as well. -/
theorem unary (h : IsPrinted e taken) (hop : op.IsScanned) (hk : isUnaryOperator op.kind = true) :
    IsPrinted (.unary op e) (op :: taken) := by
  -- The operators in front are `!` and `-`, which end symbols.
  obtain ⟨s, hs, hcases⟩ : ∃ s, op.kind = .symbol s ∧ (s = .bang ∨ s = .minus) := by
    unfold isUnaryOperator at hk
    split at hk
    · next heq => exact ⟨_, heq, .inl rfl⟩
    · next heq => exact ⟨_, heq, .inr rfl⟩
    · exact absurd hk Bool.false_ne_true
  constructor
  · show Expr.unary op.content (e.relabel _) = .unary (op.onLine 0) (e.relabel _)
    rw [Token.content_eq_onLine (by rw [hs]; nofun), h.relabel_eq]
  · rw [Expr.toList_source_unary, hop.toList_lexeme_symbol hs]
    split
    · exact (hop.written_symbol hs).append ⟨' ', _, rfl, by decide, by decide⟩
        (h.written.blank h.startsWith.ne_nil)
    · exact (hop.written_symbol hs).append h.startsWith h.written
  · rw [Expr.toList_source_unary, hop.toList_lexeme_symbol hs]
    refine StartsWith.append ?_ _
    rcases hcases with rfl | rfl
    · exact ⟨'!', [], rfl, by decide, by decide⟩
    · exact ⟨'-', [], rfl, by decide, by decide⟩

/-- Both kinds of trees with an operator between two operands. -/
theorem operator {join : Expr → Token → Expr → Expr} (hjoin : join = .binary ∨ join = .logical)
    (hl : IsPrinted left taken) (hr : IsPrinted right taken') (hop : op.IsScanned)
    (hk : (∃ s, op.kind = .symbol s) ∨ ∃ k, op.kind = .keyword k) :
    IsPrinted (join left op right) (taken ++ op :: taken') := by
  -- Operators are no numbers, so nothing of their spelling is lost.
  have hlabel : op.content = op.onLine 0 := by
    refine Token.content_eq_onLine fun hnumber => ?_
    rw [hnumber] at hk
    simp at hk
  -- With a blank on each side, the operator and its operands cannot run together.
  obtain ⟨hwritten, hne⟩ := hop.written_operator hk
  have hspaced := hl.written.spaced hwritten hne hr.written hr.startsWith.ne_nil
  have hsource : (join left op right).source.toList =
      left.source.toList ++ ' ' :: (op.lexeme.toList ++ ' ' :: right.source.toList) := by
    rcases hjoin with rfl | rfl <;> rw [Expr.source] <;> simp
  constructor
  · rcases hjoin with rfl | rfl <;>
      simp only [Expr.relabel, hl.relabel_eq, hr.relabel_eq, hlabel]
  · rw [hsource]
    exact hspaced
  · rw [hsource]
    exact hl.startsWith.append _

/-- A name and the value that is assigned, with blanks around the `=`. -/
theorem assign (h : IsPrinted value taken) (ht : token.IsScanned) (hk : token.kind = .identifier)
    (hop : op.IsScanned) (hequal : op.kind = Symbol.equal) :
    IsPrinted (.assign token value) (token :: op :: taken) where
  relabel_eq := by
    show Expr.assign token.content (value.relabel _) = .assign (token.onLine 0) (value.relabel _)
    rw [Token.content_eq_onLine (by rw [hk]; nofun), h.relabel_eq]
  written := by
    rw [Expr.toList_source_assign]
    exact (ht.written_identifier hk).spaced
      ((hop.written_symbol hequal).mono fun c => Delimits.endsSymbol) (by decide) h.written
      h.startsWith.ne_nil
  startsWith := by
    rw [Expr.toList_source_assign]
    exact (ht.startsWith (.inr (.inl hk))).append _

end IsPrinted

/-- The texts of several expressions, with commas between them, are a text for the tokens. -/
structure ArePrinted (es : List Expr) (taken : List Token) : Prop where
  relabel_eq : Expr.relabelAll Token.content es = Expr.relabelAll (Token.onLine 0) es
  written : Written Delimits (Expr.sourceList es).toList taken
  startsWith : es ≠ [] → StartsWith EndsSymbol (Expr.sourceList es).toList

namespace ArePrinted

variable {e callee : Expr} {es : List Expr} {taken taken' : List Token}
  {comma opening closing : Token}

theorem nil : ArePrinted [] [] where
  relabel_eq := rfl
  written := .nil
  startsWith hne := absurd rfl hne

/-- One expression is printed as it is. -/
theorem singleton (h : IsPrinted e taken) : ArePrinted [e] taken where
  relabel_eq := congrArg (· :: []) h.relabel_eq
  written := h.written
  startsWith _ := h.startsWith

/-- A comma ends the expression in front of it, and the blank ends the comma. -/
theorem cons (h : IsPrinted e taken) (hcomma : comma.IsScanned) (hk : comma.kind = Symbol.comma)
    (hes : ArePrinted es taken') (hne : es ≠ []) :
    ArePrinted (e :: es) (taken ++ comma :: taken') where
  relabel_eq := by
    rw [Expr.relabelAll, Expr.relabelAll, h.relabel_eq, hes.relabel_eq]
  written := by
    have hblank := hes.written.blank (hes.startsWith hne).ne_nil
    have hright : Written Delimits ([','] ++ ' ' :: (Expr.sourceList es).toList)
        (comma :: taken') :=
      (hcomma.written_symbol hk).append ⟨' ', _, rfl, by decide, by decide⟩ hblank
    rw [Expr.toList_sourceList_cons e hne]
    exact h.written.append ⟨',', _, rfl, .inr (.inr (.inr rfl))⟩ hright
  startsWith _ := by
    rw [Expr.toList_sourceList_cons e hne]
    exact h.startsWith.append _

/-- What is called, and its arguments in parentheses. -/
theorem call (hcallee : IsPrinted callee taken) (hopening : opening.IsScanned)
    (hk : opening.kind = Symbol.leftParen) (hes : ArePrinted es taken')
    (hclosing : closing.IsScanned) (hk' : closing.kind = Symbol.rightParen) :
    IsPrinted (.call callee closing es) (taken ++ opening :: (taken' ++ [closing])) where
  relabel_eq := by
    show Expr.call (callee.relabel _) closing.content (Expr.relabelAll _ es) =
      .call (callee.relabel _) (closing.onLine 0) (Expr.relabelAll _ es)
    rw [Token.content_eq_onLine (by rw [hk']; nofun), hcallee.relabel_eq, hes.relabel_eq]
  written := by
    have hend : Written Delimits ((Expr.sourceList es).toList ++ [')']) (taken' ++ [closing]) :=
      hes.written.append ⟨')', [], rfl, .inr (.inr (.inl rfl))⟩
        ((hclosing.written_symbol hk').mono fun c => Delimits.endsSymbol)
    -- Without arguments the parentheses stand next to each other.
    have hstart : StartsWith EndsSymbol ((Expr.sourceList es).toList ++ [')']) := by
      by_cases hne : es = []
      · subst hne
        exact ⟨')', [], rfl, by decide, by decide⟩
      · exact (hes.startsWith hne).append _
    rw [Expr.toList_source_call]
    exact hcallee.written.append ⟨'(', _, rfl, .inr (.inl rfl)⟩
      ((hopening.written_symbol hk).append hstart hend)
  startsWith := by
    rw [Expr.toList_source_call]
    exact hcallee.startsWith.append _

end ArePrinted

/-- In the language, the texts of the trees are texts for the tokens. -/
def Reprints (L : Language Expr) : Prop :=
  ∀ ⦃tokens rest : List Token⦄ ⦃e : Expr⦄, L tokens e rest → (∀ t ∈ tokens, t.IsScanned) →
    e.isFinite = true → ∃ taken, tokens = taken ++ rest ∧ IsPrinted e taken

/-- The same for lists of expressions. -/
def ReprintsAll (L : Language (List Expr)) : Prop :=
  ∀ ⦃tokens rest : List Token⦄ ⦃es : List Expr⦄, L tokens es rest →
    (∀ t ∈ tokens, t.IsScanned) → Expr.areFinite es = true →
      ∃ taken, tokens = taken ++ rest ∧ ArePrinted es taken

section

variable {Expression Inner Operand Item : Language Expr}

/-- There are no phrases to be printed. -/
theorem reprints_none : Reprints .none := fun _ _ _ h => h.elim

/-- The operators of a chain are symbols or keywords, which stand between blanks. -/
theorem Reprints.chain {isOperator : Token.Kind → Bool} {join : Expr → Token → Expr → Expr}
    (h : Reprints Operand) (hjoin : join = .binary ∨ join = .logical)
    (hop : ∀ kind, isOperator kind = true → (∃ s, kind = .symbol s) ∨ ∃ k, kind = .keyword k) :
    Reprints (Chain isOperator join Operand) := by
  intro tokens rest e hchain
  induction hchain with
  | operand ho => exact h ho
  | @operator tokens between rest op left right _ hk hright ih =>
    intro hscanned hfinite
    have hfinite : left.isFinite = true ∧ right.isFinite = true := by
      rcases hjoin with rfl | rfl <;> exact Bool.and_eq_true_iff.1 hfinite
    -- The left operand is a chain that is shorter, and the right one is an operand.
    obtain ⟨taken, rfl, hleft⟩ := ih hscanned hfinite.1
    obtain ⟨hop', hbetween⟩ := List.forall_mem_cons.1 (List.forall_mem_append.1 hscanned).2
    obtain ⟨taken', rfl, hright'⟩ := h hright hbetween hfinite.2
    exact ⟨taken ++ op :: taken', by simp, .operator hjoin hleft hright' hop' (hop _ hk)⟩

/-- Six chains, one around the other. -/
theorem Reprints.disjunction (h : Reprints Operand) : Reprints (Disjunction Operand) := by
  have hfactor : ∀ kind, isFactorOperator kind = true →
      (∃ s, kind = .symbol s) ∨ ∃ k, kind = .keyword k := by
    intro kind hk
    cases kind <;> simp [isFactorOperator] at hk ⊢
  have hterm : ∀ kind, isTermOperator kind = true →
      (∃ s, kind = .symbol s) ∨ ∃ k, kind = .keyword k := by
    intro kind hk
    cases kind <;> simp [isTermOperator] at hk ⊢
  have hcomparison : ∀ kind, isComparison kind = true →
      (∃ s, kind = .symbol s) ∨ ∃ k, kind = .keyword k := by
    intro kind hk
    cases kind <;> simp [isComparison] at hk ⊢
  have hequality : ∀ kind, isEquality kind = true →
      (∃ s, kind = .symbol s) ∨ ∃ k, kind = .keyword k := by
    intro kind hk
    cases kind <;> simp [isEquality] at hk ⊢
  have hkeyword (k : Keyword) : ∀ kind : Token.Kind, (kind == .keyword k) = true →
      (∃ s, kind = .symbol s) ∨ ∃ k, kind = .keyword k :=
    fun kind hk => .inr ⟨k, eq_of_beq hk⟩
  -- From the operators that bind most tightly outwards.
  have h₁ : Reprints (Product Operand) := h.chain (.inl rfl) hfactor
  have h₂ : Reprints (Sum Operand) := h₁.chain (.inl rfl) hterm
  have h₃ : Reprints (Comparison Operand) := h₂.chain (.inl rfl) hcomparison
  have h₄ : Reprints (Equality Operand) := h₃.chain (.inl rfl) hequality
  have h₅ : Reprints (Conjunction Operand) := h₄.chain (.inr rfl) (hkeyword .and_)
  exact h₅.chain (.inr rfl) (hkeyword .or_)

/-- An assignment, or a disjunction. -/
theorem Reprints.assignment (he : Reprints Expression) (ho : Reprints Operand) :
    Reprints (Assignment Expression Operand) := by
  intro tokens rest e h hscanned hfinite
  cases h with
  | @assign name equal tokens _ value hname hequal hvalue =>
    obtain ⟨hname', hscanned⟩ := List.forall_mem_cons.1 hscanned
    obtain ⟨hequal', hscanned⟩ := List.forall_mem_cons.1 hscanned
    obtain ⟨taken, rfl, hprinted⟩ := he hvalue hscanned hfinite
    exact ⟨name :: equal :: taken, rfl, hprinted.assign hname' hname hequal' hequal⟩
  | disjunction h => exact ho.disjunction h hscanned hfinite

/-- A keyword for a constant is the text of the constant. -/
theorem isPrinted_keyword {token : Token} {k : Keyword} {c : Constant} (ht : token.IsScanned)
    (hk : token.kind = .keyword k) (hsource : c.source = k.spelling) :
    IsPrinted (.constant c) [token] := by
  have hlexeme : c.source = token.lexeme := by
    rw [ht.keyword_eq hk]
    exact hsource
  refine .constant ?_ ?_
  · rw [hlexeme]
    exact ht.written_keyword hk
  · rw [hlexeme]
    exact ht.startsWith (.inl ⟨k, hk⟩)

/-- Numbers and strings are printed so that they are read as the same literals. -/
theorem isPrinted_literal {token : Token} {value : Literal} (ht : token.IsScanned)
    (hk : token.kind = .number ∨ token.kind = .string) (hvalue : token.literal = some value)
    (hfinite : (Constant.ofLiteral value).isFinite = true) :
    IsPrinted (.constant (.ofLiteral value)) [token] := by
  rcases hk with hk | hk
  · -- A number is what its numeral denotes, and it is finite.
    obtain ⟨p, hle, rfl⟩ : ∃ p, p ≤ Number.infinity ∧ value = .number (Number.ofMagnitude p) := by
      cases ht with
      | number numeral line =>
        exact ⟨(Decimal.ofNumeral numeral).nearest, Nat.min_le_right _ _,
          (Option.some.inj hvalue).symm⟩
      | _ => cases hk
    have hlt : p < Number.infinity := by
      have hmagnitude := of_decide_eq_true hfinite
      rwa [Number.magnitude_ofMagnitude hle] at hmagnitude
    exact .constant (written_number hlt hk hvalue) (startsWith_number hlt)
  · -- A string is printed with its quotes, and so just as it was written.
    have hsource : (Constant.ofLiteral value).source.toList = token.lexeme.toList := by
      cases ht with
      | string line =>
        obtain rfl := Option.some.inj hvalue
        simp [Constant.ofLiteral, Constant.source]
      | _ => cases hk
    refine .constant ?_ ?_
    · rw [hsource]
      exact ht.written_string hk
    · rw [hsource]
      exact ht.startsWith (.inr (.inr hk))

/-- A primary expression is a single token or a group. -/
theorem Reprints.primary (he : Reprints Expression) : Reprints (Primary Expression) := by
  intro tokens rest e h hscanned hfinite
  -- There is a first token in any case.
  obtain ⟨token, tail, rfl⟩ : ∃ token tail, tokens = token :: tail := by
    cases h <;> exact ⟨_, _, rfl⟩
  obtain ⟨ht, htail⟩ := List.forall_mem_cons.1 hscanned
  cases h with
  | falsehood rest hk => exact ⟨[token], rfl, isPrinted_keyword ht hk rfl⟩
  | truth rest hk => exact ⟨[token], rfl, isPrinted_keyword ht hk rfl⟩
  | nil rest hk => exact ⟨[token], rfl, isPrinted_keyword ht hk rfl⟩
  | literal rest hk hvalue => exact ⟨[token], rfl, isPrinted_literal ht hk hvalue hfinite⟩
  | name rest hk => exact ⟨[token], rfl, .name ht hk⟩
  | @group _ closing _ _ inner hopening hinner hclosing =>
    obtain ⟨taken, rfl, hprinted⟩ := he hinner htail hfinite
    have hlast := (List.forall_mem_cons.1 (List.forall_mem_append.1 htail).2).1
    exact ⟨token :: (taken ++ [closing]), by simp,
      hprinted.group ht hopening hlast hclosing⟩

/-- A list with items has a comma in front of each but the first. -/
theorem Reprints.separated (h : Reprints Item) : ReprintsAll (Separated Item) := by
  intro tokens rest es hes
  induction hes with
  | last hitem =>
    intro hscanned hfinite
    obtain ⟨taken, htokens, hprinted⟩ := h hitem hscanned (Bool.and_eq_true_iff.1 hfinite).1
    exact ⟨taken, htokens, .singleton hprinted⟩
  | @cons tokens between rest comma e es hitem hk hes ih =>
    intro hscanned hfinite
    have hfinite := Bool.and_eq_true_iff.1 hfinite
    obtain ⟨taken, rfl, hprinted⟩ := h hitem hscanned hfinite.1
    obtain ⟨hcomma, hbetween⟩ := List.forall_mem_cons.1 (List.forall_mem_append.1 hscanned).2
    obtain ⟨taken', rfl, hprinted'⟩ := ih hbetween hfinite.2
    -- Behind a comma there is another item.
    have hne : es ≠ [] := by
      cases hes <;> exact List.cons_ne_nil _ _
    exact ⟨taken ++ comma :: taken', by simp, .cons hprinted hcomma hk hprinted' hne⟩

/-- A list may be empty. -/
theorem Reprints.listed (h : Reprints Item) : ReprintsAll (Listed Item) := by
  intro tokens rest es hes hscanned hfinite
  cases hes with
  | none tokens => exact ⟨[], rfl, .nil⟩
  | some hes _ => exact h.separated hes hscanned hfinite

/-- What is called comes first, and then its arguments. -/
theorem Reprints.calls (he : Reprints Expression) : Reprints (Calls Expression) := by
  intro tokens rest e h
  induction h with
  | primary h => exact he.primary h
  | @call tokens between rest opening closing callee arguments _ hopening hlist hclosing ih =>
    intro hscanned hfinite
    have hfinite := Bool.and_eq_true_iff.1 hfinite
    obtain ⟨taken, rfl, hcallee⟩ := ih hscanned hfinite.1
    obtain ⟨hfirst, hbetween⟩ := List.forall_mem_cons.1 (List.forall_mem_append.1 hscanned).2
    obtain ⟨taken', rfl, hprinted⟩ := he.listed hlist hbetween hfinite.2
    have hlast := (List.forall_mem_cons.1 (List.forall_mem_append.1 hbetween).2).1
    exact ⟨taken ++ opening :: (taken' ++ [closing]), by simp,
      hprinted.call hcallee hfirst hopening hlast hclosing⟩

/-- An operator in front, or an operand. -/
theorem Reprints.unaryOr (hi : Reprints Inner) (ho : Reprints Operand) :
    Reprints (UnaryOr Inner Operand) := by
  intro tokens rest e h hscanned hfinite
  cases h with
  | @operator op tokens _ e hk h =>
    obtain ⟨hop, hscanned⟩ := List.forall_mem_cons.1 hscanned
    obtain ⟨taken, rfl, hprinted⟩ := hi h hscanned hfinite
    exact ⟨op :: taken, rfl, hprinted.unary hop hk⟩
  | operand h => exact ho h hscanned hfinite

end

/-- Both languages of expressions are reprinted at every level of nesting. -/
theorem reprints_expression_unary (free : Nat) :
    Reprints (Expression free) ∧ Reprints (Unary free) := by
  induction free with
  | zero => exact ⟨reprints_none, reprints_none.unaryOr reprints_none.calls⟩
  | succ free ih =>
    have he : Reprints (Expression (free + 1)) := ih.1.assignment ih.2
    exact ⟨he, ih.2.unaryOr he.calls⟩

/-- The text of an expression reads as the tokens that the expression was read from. -/
theorem reprints_expression (free : Nat) : Reprints (Expression free) :=
  (reprints_expression_unary free).1

/-! ### Texts that are parsed -/

variable {source : String} {e : Expr}

/-- An expression that was parsed has a text for the words of the text that it was parsed from. -/
theorem exists_isPrinted (h : parseExpression (scan source) = .ok e) (hfinite : e.isFinite = true) :
    ∃ words c, Cursor.Reads (start source) words c ∧ c.next.1.kind = .eof ∧
      scan source = words ++ [c.next.1] ∧ IsPrinted e words := by
  obtain ⟨words, c, hreads, hend, hscan⟩ := scan_eq_append source
  refine ⟨words, c, hreads, hend, hscan, ?_⟩
  have hscanned : ∀ t ∈ words ++ [c.next.1], t.IsScanned :=
    List.forall_mem_append.2 ⟨hreads.forall_mem isScanned_next,
      List.forall_mem_singleton.2 c.isScanned_next⟩
  rw [hscan, parseExpression_eq_ok_iff hend hreads.kind_ne] at h
  obtain ⟨taken, htokens, hprinted⟩ := reprints_expression maxNesting h hscanned hfinite
  rwa [List.append_cancel_right htokens]

/-- Scanning the text of a parsed expression yields the tokens of the first text again, up to
    lines and the spelling of numbers. -/
theorem map_content_scan_source (h : parseExpression (scan source) = .ok e)
    (hfinite : e.isFinite = true) :
    (scan e.source).map Token.content = (scan source).map Token.content := by
  obtain ⟨words, c, -, hend, hscan, hprinted⟩ := exists_isPrinted h hfinite
  obtain ⟨words', line, hreads, hcontents⟩ := hprinted.written.scans [] nofun 1
  rw [List.append_nil] at hreads
  have hlast : (⟨[], line⟩ : Cursor).next.1.kind = .eof := rfl
  have hcontent : c.next.1.content = (Token.eof line).content := by
    have hscanned := c.isScanned_next
    generalize c.next.1 = last at hend hscanned
    cases hscanned <;> cases hend
    rfl
  rw [hscan, scan_of_reads hreads hlast, List.map_append, List.map_append, hcontents,
    List.map_singleton, List.map_singleton, hcontent]
  rfl

/-- In a text without line feeds, all tokens of an expression are on the first line. -/
theorem relabel_onLine_one (h : parseExpression (scan source) = .ok e)
    (hline : '\n' ∉ source.toList) : e.relabel (Token.onLine 1) = e := by
  have hmap : (scan source).map (Token.onLine 1) = scan source := by
    refine (List.map_congr_left fun t ht => ?_).trans (List.map_id _)
    show { t with line := 1 } = t
    rw [← line_eq_of_mem_scan hline t ht]
  have hparsed := parseExpression_map (Token.isRelabelling_onLine 1) (exists_eof_scan source)
  rw [hmap, h] at hparsed
  exact (Except.ok.inj hparsed).symm

/-- **Printing and reading back.** The text of an expression that was parsed, and whose numbers
    are all finite, is parsed as the same expression, up to the lines of its tokens. If there are no
    line feeds in the first text, the lines are the same, too. -/
theorem parseExpression_source (source : String) (e : Expr)
    (h : parseExpression (scan source) = .ok e) (hfinite : e.isFinite = true) :
    ∃ e', parseExpression (scan e.source) = .ok e' ∧
      e'.relabel (Token.onLine 0) = e.relabel (Token.onLine 0) ∧
      ('\n' ∉ source.toList → e' = e) := by
  obtain ⟨words, c, hreads, -, -, hprinted⟩ := exists_isPrinted h hfinite
  have hcontents :=
    parseExpression_map Token.isRelabelling_content (exists_eof_scan e.source)
  rw [map_content_scan_source h hfinite,
    parseExpression_map Token.isRelabelling_content (exists_eof_scan source), h] at hcontents
  cases h' : parseExpression (scan e.source) with
  | error errors =>
    rw [h'] at hcontents
    exact absurd hcontents nofun
  | ok e' =>
    rw [h'] at hcontents
    have hcontent : e.relabel Token.content = e'.relabel Token.content :=
      Except.ok.inj hcontents
    have hfinite' : e'.isFinite = true := by
      rw [← Expr.isFinite_relabel Token.content, ← hcontent, Expr.isFinite_relabel, hfinite]
    obtain ⟨_, _, -, -, -, hprinted'⟩ := exists_isPrinted h' hfinite'
    -- The trees keep no numbers, so forgetting the lines is all that was lost.
    have hlines : e'.relabel (Token.onLine 0) = e.relabel (Token.onLine 0) := by
      rw [← hprinted'.relabel_eq, ← hcontent, hprinted.relabel_eq]
    refine ⟨e', rfl, hlines, fun hline => ?_⟩
    -- The line feeds of the second text are those of tokens of the first one.
    have hline' : '\n' ∉ e.source.toList := by
      intro hmem
      obtain ⟨t, ht, hmem⟩ := hprinted.written.lineFeed hmem
      exact hline (hreads.mem_of_mem.1 t ht hmem)
    -- Without line feeds, both trees are on the first line altogether.
    have hcomp : Token.onLine 1 ∘ Token.onLine 0 = Token.onLine 1 := rfl
    calc e' = e'.relabel (Token.onLine 1) := (relabel_onLine_one h' hline').symm
      _ = (e'.relabel (Token.onLine 0)).relabel (Token.onLine 1) := by
        rw [Expr.relabel_relabel, hcomp]
      _ = (e.relabel (Token.onLine 0)).relabel (Token.onLine 1) := by rw [hlines]
      _ = e.relabel (Token.onLine 1) := by rw [Expr.relabel_relabel, hcomp]
      _ = e := relabel_onLine_one h hline

/-- A text with all kinds of layout, and what is left of it. -/
theorem parseExpression_source_layout :
    ∃ e e', parseExpression (scan "- -a(1.50,2)//b") = .ok e ∧ e.source = "- -a(1.5, 2)" ∧
      parseExpression (scan e.source) = .ok e' ∧ e' = e := by
  have hfinite : (parseExpression (scan "- -a(1.50,2)//b")).toOption.any Expr.isFinite = true := by
    decide +kernel
  have hsource : (parseExpression (scan "- -a(1.50,2)//b")).toOption.map Expr.source =
      some "- -a(1.5, 2)" := by
    decide +kernel
  cases h : parseExpression (scan "- -a(1.50,2)//b") with
  | error errors =>
    rw [h] at hfinite
    exact absurd hfinite Bool.false_ne_true
  | ok e =>
    rw [h] at hfinite hsource
    obtain ⟨e', hparsed, -, heq⟩ := parseExpression_source "- -a(1.50,2)//b" e h hfinite
    exact ⟨e, e', rfl, Option.some.inj hsource, hparsed, heq (by decide)⟩

end Grammar

end Lox
