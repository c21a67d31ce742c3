namespace Lox

/-!
# Tokens

The words of a program text. A token keeps its spelling (`lexeme`) and the line it starts on, and
for strings and numbers also the value it stands for. A text that is no token at all becomes a
token of kind `invalid`, so that scanning never fails and the parser reports the error.

* `Symbol`, `Keyword` — the fixed words, with their spellings.
* `Keyword.ofWord?` — the keyword of a given spelling.
* `Token.Kind`, `Token` — the classification of words, and the words themselves.
* `Keyword.ofWord?_spelling` — each keyword is found by its spelling.
-/

/-- Why a piece of text is no token. -/
inductive LexicalError
  | undefinedToken
  | unterminatedString
deriving DecidableEq, Repr

/-- The wording of a lexical error. -/
def LexicalError.message : LexicalError → String
  | .undefinedToken => "undefined token"
  | .unterminatedString => "unterminated string."

/-! ### Symbols and keywords -/

/-- Punctuation and operators. -/
inductive Symbol
  | leftParen | rightParen | leftBrace | rightBrace
  | comma | dot | minus | plus | semicolon | slash | star
  | bang | bangEqual | equal | equalEqual
  | greater | greaterEqual | less | lessEqual
deriving DecidableEq, Repr

/-- The characters of a symbol. -/
def Symbol.chars : Symbol → List Char
  | .leftParen => ['('] | .rightParen => [')']
  | .leftBrace => ['\x7b'] | .rightBrace => ['\x7d']
  | .comma => [','] | .dot => ['.'] | .minus => ['-'] | .plus => ['+']
  | .semicolon => [';'] | .slash => ['/'] | .star => ['*']
  | .bang => ['!'] | .bangEqual => ['!', '=']
  | .equal => ['='] | .equalEqual => ['=', '=']
  | .greater => ['>'] | .greaterEqual => ['>', '=']
  | .less => ['<'] | .lessEqual => ['<', '=']

theorem Symbol.length_chars_pos (s : Symbol) : 0 < s.chars.length := by
  cases s <;> decide

/-- The spelling of a symbol. -/
def Symbol.spelling (s : Symbol) : String := String.ofList s.chars

/-- All symbols, those of two characters first: the first that fits a text is then the longest. -/
def Symbol.all : List Symbol :=
  [.bangEqual, .equalEqual, .greaterEqual, .lessEqual,
   .leftParen, .rightParen, .leftBrace, .rightBrace, .comma, .dot, .minus, .plus, .semicolon,
   .slash, .star, .bang, .equal, .greater, .less]

theorem Symbol.mem_all (s : Symbol) : s ∈ Symbol.all := by
  cases s <;> decide

/-- The longest symbol a text starts with. -/
def Symbol.ofFront? (cs : List Char) : Option Symbol :=
  Symbol.all.find? fun s => s.chars.isPrefixOf cs

/-- Reserved words. The names end in an underscore because most of the words are reserved here,
    too. -/
inductive Keyword
  | and_ | class_ | else_ | false_ | for_ | fun_ | if_ | nil_ | or_ | print_ | return_ | super_
  | this_ | true_ | var_ | while_
deriving DecidableEq, Repr

/-- The spelling of a keyword. -/
def Keyword.spelling : Keyword → String
  | .and_ => "and" | .class_ => "class" | .else_ => "else" | .false_ => "false"
  | .for_ => "for" | .fun_ => "fun" | .if_ => "if" | .nil_ => "nil" | .or_ => "or"
  | .print_ => "print" | .return_ => "return" | .super_ => "super" | .this_ => "this"
  | .true_ => "true" | .var_ => "var" | .while_ => "while"

/-- All keywords, in alphabetical order. -/
def Keyword.all : List Keyword :=
  [.and_, .class_, .else_, .false_, .for_, .fun_, .if_, .nil_, .or_, .print_, .return_, .super_,
   .this_, .true_, .var_, .while_]

theorem Keyword.mem_all (k : Keyword) : k ∈ Keyword.all := by
  cases k <;> decide

/-- The keyword spelled `word`, if there is one. -/
def Keyword.ofWord? (word : String) : Option Keyword :=
  Keyword.all.find? fun k => k.spelling == word

theorem Keyword.ofWord?_spelling (k : Keyword) : Keyword.ofWord? k.spelling = some k := by
  cases k <;> decide

/-- Keywords that open a statement. Recovery from a syntax error stops in front of them, but it
    begins behind the token at which the error is: that one is discarded, even if it is one of
    them. -/
def Keyword.startsStatement : Keyword → Bool
  | .class_ | .fun_ | .var_ | .for_ | .if_ | .while_ | .print_ | .return_ => true
  | _ => false

/-! ### Tokens -/

/-- The classification of tokens. -/
inductive Token.Kind
  /-- The end of the text. -/
  | eof
  | symbol (symbol : Symbol)
  | identifier
  | string
  | number
  | keyword (keyword : Keyword)
  /-- A piece of text that is no token. -/
  | invalid (cause : LexicalError)
deriving DecidableEq, Repr

instance : Coe Symbol Token.Kind := ⟨.symbol⟩

instance : Coe Keyword Token.Kind := ⟨.keyword⟩

namespace Token.Kind

/-- How a kind of token is named to a user. -/
def describe : Token.Kind → String
  | .eof => "EOF"
  | .symbol s => s.spelling
  | .identifier => "identifier"
  | .string => "string"
  | .number => "number"
  | .keyword k => k.spelling
  | .invalid cause => "invalid token (" ++ cause.message ++ ")"

/-- Whether a token of this kind opens a statement. Recovery from an error stops in front of such a
    token, but not if it is the token at which the error is: that one is discarded. -/
def startsStatement : Token.Kind → Bool
  | .keyword k => k.startsStatement
  | _ => false

end Token.Kind

/-- The value that a number or string token stands for. Equality of literals compares numbers as
    numbers: the two zeros are equal, and what is not a number differs from itself. -/
inductive Literal
  | number (value : Float)
  | string (value : String)
deriving BEq

/-- A word of a program text. Lines are numbers of any size here: the tokens are those of texts
    with fewer than `2 ^ 32 - 1` line feeds, whose lines fit into 32 bits. -/
structure Token where
  kind : Token.Kind
  /-- The spelling, as it stands in the text. -/
  lexeme : String
  /-- The line on which the token starts, from one on. -/
  line : Nat
  /-- The value of a number or a string. -/
  literal : Option Literal := none
deriving BEq

namespace Token

/-- The end of the text, met on line `line`. -/
def eof (line : Nat) : Token := ⟨.eof, "", line, none⟩

@[simp] theorem kind_eof (line : Nat) : (Token.eof line).kind = .eof := rfl

/-- How a token is named to a user: its spelling in quotes, or `end`. -/
def describe (t : Token) : String :=
  match t.kind with
  | .eof => "end"
  | _ => "'" ++ t.lexeme ++ "'"

end Token

end Lox
