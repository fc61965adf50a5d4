/-!
# Tokens

The words of a table definition. A token has a *kind*, which is all that the grammar looks at, and
carries its source spelling and its position only for the reader of an error message.

Names and literals carry their payload: the text of a name or of a string without its quotes, and
the source spelling of a number, which is never evaluated.
-/

namespace TableSchema.Ddl

/-! ## Kinds -/

/-- The sixteen reserved words. -/
inductive Keyword where
  | create
  | table
  | primary
  | foreign
  | key
  | constraint
  | references
  | check
  | in_
  | if_
  | not
  | null
  | exists_
  | default
  /-- the one-word modifier of a counting column -/
  | autoIncrement
  /-- the one-word spelling of `NOT NULL` -/
  | notNull
  deriving DecidableEq, Repr

namespace Keyword

/-- The spelling in capitals, which any mixture of cases also stands for. -/
def text : Keyword → String
  | create => "CREATE"
  | table => "TABLE"
  | primary => "PRIMARY"
  | foreign => "FOREIGN"
  | key => "KEY"
  | constraint => "CONSTRAINT"
  | references => "REFERENCES"
  | check => "CHECK"
  | in_ => "IN"
  | if_ => "IF"
  | not => "NOT"
  | null => "NULL"
  | exists_ => "EXISTS"
  | default => "DEFAULT"
  | autoIncrement => "AUTO_INCREMENT"
  | notNull => "NOT_NULL"

/-- Every reserved word. -/
def all : List Keyword :=
  [create, table, primary, foreign, key, constraint, references, check, in_, if_, not, null,
    exists_, default, autoIncrement, notNull]

/-- The reserved word that a bare word spells, whatever the case of its letters. -/
def ofWord? (word : String) : Option Keyword :=
  all.find? fun k => k.text == word.toUpper

end Keyword

/-- Operators and punctuation. -/
inductive Symbol where
  | equals
  | less
  | greater
  | lessEqual
  | greaterEqual
  | notEqual
  | plus
  | minus
  | times
  | divide
  | modulo
  | comma
  | leftParen
  | rightParen
  | dot
  deriving DecidableEq, Repr

/-- The spelling under which a symbol is named in messages. -/
def Symbol.text : Symbol → String
  | equals => "="
  | less => "<"
  | greater => ">"
  | lessEqual => "<="
  | greaterEqual => ">="
  | notEqual => "<>"
  | plus => "+"
  | minus => "-"
  | times => "*"
  | divide => "/"
  | modulo => "%"
  | comma => ","
  | leftParen => "("
  | rightParen => ")"
  | dot => "."

/-- What the grammar sees of a token. -/
inductive TokenKind where
  /-- a reserved word -/
  | keyword (word : Keyword)
  /-- a name, bare or quoted, without its quotes -/
  | identifier (name : String)
  /-- a number, as it is spelled -/
  | number (text : String)
  /-- a string, without its quotes -/
  | string (text : String)
  /-- an operator or a punctuation mark -/
  | symbol (mark : Symbol)
  /-- the end of the text -/
  | endOfInput
  deriving DecidableEq, Repr

namespace TokenKind

/-- How messages name a kind. A name is shown when there is one; numbers and strings are named
by their class alone. -/
def describe : TokenKind → String
  | keyword word => word.text
  | identifier name => if name.isEmpty then "identifier" else s!"identifier \"{name}\""
  | number _ => "number"
  | string _ => "string"
  | symbol mark => s!"'{mark.text}'"
  | endOfInput => "end of input"

/-- Whether a token of the first kind is acceptable where the second is wanted. A wanted name is
compared without regard to the case of ASCII letters, and the empty name stands for any; of
numbers and strings only the class counts. -/
def accepts : (actual wanted : TokenKind) → Bool
  | identifier name, identifier wanted => wanted.isEmpty || name.toLower == wanted.toLower
  | number _, number _ => true
  | string _, string _ => true
  | actual, wanted => actual == wanted

end TokenKind

/-! ## Positions -/

/-- A place in a text: bytes before it, its line, and its column in characters. -/
structure Position where
  /-- the number of bytes before the place -/
  offset : Nat
  /-- the line, counted from one -/
  line : Nat
  /-- the column, counted from one in characters -/
  column : Nat
  deriving DecidableEq, Repr

namespace Position

/-- Where the first character of a text stands. -/
def start : Position := ⟨0, 1, 1⟩

/-- The place after a character, still on that character's line. -/
def past (p : Position) (c : Char) : Position :=
  ⟨p.offset + c.utf8Size, p.line, p.column + 1⟩

/-- Where the character after `c` stands: a line feed starts a new line for what follows it. -/
def next (p : Position) (c : Char) : Position :=
  if c = '\n' then ⟨p.offset + c.utf8Size, p.line + 1, 1⟩ else p.past c

end Position

/-! ## Tokens -/

/-- A token of a text. -/
structure Token where
  /-- what the grammar sees -/
  kind : TokenKind
  /-- the source spelling, quotes included -/
  literal : String
  /-- where the spelling starts -/
  position : Position
  deriving DecidableEq, Repr

namespace Token

/-- How messages show a token: its kind, its spelling and its place. -/
def describe (t : Token) : String :=
  let place := s!"at line {t.position.line}, column {t.position.column}"
  match t.kind with
  | .endOfInput => s!"{t.kind.describe} {place}"
  | _ => s!"{t.kind.describe} `{t.literal}` {place}"

/-- Whether the token marks the end of the text. -/
def isEnd (t : Token) : Bool := t.kind == .endOfInput

end Token

end TableSchema.Ddl
