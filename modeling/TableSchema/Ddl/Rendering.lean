import TableSchema.Ddl.Grammar
import TableSchema.Ddl.LexicalGrammar

/-!
# Statements as text

A text for a statement: its words and marks with a space between each two. Every name stands
between quotes, of a kind that does not occur in it; one text prefers double quotes.

A statement is *well formed* if such a text says what the statement says: its numbers are numbers,
its strings hold no quote, each of its names lacks one of the two quotes of names, and lists that
the grammar wants to hold something are not empty.
-/

namespace TableSchema.Ddl

/-! ## Lists of kinds -/

/-- Lists of kinds with a comma between each two. -/
def commaKinds : List (List TokenKind) → List TokenKind
  | [] => []
  | [kinds] => kinds
  | kinds :: more => kinds ++ .symbol .comma :: commaKinds more

/-- Kinds between parentheses. -/
def parenthesizedKinds (kinds : List TokenKind) : List TokenKind :=
  .symbol .leftParen :: kinds ++ [.symbol .rightParen]

/-- Names between parentheses. -/
def nameKinds (names : List String) : List TokenKind :=
  parenthesizedKinds (commaKinds (names.map fun n => [.identifier n]))

/-! ## Parts -/

/-- The kind of a default value. -/
def DefaultValue.tokenKind : DefaultValue → TokenKind
  | identifier name => .identifier name
  | number text => .number text
  | string text => .string text
  | null => .keyword .null

/-- The kinds of a modifier. -/
def Modifier.kinds : Modifier → List TokenKind
  | notNull => [.keyword .not, .keyword .null]
  | default value => [.keyword .default, value.tokenKind]
  | autoIncrement => [.keyword .autoIncrement]

/-- The kinds of what follows the name of a type. -/
def argumentKinds (arguments : List String) : List TokenKind :=
  if arguments.isEmpty then []
  else parenthesizedKinds (commaKinds (arguments.map fun n => [.number n]))

/-- The kinds of a column. -/
def Column.kinds (c : Column) : List TokenKind :=
  [.identifier c.name, .identifier c.type.name] ++ argumentKinds c.type.arguments ++
    c.modifiers.flatMap Modifier.kinds

/-- The kinds of a reference. -/
def TableReference.kinds (r : TableReference) : List TokenKind :=
  .identifier r.table :: nameKinds r.columns

/-- The kinds of a foreign key. -/
def ForeignKey.kinds (k : ForeignKey) : List TokenKind :=
  [.keyword .foreign, .keyword .key] ++ nameKinds k.columns ++
    .keyword .references :: k.references.kinds

/-- The kinds of the reference that a constraint may say. -/
def referenceKinds : Option TableReference → List TokenKind
  | some r => .keyword .references :: r.kinds
  | none => []

/-- The kinds of a named constraint. -/
def NamedConstraint.kinds (c : NamedConstraint) : List TokenKind :=
  [.keyword .constraint, .identifier c.name, .keyword (Grammar.constraintWord c.kind),
      .keyword .key] ++
    nameKinds c.columns ++ referenceKinds c.references

/-- The kind of a value that a check allows. -/
def CheckValue.tokenKind : CheckValue → TokenKind
  | number text => .number text
  | string text => .string text

/-- The kinds of a check. -/
def Check.kinds (c : Check) : List TokenKind :=
  .keyword .check :: parenthesizedKinds ([.identifier c.column, .keyword .in_] ++
    parenthesizedKinds (commaKinds (c.values.map fun v => [v.tokenKind])))

/-- The kinds of a clause. -/
def Clause.kinds : Clause → List TokenKind
  | column d => d.kinds
  | primaryKey names => [.keyword .primary, .keyword .key] ++ nameKinds names
  | foreignKey k => k.kinds
  | constraint c => c.kinds
  | check c => c.kinds

/-! ## Statements -/

namespace Statement

/-- One clause for the unnamed primary keys, if there are any. -/
def primaryKeyClauses (s : Statement) : List (List String) :=
  if s.primaryKey.isEmpty then [] else [s.primaryKey]

/-- The kinds of the words and marks of a statement. -/
def kinds (s : Statement) : List TokenKind :=
  [.keyword .create, .keyword .table] ++ Grammar.existenceWords s.ifNotExists ++
    .identifier s.table :: parenthesizedKinds
      (commaKinds ((Grammar.groupedClauses s s.primaryKeyClauses).map Clause.kinds))

end Statement

/-! ## Words -/

/-- How the kinds of tokens are written. A name has two spellings, if it lacks both quotes. -/
inductive WrittenAs : TokenKind → List Char → Prop where
  | keyword (k : Keyword) : WrittenAs (.keyword k) k.text.toList
  | symbol (mark : Symbol) : WrittenAs (.symbol mark) mark.text.toList
  | identifier {quote : Char} {name : String} :
    quote = '"' ∨ quote = '\x60' → quote ∉ name.toList →
      WrittenAs (.identifier name) (quote :: name.toList ++ [quote])
  | number (text : String) : WrittenAs (.number text) text.toList
  | string (text : String) : WrittenAs (.string text) ('\'' :: text.toList ++ ['\''])

/-- Words for some kinds with a space between each two. -/
inductive SpacedAs : List TokenKind → List Char → Prop where
  | single {k : TokenKind} {word : List Char} : WrittenAs k word → SpacedAs [k] word
  | more {k : TokenKind} {ks : List TokenKind} {word text : List Char} :
    WrittenAs k word → SpacedAs ks text → SpacedAs (k :: ks) (word ++ ' ' :: text)

/-- The word for a kind, with double quotes around a name that lacks them. -/
def TokenKind.word : TokenKind → List Char
  | keyword k => k.text.toList
  | symbol mark => mark.text.toList
  | identifier name =>
    let quote := if '"' ∈ name.toList then '\x60' else '"'
    quote :: name.toList ++ [quote]
  | number text => text.toList
  | string text => '\'' :: text.toList ++ ['\'']
  | endOfInput => []

/-- A text for a statement. -/
def Statement.render (s : Statement) : String :=
  String.ofList ([' '].intercalate (s.kinds.map TokenKind.word))

/-! ## Well-formed statements -/

/-- A name that can be quoted. -/
def WellFormedName (name : String) : Prop := '"' ∉ name.toList ∨ '\x60' ∉ name.toList

/-- A spelling of a number. -/
def WellFormedNumber (text : String) : Prop := LexicalGrammar.IsNumber text.toList

/-- The text of a string. -/
def WellFormedString (text : String) : Prop := '\'' ∉ text.toList

/-- Names that can be quoted, at least one. -/
def WellFormedNames (names : List String) : Prop := names ≠ [] ∧ ∀ n ∈ names, WellFormedName n

/-- A kind of token that can be written. -/
def TokenKind.WellFormed : TokenKind → Prop
  | identifier name => WellFormedName name
  | number text => WellFormedNumber text
  | string text => WellFormedString text
  | keyword _ | symbol _ => True
  | endOfInput => False

/-- A default value that can be written. -/
def DefaultValue.WellFormed : DefaultValue → Prop
  | identifier name => WellFormedName name
  | number text => WellFormedNumber text
  | string text => WellFormedString text
  | null => True

/-- A modifier that can be written. -/
def Modifier.WellFormed : Modifier → Prop
  | default value => value.WellFormed
  | notNull | autoIncrement => True

/-- A column that can be written. -/
def Column.WellFormed (c : Column) : Prop :=
  WellFormedName c.name ∧ WellFormedName c.type.name ∧ c.type.arguments.length ≤ 2 ∧
    (∀ n ∈ c.type.arguments, WellFormedNumber n) ∧ ∀ m ∈ c.modifiers, m.WellFormed

/-- A reference that can be written. -/
def TableReference.WellFormed (r : TableReference) : Prop :=
  WellFormedName r.table ∧ WellFormedNames r.columns

/-- A foreign key that can be written. -/
def ForeignKey.WellFormed (k : ForeignKey) : Prop :=
  WellFormedNames k.columns ∧ k.references.WellFormed

/-- A named constraint that can be written. -/
def NamedConstraint.WellFormed (c : NamedConstraint) : Prop :=
  WellFormedName c.name ∧ WellFormedNames c.columns ∧ ∀ r ∈ c.references, r.WellFormed

/-- A value of a check that can be written. -/
def CheckValue.WellFormed : CheckValue → Prop
  | number text => WellFormedNumber text
  | string text => WellFormedString text

/-- A check that can be written. -/
def Check.WellFormed (c : Check) : Prop :=
  WellFormedName c.column ∧ c.values ≠ [] ∧ ∀ v ∈ c.values, v.WellFormed

/-- A clause that can be written. -/
def Clause.WellFormed : Clause → Prop
  | column d => d.WellFormed
  | primaryKey names => WellFormedNames names
  | foreignKey k => k.WellFormed
  | constraint c => c.WellFormed
  | check c => c.WellFormed

/-- A statement that can be written. -/
def Statement.WellFormed (s : Statement) : Prop :=
  WellFormedName s.table ∧ s.columns ≠ [] ∧ (∀ c ∈ s.columns, c.WellFormed) ∧
    (∀ n ∈ s.primaryKey, WellFormedName n) ∧ (∀ k ∈ s.foreignKeys, k.WellFormed) ∧
    (∀ c ∈ s.constraints, c.WellFormed) ∧ ∀ c ∈ s.checks, c.WellFormed

end TableSchema.Ddl
