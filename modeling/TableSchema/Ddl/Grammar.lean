import TableSchema.Ddl.Statement
import TableSchema.Ddl.Token

/-!
# The grammar of table definitions

Which sequences of token kinds spell which parts of a statement, said without a parser. A part can
have several spellings: a modifier may be written in two ways, and a default value with or without
parentheses.

The clauses of a table come in groups whose order is fixed, and the first of them declares a
column. A sequence spells the statement that its clauses make up.
-/

namespace TableSchema.Ddl.Grammar

variable {α : Type}

/-! ## Lists -/

/-- Items with a comma between each two of them. There is at least one. -/
inductive CommaSeparated (item : α → List TokenKind → Prop) : List α → List TokenKind → Prop where
  | single {a : α} {w : List TokenKind} : item a w → CommaSeparated item [a] w
  | more {a : α} {as : List α} {w v : List TokenKind} :
    item a w → CommaSeparated item as v →
      CommaSeparated item (a :: as) (w ++ .symbol .comma :: v)

/-- Something between parentheses. -/
def Parenthesized (inner : α → List TokenKind → Prop) (a : α) (w : List TokenKind) : Prop :=
  ∃ v, inner a v ∧ w = .symbol .leftParen :: v ++ [.symbol .rightParen]

/-- A name. -/
def Name (name : String) (w : List TokenKind) : Prop := w = [.identifier name]

/-- Names between parentheses. -/
def Names : List String → List TokenKind → Prop := Parenthesized (CommaSeparated Name)

/-! ## Columns -/

/-- The size of a type, or its precision and scale, or nothing. -/
inductive TypeArguments : List String → List TokenKind → Prop where
  | none : TypeArguments [] []
  | size (n : String) :
    TypeArguments [n] [.symbol .leftParen, .number n, .symbol .rightParen]
  | precision (n m : String) :
    TypeArguments [n, m]
      [.symbol .leftParen, .number n, .symbol .comma, .number m, .symbol .rightParen]

/-- A value after `DEFAULT`, without parentheses. -/
inductive BareDefault : DefaultValue → List TokenKind → Prop where
  | identifier (name : String) : BareDefault (.identifier name) [.identifier name]
  | number (text : String) : BareDefault (.number text) [.number text]
  | string (text : String) : BareDefault (.string text) [.string text]
  | null : BareDefault .null [.keyword .null]

/-- A modifier of a column. -/
inductive ModifierSpelling : Modifier → List TokenKind → Prop where
  | notNull : ModifierSpelling .notNull [.keyword .not, .keyword .null]
  | notNullWord : ModifierSpelling .notNull [.keyword .notNull]
  | autoIncrement : ModifierSpelling .autoIncrement [.keyword .autoIncrement]
  | default {v : DefaultValue} {w : List TokenKind} :
    BareDefault v w → ModifierSpelling (.default v) (.keyword .default :: w)
  | parenthesizedDefault {v : DefaultValue} {w : List TokenKind} :
    Parenthesized BareDefault v w → ModifierSpelling (.default v) (.keyword .default :: w)

/-- Modifiers one after the other. -/
inductive Modifiers : List Modifier → List TokenKind → Prop where
  | nil : Modifiers [] []
  | cons {m : Modifier} {ms : List Modifier} {w v : List TokenKind} :
    ModifierSpelling m w → Modifiers ms v → Modifiers (m :: ms) (w ++ v)

/-- The declaration of a column. -/
def ColumnSpelling (d : Column) (w : List TokenKind) : Prop :=
  ∃ arguments modifiers,
    TypeArguments d.type.arguments arguments ∧ Modifiers d.modifiers modifiers ∧
      w = [.identifier d.name, .identifier d.type.name] ++ arguments ++ modifiers

/-! ## Clauses -/

/-- A table name with columns. -/
def Reference (r : TableReference) (w : List TokenKind) : Prop :=
  ∃ columns, Names r.columns columns ∧ w = .identifier r.table :: columns

/-- The word that says what a named constraint declares. -/
def constraintWord : ConstraintKind → Keyword
  | .primaryKey => .primary
  | .foreignKey => .foreign

/-- A reference that may be missing. -/
inductive OptionalReference : Option TableReference → List TokenKind → Prop where
  | none : OptionalReference none []
  | some {r : TableReference} {w : List TokenKind} :
    Reference r w → OptionalReference (some r) (.keyword .references :: w)

/-- A value that a check allows. -/
inductive CheckValueSpelling : CheckValue → List TokenKind → Prop where
  | number (text : String) : CheckValueSpelling (.number text) [.number text]
  | string (text : String) : CheckValueSpelling (.string text) [.string text]

/-- What a check says between its parentheses. -/
def CheckBody (c : Check) (w : List TokenKind) : Prop :=
  ∃ values, Parenthesized (CommaSeparated CheckValueSpelling) c.values values ∧
    w = [.identifier c.column, .keyword .in_] ++ values

/-- A clause of a table. -/
inductive ClauseSpelling : Clause → List TokenKind → Prop where
  | column {d : Column} {w : List TokenKind} : ColumnSpelling d w → ClauseSpelling (.column d) w
  | primaryKey {names : List String} {w : List TokenKind} :
    Names names w →
      ClauseSpelling (.primaryKey names) ([.keyword .primary, .keyword .key] ++ w)
  | foreignKey {k : ForeignKey} {w v : List TokenKind} :
    Names k.columns w → Reference k.references v →
      ClauseSpelling (.foreignKey k)
        ([.keyword .foreign, .keyword .key] ++ w ++ .keyword .references :: v)
  | constraint {c : NamedConstraint} {w v : List TokenKind} :
    Names c.columns w → OptionalReference c.references v →
      ClauseSpelling (.constraint c)
        ([.keyword .constraint, .identifier c.name, .keyword (constraintWord c.kind),
          .keyword .key] ++ w ++ v)
  | check {c : Check} {w : List TokenKind} :
    Parenthesized CheckBody c w → ClauseSpelling (.check c) (.keyword .check :: w)

/-! ## Statements -/

/-- The clauses of a table, group after group. The clauses of an unnamed primary key are given
apart, since a statement keeps their columns only. -/
def groupedClauses (s : Statement) (primaryKeys : List (List String)) : List Clause :=
  s.columns.map .column ++ primaryKeys.map .primaryKey ++ s.foreignKeys.map .foreignKey ++
    s.constraints.map .constraint ++ s.checks.map .check

/-- The words that leave an existing table alone, or nothing. -/
def existenceWords (ifNotExists : Bool) : List TokenKind :=
  if ifNotExists then [.keyword .if_, .keyword .not, .keyword .exists_] else []

/-- A statement: at least one column comes first, and then unnamed primary keys, foreign keys, named
constraints and checks, each any number of times. -/
def StatementSpelling (s : Statement) (w : List TokenKind) : Prop :=
  ∃ primaryKeys v,
    s.columns ≠ [] ∧ s.primaryKey = primaryKeys.flatten ∧
      CommaSeparated ClauseSpelling (groupedClauses s primaryKeys) v ∧
      w = [.keyword .create, .keyword .table] ++ existenceWords s.ifNotExists ++
        [.identifier s.table, .symbol .leftParen] ++ v ++ [.symbol .rightParen]

end TableSchema.Ddl.Grammar
