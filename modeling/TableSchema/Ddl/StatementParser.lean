import TableSchema.Ddl.Cursor
import TableSchema.Ddl.Statement

/-!
# Reading statements

The grammar of table definitions, one rule a parser.

```
Statement  := CREATE TABLE [IF NOT EXISTS] name "(" Clauses ")"
Clauses    := Column ("," Clause)*
Clause     := Column | PrimaryKey | ForeignKey | Constraint | Check
Column     := name name ["(" number ["," number] ")"] Modifier*
Modifier   := NOT NULL | NOT_NULL | AUTO_INCREMENT | DEFAULT (Value | "(" Value ")")
PrimaryKey := PRIMARY KEY Names
ForeignKey := FOREIGN KEY Names REFERENCES name Names
Constraint := CONSTRAINT name (PRIMARY | FOREIGN) KEY Names [REFERENCES name Names]
Check      := CHECK "(" name IN "(" (number | string) ("," (number | string))* ")" ")"
Names      := "(" name ("," name)* ")"
```

The clauses come in groups, in the order of the alternatives of `Clause`; a clause that belongs to
a group already left behind is reported at its first token. One token decides each step, so a
failing parser stops at the first token that no statement could have there.
-/

namespace TableSchema.Ddl

namespace Parser

/-- Names between parentheses. -/
def names : Parser (List String) := parenthesized (commaSeparated identifier)

/-- A table name with columns. -/
def tableReference : Parser TableReference := do
  return { table := ← identifier, columns := ← names }

/-! ## Columns -/

/-- The one or two numbers after a type name. -/
def typeArguments : Parser (List String) := do
  let size ← number
  if ← consumeIf (.symbol .comma) then
    return [size, ← number]
  else
    return [size]

/-- A type name with its arguments, if there are any. -/
def typeSpec : Parser TypeSpec := do
  let name ← identifier
  if ← consumeIf (.symbol .leftParen) then
    let arguments ← typeArguments
    symbol .rightParen
    return { name, arguments }
  else
    return { name, arguments := [] }

/-- The value that a token kind stands for after `DEFAULT`. -/
def defaultOfKind? : TokenKind → Option DefaultValue
  | .identifier name => some (.identifier name)
  | .number text => some (.number text)
  | .string text => some (.string text)
  | .keyword .null => some .null
  | _ => none

/-- A value after `DEFAULT`, without parentheses. -/
def bareDefault : Parser DefaultValue := do
  match defaultOfKind? (← current).kind with
  | some value =>
    let _ ← next
    return value
  | none => failExpecting [.identifier "", .number "", .string "", .keyword .null]

/-- A value after `DEFAULT`, with or without parentheses. -/
def defaultValue : Parser DefaultValue := do
  if ← consumeIf (.symbol .leftParen) then
    let value ← bareDefault
    symbol .rightParen
    return value
  else
    bareDefault

/-- A modifier, or nothing where none starts. -/
def modifier? : Parser (Option Modifier) := do
  match (← current).kind with
  | .keyword .not =>
    let _ ← next
    keyword .null
    return some .notNull
  | .keyword .notNull =>
    let _ ← next
    return some .notNull
  | .keyword .default =>
    let _ ← next
    return some (.default (← defaultValue))
  | .keyword .autoIncrement =>
    let _ ← next
    return some .autoIncrement
  | _ => return none

/-- All modifiers of a column. -/
def modifiers : Parser (List Modifier) :=
  collect (fun _ : Unit => return (← modifier?).map (·, ())) ()

/-- The declaration of a column; its name and its type are told apart by their places alone. -/
def column : Parser Column := do
  return { name := ← identifier, type := ← typeSpec, modifiers := ← modifiers }

/-! ## Table clauses -/

/-- An unnamed primary key. -/
def primaryKey : Parser (List String) := do
  keyword .primary
  keyword .key
  names

/-- An unnamed foreign key. -/
def foreignKey : Parser ForeignKey := do
  keyword .foreign
  keyword .key
  let columns ← names
  keyword .references
  return { columns, references := ← tableReference }

/-- The word that says what a named constraint declares. -/
def constraintKind : Parser ConstraintKind := do
  if ← consumeIf (.keyword .primary) then return .primaryKey
  else if ← consumeIf (.keyword .foreign) then return .foreignKey
  else failExpecting [.keyword .primary, .keyword .foreign]

/-- A named constraint. -/
def namedConstraint : Parser NamedConstraint := do
  keyword .constraint
  let name ← identifier
  let kind ← constraintKind
  keyword .key
  let columns ← names
  if ← consumeIf (.keyword .references) then
    return { name, kind, columns, references := some (← tableReference) }
  else
    return { name, kind, columns, references := none }

/-- A value that a check allows. -/
def checkValue : Parser CheckValue := do
  match (← current).kind with
  | .number text =>
    let _ ← next
    return .number text
  | .string text =>
    let _ ← next
    return .string text
  | _ => failExpecting [.number "", .string ""]

/-- A check. -/
def check : Parser Check := do
  keyword .check
  parenthesized do
    let column ← identifier
    keyword .in_
    return { column, values := ← parenthesized (commaSeparated checkValue) }

/-! ## Statements -/

/-- The group of the clause that a token starts. -/
def groupOfKind? : TokenKind → Option ClauseGroup
  | .identifier _ => some .columns
  | .keyword .primary => some .primaryKeys
  | .keyword .foreign => some .foreignKeys
  | .keyword .constraint => some .constraints
  | .keyword .check => some .checks
  | _ => none

/-- A clause of a group. -/
def clause : ClauseGroup → Parser Clause
  | .columns => return .column (← column)
  | .primaryKeys => return .primaryKey (← primaryKey)
  | .foreignKeys => return .foreignKey (← foreignKey)
  | .constraints => return .constraint (← namedConstraint)
  | .checks => return .check (← check)

/-- The clause after a comma, which may not belong to a group before `reached`, and its group. -/
def laterClause (reached : ClauseGroup) : Parser (Clause × ClauseGroup) := do
  let first ← current
  match groupOfKind? first.kind with
  | none =>
    failExpecting [.identifier "", .keyword .primary, .keyword .foreign, .keyword .constraint,
      .keyword .check]
  | some group =>
    if group.rank < reached.rank then throw (.misplaced first)
    else return (← clause group, group)

/-- The clauses of a table, up to the closing parenthesis, which is not consumed. -/
def clauses : Parser (List Clause) := do
  let first ← clause .columns
  let others ← collect
    (fun reached => do
      if ← consumeIf (.symbol .comma) then
        return some (← laterClause reached)
      else
        return none) .columns
  if ← currentIs (.symbol .rightParen) then
    return first :: others
  else
    failExpecting [.symbol .comma, .symbol .rightParen]

/-- The optional `IF NOT EXISTS`. -/
def ifNotExists : Parser Bool := do
  if ← consumeIf (.keyword .if_) then
    keyword .not
    keyword .exists_
    return true
  else
    return false

/-- A `CREATE TABLE` statement, whatever follows it. -/
def createTable : Parser Statement := do
  keyword .create
  keyword .table
  let ifNotExists ← ifNotExists
  let table ← identifier
  symbol .leftParen
  let clauses ← clauses
  symbol .rightParen
  return .ofClauses table ifNotExists clauses

/-- A `CREATE TABLE` statement with nothing after it. -/
def statement : Parser Statement := do
  let s ← createTable
  atEnd
  return s

end Parser

/-- The statement that a list of tokens is. -/
def Statement.ofTokens (tokens : List Token) : Except ParseError Statement :=
  (Parser.statement.runFrom (.ofTokens tokens)).1

end TableSchema.Ddl
