import TableSchema.Catalog.TypeTable
import TableSchema.Ddl.Lexer
import TableSchema.Ddl.StatementParser

/-!
# Tables from their definitions

From the text of a `CREATE TABLE` statement to the model of the table, in three stages: tokens,
statement, model. The first stage that fails gives the error.

Only the column names, their types and the unnamed primary key clauses reach the model. Sizes,
modifiers, foreign keys, named constraints and checks have to be well formed and are then dropped.
-/

namespace TableSchema.Catalog

open Ddl

/-- The model of a table definition; the first column whose type has no meaning gives the error. -/
def Table.ofStatement (types : TypeTable) (s : Statement) : Except UnknownType Table := do
  let fields ← s.columns.mapM fun c => return ⟨c.name, ← types.resolve c.type.name⟩
  return ⟨s.table, fields, s.primaryKey⟩

/-- Why a text gives no model. -/
inductive DefinitionError where
  /-- the text is not a sequence of lexemes -/
  | lexical (e : LexicalError)
  /-- the tokens are no statement -/
  | parse (e : ParseError)
  /-- a column type has no meaning -/
  | unknownType (e : UnknownType)
  deriving DecidableEq, Repr

/-- The error in words. The stage is named, except for a type without a meaning. -/
def DefinitionError.message : DefinitionError → String
  | lexical e => s!"Tokenize error: {e.message}"
  | parse e => s!"Parse error: {e.message}"
  | unknownType e => e.message

/-- The model of the table that a text defines. -/
def Table.ofText (types : TypeTable) (text : String) : Except DefinitionError Table := do
  let tokens ← (tokenize text).mapError .lexical
  let s ← (Statement.ofTokens tokens).mapError .parse
  (Table.ofStatement types s).mapError .unknownType

end TableSchema.Catalog
