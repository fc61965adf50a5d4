import TableSchema.Catalog.Pool
import TableSchema.Source.Error
import TableSchema.Text.Pattern

/-!
# The catalog of a database file

A SQLite database lists what it holds in a catalog, a row for each table, index, view and trigger
with the text that defined it. The user's tables are the rows of type `table` but for those of the
database itself, whose names start with `sqlite_` in capital or small letters.

The definitions are independent of one another, so they can be read side by side. All are read
before the first failure in the order of the catalog is reported.
-/

namespace TableSchema.Source

open Catalog

/-- A row of a catalog. -/
structure CatalogRow where
  /-- what the row is about: a table, an index, a view or a trigger -/
  type : String
  /-- its name -/
  name : String
  /-- the text that defined it -/
  sql : String
  deriving DecidableEq, Repr

/-- The pattern of the names that are the database's own, where the underscore stands for itself. -/
def reservedNames : String := "sqlite\\_%"

/-- Whether a name is one of the database's own. -/
def isReserved (name : String) : Bool := Text.isLike name reservedNames '\\'

/-- Whether a row is a table of the user. -/
def CatalogRow.isUserTable (row : CatalogRow) : Bool := row.type == "table" && !isReserved row.name

/-- The user's tables in a catalog, in order. -/
def userTables (catalog : List CatalogRow) : List CatalogRow :=
  catalog.filter CatalogRow.isUserTable

/-- The models of tables, in order, with their definitions shared between so many cores. -/
def readDefinitions (cores : Nat) (types : TypeTable) (tables : List CatalogRow) :
    Except SourceError (List Table) :=
  (tables.zip (parseTables cores types (tables.map CatalogRow.sql))).mapM fun (row, result) =>
    result.mapError (.definition row.name)

end TableSchema.Source
