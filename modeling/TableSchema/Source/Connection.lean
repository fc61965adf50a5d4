import TableSchema.Catalog.TypeTable
import TableSchema.Source.Error

/-!
# Connections

Which database to read, and what its type names mean: the driver has a built-in type table, and a
connection can add meanings to it or replace them.
-/

namespace TableSchema.Source

open Catalog

/-- The kinds of databases. -/
inductive Driver where
  | sqlite
  | mysql
  deriving DecidableEq, Repr

namespace Driver

/-- The name of a driver. -/
def text : Driver → String
  | sqlite => "sqlite3"
  | mysql => "mysql"

/-- Every driver. -/
def all : List Driver := [sqlite, mysql]

/-- The driver with a name. -/
def ofText? (name : String) : Option Driver := all.find? fun d => d.text == name

/-- The built-in type table of a driver. -/
def types : Driver → TypeTable
  | sqlite => .sqlite
  | mysql => .mysql

end Driver

/-- Which database to read, and with which type names. -/
structure Connection where
  /-- the name of the driver -/
  driver : String
  /-- the file or the address of the database -/
  dataSource : String
  /-- meanings of type names that come before those of the driver -/
  overrides : OrderedMap ColumnType := .empty
  deriving DecidableEq, Repr

namespace Connection

/-- The driver of a connection. -/
def resolveDriver (c : Connection) : Except SourceError Driver :=
  match Driver.ofText? c.driver with
  | some d => .ok d
  | none => .error (.unknownDriver c.driver)

/-- The type table of a connection. -/
def typeTable (c : Connection) : Except SourceError TypeTable := do
  return (← c.resolveDriver).types.extend c.overrides.entries

end Connection

end TableSchema.Source
