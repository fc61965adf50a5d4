import TableSchema.Catalog.Definition
import TableSchema.Source.DataSource

/-!
# Errors of a source

Why the tables of a database cannot be read. An error is told in levels: the first says all in one
line, and each further one is the cause of the one before, in its own words.
-/

namespace TableSchema.Catalog

/-- A definition error and its causes. A type without a meaning has no cause but itself. -/
def DefinitionError.levels (e : DefinitionError) : List String :=
  match e with
  | lexical i => [e.message, i.message]
  | parse i => [e.message, i.message]
  | unknownType _ => [e.message]

end TableSchema.Catalog

namespace TableSchema.Source

open Catalog

/-- What is wrong with the contents of a database file. -/
inductive ContentFault where
  /-- the file is no database -/
  | notADatabase
  /-- parts of the database are missing or make no sense -/
  | malformed
  /-- the catalog is written in a way that is not known -/
  | unknownFormat
  deriving DecidableEq, Repr

namespace ContentFault

/-- The fault in words. -/
def message : ContentFault → String
  | notADatabase => "file is not a database"
  | malformed => "database disk image is malformed"
  | unknownFormat => "unsupported file format"

/-- The fault as a result code with its meaning. -/
def code : ContentFault → String
  | notADatabase => "Error code 26: File opened that is not a database file"
  | malformed => "Error code 11: The database disk image is malformed"
  | unknownFormat => "Error code 1: SQL logic error"

end ContentFault

/-- Why a database file cannot be read. -/
inductive DatabaseFault where
  /-- no file can be looked for at the data source -/
  | address (fault : AddressFault)
  /-- no file can be opened at the data source -/
  | cannotOpen (dataSource : String)
  /-- something is wrong with the contents of the file -/
  | contents (fault : ContentFault)
  /-- the file cannot be read -/
  | unreadable
  deriving DecidableEq, Repr

namespace DatabaseFault

/-- The fault in words. -/
def message : DatabaseFault → String
  | address fault => fault.message
  | cannotOpen dataSource => s!"unable to open database file: {dataSource}"
  | contents fault => fault.message
  | unreadable => "disk I/O error"

/-- The fault as a result code with its meaning. -/
def code : DatabaseFault → String
  | address fault => fault.code
  | cannotOpen _ => "Error code 14: Unable to open the database file"
  | contents fault => fault.code
  | unreadable => "Error code 10: Some kind of disk I/O error occurred"

end DatabaseFault

/-- Why the tables of a database cannot be read. -/
inductive SourceError where
  /-- no driver has this name -/
  | unknownDriver (name : String)
  /-- a database file cannot be read -/
  | database (fault : DatabaseFault)
  /-- a server does not answer, or not in the expected form -/
  | server (reason : String)
  /-- a stored definition cannot be read -/
  | definition (table : String) (e : DefinitionError)
  /-- a described column has a type without a meaning -/
  | description (table : String) (e : UnknownType)
  deriving DecidableEq, Repr

namespace SourceError

/-- The error in words. -/
def message : SourceError → String
  | unknownDriver name => s!"Unknown driver: {name}"
  | database fault => s!"SQLite error: {fault.message}"
  | server reason => s!"MySQL error: {reason}"
  | definition table e => s!"Failed to read table {table}: {e.message}"
  | description table e => s!"Failed to describe table {table}: {e.message}"

/-- The error and its causes. -/
def levels (e : SourceError) : List String :=
  match e with
  | unknownDriver _ => [e.message]
  | database fault => [e.message, fault.message, fault.code]
  | server reason => [e.message, reason]
  | definition _ i => e.message :: i.levels
  | description _ i => [e.message, i.message]

end SourceError

end TableSchema.Source
