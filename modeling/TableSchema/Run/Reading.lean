import TableSchema.Host.Basic
import TableSchema.Source.Connection

/-!
# Reading the tables of a database

A database file is read through its catalog, a server through a conversation: the names of all
tables first, then the columns of one table after the other. The first failure ends it.

Before a database file is opened, its path is looked up name by name. A name to which nothing leads
is no fault there, because a name after it may take it back.
-/

namespace TableSchema.Run

open Catalog Host Source

variable {m : Type → Type} [Monad m] [Host m]

/-- The length in bytes from which on a path is too long for a database file. -/
def pathLimit : Nat := 512

/-- Whether the way to a database file goes on at a path. -/
def isPassable (path : String) : m Bool := do
  if pathLimit ≤ Text.byteLength path.toList then return false
  match ← Host.probe path with
  | .ok () | .error .notFound => return true
  | .error _ => return false

/-- Looks up the path of a database file, and then the file whose permissions a new one would have.
The root is no place for a database. -/
def lookUp (dataSource : String) (file : DatabasePath) : ExceptT SourceError m Unit := do
  let passable ← file.settlements.allM isPassable
  if !passable || file.path = "/" then throw (.database (.cannotOpen dataSource))
  match file.model with
  | some model => attempt (Host.probe model) fun _ => .database .unreadable
  | none => return ()

/-- The catalog of a database. -/
def readCatalog (dataSource : String) : ExceptT SourceError m (List CatalogRow) := do
  match ← settle (databasePath? dataSource) (.database ∘ .address) with
  | none => return []
  | some file =>
    lookUp dataSource file
    match ← Host.readCatalog file.path with
    | .ok catalog => settle catalog (.database ∘ .contents)
    | .error .isDirectory => throw (.database .unreadable)
    | .error _ => throw (.database (.cannotOpen dataSource))

/-- The tables of a database file. -/
def readDatabase (types : TypeTable) (dataSource : String) :
    ExceptT SourceError m (List Table) := do
  let tables := userTables (← readCatalog dataSource)
  Host.log ⟨.info, s!"Found {tables.length} tables in {dataSource}"⟩
  settle (readDefinitions (← Host.cores) types tables) id

/-- The model of a table of a server. -/
def describeTable (types : TypeTable) (name : String) : ExceptT SourceError m Table := do
  let rows ← attempt (Host.ask (describe name)) .server
  let description ← settle (rows.mapM descriptionOfRow) .server
  settle (tableOfDescription types name description) (.description name)

/-- The tables of a server. -/
def readServer (types : TypeTable) (address : String) : ExceptT SourceError m (List Table) := do
  attempt (Host.connect address) .server
  let rows ← attempt (Host.ask showTables) .server
  let names ← settle (namesOfRows rows) .server
  Host.log ⟨.info, s!"Found {names.length} tables"⟩
  let tables ← names.mapM (describeTable types)
  attempt Host.disconnect .server
  return tables

/-- The tables of the database that a connection leads to. -/
def readTables (c : Connection) : ExceptT SourceError m (List Table) := do
  let driver ← settle c.resolveDriver id
  let types ← settle c.typeTable id
  match driver with
  | .sqlite => readDatabase types c.dataSource
  | .mysql => readServer types c.dataSource

end TableSchema.Run
