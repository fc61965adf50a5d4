import TableSchema.Run.Publishing
import TableSchema.Run.Reading

/-!
# Requests

A request says which database to read, which of its tables to keep and how to publish them. All
tables are read before any is dropped, so a table that cannot be read fails the request even if the
filters would have dropped it.
-/

namespace TableSchema.Run

open Catalog Host Schema Source

/-! ## Filters -/

/-- Which tables to keep, by name. -/
structure Filter where
  /-- the tables to keep, where none stands for all -/
  includes : List String := []
  /-- the tables to drop, even if they are also to be kept -/
  excludes : List String := []
  deriving DecidableEq, Repr

namespace Filter

/-- Whether a name is kept. -/
def keeps (f : Filter) (name : String) : Bool :=
  (f.includes.isEmpty || f.includes.contains name) && !f.excludes.contains name

/-- The tables that are kept, in order. A filter without names is not asked. -/
def apply (f : Filter) (tables : List Table) : List Table :=
  if f.includes.isEmpty && f.excludes.isEmpty then tables
  else tables.filter fun t => f.keeps t.name

end Filter

/-! ## Requests -/

/-- A database, a filter and settings. -/
structure Request where
  /-- the database to read -/
  connection : Connection
  /-- how to publish -/
  settings : Settings := {}
  /-- the tables to keep -/
  filter : Filter := {}
  deriving DecidableEq, Repr

/-- Why a request fails. -/
inductive RequestError where
  /-- the tables cannot be read -/
  | source (e : SourceError)
  /-- the schemas cannot be made or written -/
  | generator (e : GeneratorError)
  deriving DecidableEq, Repr

namespace RequestError

/-- The error in words. -/
def message : RequestError → String
  | source e => e.message
  | generator e => e.message

/-- The error and its causes. -/
def levels : RequestError → List String
  | source e => e.levels
  | generator e => e.levels

end RequestError

variable {m : Type → Type} [Monad m] [Host m]

/-- Reads, filters and publishes. -/
def Request.perform (r : Request) : ExceptT RequestError m Unit := do
  let tables ← attempt (readTables r.connection).run .source
  let kept := r.filter.apply tables
  if !tables.isEmpty && kept.isEmpty then
    Host.log ⟨.warn, s!"Filters excluded all {tables.length} tables"⟩
  attempt (publish r.settings kept).run .generator

end TableSchema.Run
