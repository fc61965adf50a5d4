import TableSchema.Run.Request

/-!
# Choices

What can be chosen on the command line as well as in a settings file, and the request that the
choices come to. A choice on the command line hides that in the file, even if it is empty; of the
two lists of table names an empty one hides nothing.

There is no request without a driver and a data source. A choice that is empty counts as none, and
without a format the output is JSON.
-/

namespace TableSchema.Run

open Catalog Schema Source

/-- The choices of a single text. -/
inductive Setting where
  | driver
  | dataSource
  | format
  | outdir
  | dialect
  | idTemplate
  | title
  deriving DecidableEq, Repr

namespace Setting

/-- The name of a setting. -/
def text : Setting → String
  | driver => "driver"
  | dataSource => "dburl"
  | format => "format"
  | outdir => "outdir"
  | dialect => "schematype"
  | idTemplate => "idtemplate"
  | title => "title"

/-- Every setting. -/
def all : List Setting := [driver, dataSource, format, outdir, dialect, idTemplate, title]

/-- The setting with a name. -/
def ofText? (name : String) : Option Setting := all.find? fun s => s.text == name

end Setting

/-- The choices that have been made. -/
structure Choices where
  /-- what has been chosen for each setting -/
  value : Setting → Option String := fun _ => none
  /-- the tables to keep -/
  includes : List String := []
  /-- the tables to drop -/
  excludes : List String := []

namespace Choices

/-- The choices with a setting chosen anew. -/
def set (c : Choices) (s : Setting) (value : String) : Choices :=
  { c with value := fun s' => if s' = s then some value else c.value s' }

/-- Choices, and other choices where there are none. -/
def orElse (c other : Choices) : Choices where
  value s := (c.value s).or (other.value s)
  includes := if c.includes.isEmpty then other.includes else c.includes
  excludes := if c.excludes.isEmpty then other.excludes else c.excludes

/-- The format of the output. -/
def format (c : Choices) : Except GeneratorError Format :=
  match given? (c.value .format) with
  | some name => Format.ofText name
  | none => .ok .json

/-- The request that choices come to, with the meanings of type names that come before those of the
driver. -/
def request? (c : Choices) (overrides : OrderedMap ColumnType) :
    Except GeneratorError (Option Request) :=
  match given? (c.value .driver), given? (c.value .dataSource) with
  | some driver, some dataSource => do
    let format ← c.format
    return some {
      connection := { driver, dataSource, overrides }
      settings := {
        format
        outdir := c.value .outdir
        dialect := c.value .dialect
        idTemplate := c.value .idTemplate
        title := c.value .title }
      filter := { includes := c.includes, excludes := c.excludes } }
  | _, _ => .ok none

end Choices

end TableSchema.Run
