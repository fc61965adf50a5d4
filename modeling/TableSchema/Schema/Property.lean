import TableSchema.Catalog.Table
import TableSchema.OrderedMap

/-!
# Properties

What a schema says about a column, and the properties of a table by name. Where columns of one
table share a name, the last of them counts, in its place.
-/

namespace TableSchema.Schema

open Catalog

/-- What a schema says about a column. -/
structure Property where
  /-- the column name -/
  name : String
  /-- the name of its base type -/
  type : String
  /-- its format -/
  format : Option String
  deriving DecidableEq, Repr

/-- The property that a column gives. -/
def Property.ofField (f : Field) : Property := ⟨f.name, f.type.base.text, f.type.format⟩

/-- Properties by name. -/
abbrev Properties : Type := OrderedMap Property

/-- The properties of a table. -/
def Properties.ofTable (t : Table) : Properties :=
  .ofList (t.fields.map fun f => (f.name, .ofField f))

/-! ## Documents -/

/-- The schema of one table. -/
structure ObjectSchema where
  /-- the dialect that the schema is written in -/
  dialect : String
  /-- the identifier of the document -/
  id : String
  /-- the table name -/
  title : String
  /-- what the schema describes, which is an object -/
  type : String
  /-- the properties of the object -/
  properties : Properties
  deriving DecidableEq, Repr

/-- The properties of several tables in one document. -/
structure Definitions where
  /-- the dialect that the document is written in -/
  dialect : String
  /-- the identifier of the document -/
  id : String
  /-- the title of the document -/
  title : String
  /-- the properties of each table, by table name -/
  definitions : OrderedMap Properties
  deriving DecidableEq, Repr

end TableSchema.Schema
