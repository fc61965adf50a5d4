/-!
# Tables

The model of a table, which is all that schemas are made from: its name, its columns with a base
type and an optional format each, and the names of its primary key columns.
-/

namespace TableSchema.Catalog

/-! ## Column types -/

/-- The types of values that a schema tells apart. -/
inductive BaseType where
  | number
  | string
  | boolean
  deriving DecidableEq, Repr

namespace BaseType

/-- The name of a base type in a schema. -/
def text : BaseType → String
  | number => "number"
  | string => "string"
  | boolean => "boolean"

/-- Every base type. -/
def all : List BaseType := [number, string, boolean]

/-- The base type with a name. -/
def ofText? (name : String) : Option BaseType := all.find? fun b => b.text == name

@[simp] theorem ofText?_text (b : BaseType) : ofText? b.text = some b := by cases b <;> decide

/-- Why a text names no base type. -/
def unknownMessage (name : String) : String := s!"Unknown base type: {name}"

end BaseType

/-- The type of a column: a base type, refined by a format such as `date-time`. -/
structure ColumnType where
  /-- the base type -/
  base : BaseType
  /-- the refinement, where an empty one is still one -/
  format : Option String := none
  deriving DecidableEq, Repr

/-- A column type in words: the format follows in parentheses. -/
def ColumnType.describe (t : ColumnType) : String :=
  match t.format with
  | some format => s!"{t.base.text} ({format})"
  | none => t.base.text

/-! ## Tables -/

/-- A column of a table. -/
structure Field where
  /-- the column name -/
  name : String
  /-- its type -/
  type : ColumnType
  deriving DecidableEq, Repr

/-- A table. Column names may repeat, and primary key columns need not be among them. -/
structure Table where
  /-- the table name -/
  name : String
  /-- the columns, in order -/
  fields : List Field
  /-- the names of the primary key columns, in order -/
  primaryKeys : List String
  deriving DecidableEq, Repr

end TableSchema.Catalog
