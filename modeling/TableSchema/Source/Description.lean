import TableSchema.Catalog.TypeTable
import TableSchema.Document.Json.Value
import TableSchema.Document.Node

/-!
# Described columns

A MySQL server describes a table by a row for each column, with the type of the column in full and
without a definition that would have to be read. A column belongs to the primary key if its key
entry says exactly `PRI`.
-/

namespace TableSchema.Source

open Catalog Document

/-- The description of a column. -/
structure DescribeRow where
  /-- the column name -/
  field : String
  /-- the type name, with its size -/
  dataType : String
  /-- whether the column may be null, in words -/
  null : Option String := none
  /-- the part that the column plays in an index -/
  key : Option String := none
  /-- the default value -/
  default : Option String := none
  /-- what else there is to say -/
  extra : Option String := none
  deriving DecidableEq, Repr

namespace DescribeRow

/-- A description from the six cells of a row; a name or type that is null is empty. -/
def ofCells (field dataType null key default extra : Option String) : DescribeRow :=
  ⟨field.getD "", dataType.getD "", null, key, default, extra⟩

/-- Whether the column belongs to the primary key. -/
def isPrimary (row : DescribeRow) : Bool := row.key == some "PRI"

/-- A description as a document, where what is missing is null. -/
def toNode (row : DescribeRow) : Node :=
  .map [("field", .text row.field), ("data_type", .text row.dataType),
    ("null", .ofText? row.null), ("key", .ofText? row.key), ("default", .ofText? row.default),
    ("extra", .ofText? row.extra)]

/-- A description from its document. -/
def ofValue? (v : Json.Value) : Option DescribeRow := do
  match ← v.record? ["field", "data_type", "null", "key", "default", "extra"] 6 with
  | [some field, some dataType, null, key, default, extra] =>
    return ⟨← field.text?, ← dataType.text?, ← Json.Value.optionalText? null,
      ← Json.Value.optionalText? key, ← Json.Value.optionalText? default,
      ← Json.Value.optionalText? extra⟩
  | _ => none

end DescribeRow

/-- The model of a described table; the first column whose type has no meaning gives the error. -/
def tableOfDescription (types : TypeTable) (name : String) (rows : List DescribeRow) :
    Except UnknownType Table := do
  let fields ← rows.mapM fun row => return ⟨row.field, ← types.resolve row.dataType⟩
  return ⟨name, fields, (rows.filter DescribeRow.isPrimary).map DescribeRow.field⟩

end TableSchema.Source
