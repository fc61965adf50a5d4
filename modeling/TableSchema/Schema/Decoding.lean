import TableSchema.Document.Json.Reading
import TableSchema.Schema.Property

/-!
# Tables and schemas from their documents

How tables, their parts and their schemas are read back from JSON. Each is a record whose parts
have the names under which they are written; a format may be missing or `null`. The base type of a
column may also stand as the only key of an object with the value `null`.

In the maps of properties and definitions a repeated name counts where it stands last.
-/

namespace TableSchema

open Document.Json

namespace Catalog

/-- A base type from its name. -/
def BaseType.ofValue? : Value → Option BaseType
  | .string (some name) => ofText? name
  | .map [(some name, .null)] => ofText? name
  | _ => none

/-- A column type from its document. -/
def ColumnType.ofValue? (v : Value) : Option ColumnType := do
  match ← v.record? ["type", "format"] 1 with
  | [some base, format] => return ⟨← BaseType.ofValue? base, ← Value.optionalText? format⟩
  | _ => none

/-- A column from its document. -/
def Field.ofValue? (v : Value) : Option Field := do
  match ← v.record? ["name", "type"] 2 with
  | [some name, some type] => return ⟨← name.text?, ← ColumnType.ofValue? type⟩
  | _ => none

/-- A table from its document. -/
def Table.ofValue? (v : Value) : Option Table := do
  match ← v.record? ["name", "fields", "primary_keys"] 3 with
  | [some name, some fields, some keys] =>
    return ⟨← name.text?, ← fields.listOf? Field.ofValue?, ← keys.listOf? Value.text?⟩
  | _ => none

end Catalog

namespace Schema

/-- A property from its document. -/
def Property.ofValue? (v : Value) : Option Property := do
  match ← v.record? ["name", "type", "format"] 2 with
  | [some name, some type, format] =>
    return ⟨← name.text?, ← type.text?, ← Value.optionalText? format⟩
  | _ => none

/-- Properties from their document. -/
def Properties.ofValue? (v : Value) : Option Properties :=
  (v.membersOf? Property.ofValue?).map .ofList

/-- The schema of a table from its document. -/
def ObjectSchema.ofValue? (v : Value) : Option ObjectSchema := do
  match ← v.record? ["$schema", "$id", "title", "type", "properties"] 5 with
  | [some dialect, some id, some title, some type, some properties] =>
    return ⟨← dialect.text?, ← id.text?, ← title.text?, ← type.text?,
      ← Properties.ofValue? properties⟩
  | _ => none

/-- The definitions of several tables from their document. -/
def Definitions.ofValue? (v : Value) : Option Definitions := do
  match ← v.record? ["$schema", "$id", "title", "definitions"] 4 with
  | [some dialect, some id, some title, some definitions] =>
    return ⟨← dialect.text?, ← id.text?, ← title.text?,
      .ofList (← definitions.membersOf? Properties.ofValue?)⟩
  | _ => none

end Schema

end TableSchema
