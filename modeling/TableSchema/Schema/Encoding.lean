import TableSchema.Document.Node
import TableSchema.Schema.Property

/-!
# Documents of tables and schemas

How tables, their parts and their schemas stand in a document: a map with one entry for each part,
in a fixed order. The format of a column has no entry when there is none; an empty one has.
-/

namespace TableSchema

open Document

namespace Catalog

/-- A column type as a document. -/
def ColumnType.toNode (t : ColumnType) : Node :=
  .map (("type", .text t.base.text) :: Node.optional "format" t.format)

/-- A column as a document. -/
def Field.toNode (f : Field) : Node := .map [("name", .text f.name), ("type", f.type.toNode)]

/-- A table as a document. -/
def Table.toNode (t : Table) : Node :=
  .map [("name", .text t.name), ("fields", .list (t.fields.map Field.toNode)),
    ("primary_keys", .ofTexts t.primaryKeys)]

end Catalog

namespace Schema

/-- A property as a document. -/
def Property.toNode (p : Property) : Node :=
  .map (("name", .text p.name) :: ("type", .text p.type) :: Node.optional "format" p.format)

/-- Properties as a document. -/
def Properties.toNode (ps : Properties) : Node :=
  .map (ps.entries.map fun e => (e.1, e.2.toNode))

/-- The schema of a table as a document. -/
def ObjectSchema.toNode (s : ObjectSchema) : Node :=
  .map [("$schema", .text s.dialect), ("$id", .text s.id), ("title", .text s.title),
    ("type", .text s.type), ("properties", s.properties.toNode)]

/-- The definitions of several tables as a document. -/
def Definitions.toNode (d : Definitions) : Node :=
  .map [("$schema", .text d.dialect), ("$id", .text d.id), ("title", .text d.title),
    ("definitions", .map (d.definitions.entries.map fun e => (e.1, Properties.toNode e.2)))]

end Schema

end TableSchema
