import TableSchema.Document.Json.Text
import TableSchema.Document.Yaml.Text

/-!
# Output formats

The two notations that documents are written in.
-/

namespace TableSchema.Schema

/-- A notation for documents. -/
inductive Format where
  | json
  | yaml
  deriving DecidableEq, Repr

namespace Format

/-- The name of a format, which is also the extension of its files. -/
def text : Format → String
  | json => "json"
  | yaml => "yaml"

/-- Every format. -/
def all : List Format := [json, yaml]

/-- The format with a name. -/
def ofText? (name : String) : Option Format := all.find? fun f => f.text == name

@[simp] theorem ofText?_text (f : Format) : ofText? f.text = some f := by cases f <;> decide

/-- The text of a document. -/
def render : Format → Document.Node → String
  | json => Document.Json.render
  | yaml => Document.Yaml.render

end Format

end TableSchema.Schema
