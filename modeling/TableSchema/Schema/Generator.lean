import TableSchema.Schema.Encoding
import TableSchema.Schema.FileName
import TableSchema.Schema.IdTemplate

/-!
# Generating schemas

From tables to documents, under settings that fix the format and the texts common to all
documents. A setting that is empty counts as not given.

What has to be written is worked out in full before any of it is: a *publication* is either one
text for the standard output or the files of a directory, and making one fails without a trace.
-/

namespace TableSchema.Schema

open Catalog

/-! ## Settings -/

/-- How documents are made, and where they go. -/
structure Settings where
  /-- the format of all documents -/
  format : Format := .json
  /-- the output directory -/
  outdir : Option String := none
  /-- the dialect that documents declare -/
  dialect : Option String := none
  /-- the template of identifiers -/
  idTemplate : Option String := none
  /-- the title of a document with definitions -/
  title : Option String := none
  deriving DecidableEq, Repr

/-- A setting, if it is given and not empty. -/
def given? (setting : Option String) : Option String := setting.filter (· ≠ "")

namespace Settings

/-- The dialect that documents declare. -/
def effectiveDialect (s : Settings) : String :=
  (given? s.dialect).getD "https://json-schema.org/draft/2020-12/schema"

/-- The template of identifiers. -/
def effectiveTemplate (s : Settings) : String :=
  (given? s.idTemplate).getD "\x7b\x7b .Name \x7d\x7d.\x7b\x7b .Format \x7d\x7d"

/-- The title of a document with definitions. -/
def effectiveTitle (s : Settings) : String := (given? s.title).getD "Definitions"

/-- The output directory, if there is one. -/
def effectiveOutdir (s : Settings) : Option String := given? s.outdir

end Settings

/-! ## Documents -/

/-- Why documents cannot be made or written. -/
inductive GeneratorError where
  /-- no format has this name -/
  | unknownFormat (name : String)
  /-- the template of identifiers cannot be expanded -/
  | template (e : TemplateError)
  /-- a table name cannot be used as a file name -/
  | invalidFileName (name : String)
  /-- a directory or a file cannot be written -/
  | io (reason : String)
  deriving DecidableEq, Repr

/-- The error in words. -/
def GeneratorError.message : GeneratorError → String
  | unknownFormat name => s!"Unknown format: {name}"
  | template e => s!"Invalid $id template: {e.message}"
  | invalidFileName name => s!"Table name {Text.quoted name} cannot be used as a file name"
  | io reason => s!"IO error: {reason}"

/-- The format with a name. -/
def Format.ofText (name : String) : Except GeneratorError Format :=
  match Format.ofText? name with
  | some f => .ok f
  | none => .error (.unknownFormat name)

/-- The file name for a table. -/
def fileName (name : String) (format : Format) : Except GeneratorError String :=
  match fileName? name format with
  | some file => .ok file
  | none => .error (.invalidFileName name)

namespace Settings

/-- The identifier of a document. -/
def identifier (s : Settings) (name : String) : Except GeneratorError String :=
  (expandTemplate s.effectiveTemplate name s.format).mapError .template

/-- The document with the definitions of all tables. Where tables share a name, the last of them
counts, in its place. -/
def definitions (s : Settings) (tables : List Table) : Except GeneratorError Definitions := do
  return {
    dialect := s.effectiveDialect
    id := ← s.identifier "definitions"
    title := s.effectiveTitle
    definitions := .ofList (tables.map fun t => (t.name, .ofTable t)) }

/-- The schema of a table. -/
def objectSchema (s : Settings) (t : Table) : Except GeneratorError ObjectSchema := do
  return {
    dialect := s.effectiveDialect
    id := ← s.identifier t.name
    title := t.name
    type := "object"
    properties := .ofTable t }

/-- The schemas of all tables, in order and with repetitions. -/
def objectSchemas (s : Settings) (tables : List Table) :
    Except GeneratorError (List ObjectSchema) :=
  tables.mapM s.objectSchema

/-- The text of the document with the definitions of all tables. -/
def definitionsText (s : Settings) (tables : List Table) : Except GeneratorError String := do
  return s.format.render (← s.definitions tables).toNode

/-! ## Publications -/

/-- A file name with the text of the file, for each table: first all names are checked, then all
identifiers are made. -/
def files (s : Settings) (tables : List Table) :
    Except GeneratorError (List (String × String)) := do
  let names ← tables.mapM fun t => fileName t.name s.format
  let schemas ← s.objectSchemas tables
  return names.zip (schemas.map fun d => s.format.render d.toNode)

end Settings

/-- What is to be written. -/
inductive Publication where
  /-- one text on the standard output -/
  | output (text : String)
  /-- files of a directory, to be written in order -/
  | directory (path : String) (files : List (String × String))
  deriving DecidableEq, Repr

/-- What the settings make of tables. -/
def Settings.publish (s : Settings) (tables : List Table) :
    Except GeneratorError Publication := do
  match s.effectiveOutdir with
  | some dir => return .directory dir (← s.files tables)
  | none => return .output (← s.definitionsText tables)

end TableSchema.Schema
