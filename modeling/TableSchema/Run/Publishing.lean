import TableSchema.Host.Basic
import TableSchema.Schema.Generator

/-!
# Publishing schemas

A publication is made in full before anything is written, so a table name or a template that
cannot be used leaves no trace. Files are then written in order, each announced in the log; those
written before a failure stay.
-/

namespace TableSchema.Schema

/-- An error and its causes. -/
def GeneratorError.levels (e : GeneratorError) : List String :=
  match e with
  | template i => [e.message, i.message]
  | io reason => [e.message, reason]
  | _ => [e.message]

end TableSchema.Schema

namespace TableSchema.Run

open Catalog Host Schema

variable {m : Type → Type} [Monad m] [Host m]

/-- Writes a file of a directory, and says where. -/
def writeFile (directory name text : String) : ExceptT GeneratorError m String := do
  let path := joinPath directory name
  Host.log ⟨.info, s!"Writing to {path}"⟩
  attempt (Host.writeText path text) fun fault => .io fault.message
  return path

/-- Writes the files of a directory in order, and says where. -/
def writeFiles (directory : String) (files : List (String × String)) :
    ExceptT GeneratorError m (List String) := do
  attempt (Host.createDirectories directory) fun fault => .io fault.message
  files.mapM fun (name, text) => writeFile directory name text

/-- Writes the schema of each table into a file of a directory, and says where. -/
def writeDirectory (s : Settings) (tables : List Table) (directory : String) :
    ExceptT GeneratorError m (List String) := do
  writeFiles directory (← settle (s.files tables) id)

/-- Publishes what the settings make of tables. -/
def publish (s : Settings) (tables : List Table) : ExceptT GeneratorError m Unit := do
  match ← settle (s.publish tables) id with
  | .output text => Host.print text
  | .directory directory files => discard (writeFiles directory files)

end TableSchema.Run
