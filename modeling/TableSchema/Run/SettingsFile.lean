import TableSchema.Document.Yaml.Reading
import TableSchema.Run.Choices
import TableSchema.Text.Blank

/-!
# Settings files

A YAML map with choices and with meanings of type names. It may leave out any key but know no
other, and no key may be repeated, except that of several meanings for a type name the last counts.
A blank file makes no choices.

The file is given by its path or else is the one in the home directory, if there is one.
-/

namespace TableSchema.Catalog

open Document.Yaml

/-- The type of a column as it is told in a tree: a map with the base type and perhaps a format.
Other keys are ignored. -/
def ColumnType.ofTree (t : Tree) : TreeReader ColumnType := do
  let entries ← t.entries
  let isRepeated (key : String) : Bool := 1 < (entries.filter (·.1 == key)).length
  if isRepeated "type" || isRepeated "format" then failure
  let base ← BaseType.ofText? (← (← entries.lookup "type").choice)
  let format ← match entries.lookup "format" with
    | some format => format.optionalText
    | none => pure none
  return ⟨base, format⟩

end TableSchema.Catalog

namespace TableSchema.Run

open Catalog Document.Yaml Host

/-- What a settings file says. -/
structure SettingsFile where
  /-- the choices in it -/
  choices : Choices := {}
  /-- the meanings of type names in it -/
  types : OrderedMap ColumnType := .empty

namespace SettingsFile

/-- Whether nothing is said. -/
def isEmpty (f : SettingsFile) : Bool :=
  Setting.all.all (fun s => (f.choices.value s).isNone) && f.choices.includes.isEmpty &&
    f.choices.excludes.isEmpty && f.types.entries.isEmpty

/-- The file with one more entry. -/
def addEntry (f : SettingsFile) (key : String) (value : Tree) : TreeReader SettingsFile := do
  match Setting.ofText? key with
  | some s =>
    match ← value.optionalText with
    | some text => return { f with choices := f.choices.set s text }
    | none => return f
  | none =>
    match key with
    | "include" => return { f with choices := { f.choices with includes := ← value.texts } }
    | "exclude" => return { f with choices := { f.choices with excludes := ← value.texts } }
    | "types" =>
      let entries ← (← value.entries).mapM fun (name, t) => return (name, ← ColumnType.ofTree t)
      return { f with types := .ofList entries }
    | _ => failure

/-- What a tree says. -/
def ofTree (t : Tree) : TreeReader SettingsFile := do
  let entries ← t.entries
  if (entries.map Prod.fst).Nodup then
    entries.foldlM (fun f entry => f.addEntry entry.1 entry.2) {}
  else failure

/-- What a text says. -/
def ofText? (text : String) : Option SettingsFile :=
  if Text.allBlank text then some {} else TreeReader.ofText? ofTree text

end SettingsFile

/-! ## Loading -/

/-- Why a settings file cannot be used. -/
inductive SettingsFileError where
  /-- the file cannot be read -/
  | unreadable (path : String) (fault : FileFault)
  /-- the text is no settings file -/
  | invalid (path : String)
  deriving DecidableEq, Repr

namespace SettingsFileError

/-- The error and its causes. -/
def levels : SettingsFileError → List String
  | unreadable path fault =>
    [s!"Failed to read config file {path}: {fault.message}", fault.message]
  | invalid path => [s!"Invalid config file {path}"]

/-- The error in words. -/
def message (e : SettingsFileError) : String := e.levels.headD ""

end SettingsFileError

variable {m : Type → Type} [Monad m] [Host m]

/-- The path of the settings file in the home directory, if there is a file. -/
def homeSettings : m (Option String) := do
  match (← Host.home).filter (· ≠ "") with
  | none => return none
  | some home =>
    let path := joinPath home ".db2jsonschema.yaml"
    return if ← Host.isFile path then some path else none

/-- Reads the settings file at a path. -/
def loadSettings (path : String) : ExceptT SettingsFileError m SettingsFile := do
  let text ← attempt (Host.readText path) (.unreadable path)
  settle (match SettingsFile.ofText? text with
    | some f => .ok f
    | none => .error (.invalid path)) id

/-- Finds and reads the settings file, and says where it is. -/
def findSettings (path : Option String) :
    ExceptT SettingsFileError m (Option (String × SettingsFile)) := do
  let found ← match path with
    | some path => pure (some path)
    | none => ExceptT.lift homeSettings
  match found with
  | some path => return some (path, ← loadSettings path)
  | none => return none

end TableSchema.Run
