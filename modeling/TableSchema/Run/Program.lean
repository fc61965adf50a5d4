import TableSchema.Run.CommandLine
import TableSchema.Run.Reading
import TableSchema.Run.Publishing
import TableSchema.Run.SettingsFile

/-!
# The program

A run from the words of the command line to the exit status. The settings file is read before
anything else, and then either a request is performed or, where the driver or the data source is
missing, help is given and nothing is opened.

A failure is told in one line, from the outermost cause to the innermost.
-/

namespace TableSchema.Run

open Host Schema

/-! ## Failures -/

/-- Why a run fails. -/
inductive ProgramError where
  /-- the settings file cannot be used -/
  | settingsFile (e : SettingsFileError)
  /-- the choices are no request -/
  | choices (e : GeneratorError)
  /-- the request on a data source fails -/
  | request (dataSource : String) (e : RequestError)
  deriving DecidableEq, Repr

namespace ProgramError

/-- The error and its causes. -/
def levels : ProgramError → List String
  | settingsFile e => e.levels
  | choices e => e.levels
  | request dataSource e => s!"Failed to generate schemas from {dataSource}" :: e.levels

/-- The error in words, with its causes. -/
def message (e : ProgramError) : String := ": ".intercalate e.levels

end ProgramError

/-! ## Status -/

/-- How the program ends. -/
inductive Status where
  | success
  | failure
  /-- the command line and the settings file do not say enough, or the command line is faulty -/
  | usage
  deriving DecidableEq, Repr

/-- The number that the program ends with. -/
def Status.code : Status → Nat
  | success => 0
  | failure => 1
  | usage => 2

/-! ## Running -/

/-- What there is to say about the command line. -/
def helpText : String := "\n".intercalate [
  "Generate JSON Schema definitions from database tables", "",
  "Usage: db2jsonschema [OPTIONS]", "",
  "Options:",
  "      --config <CONFIG>          Config file (default is $HOME/.db2jsonschema.yaml)",
  "      --driver <DRIVER>          The DB driver (sqlite3, mysql)",
  "      --dburl <DBURL>            The DB URL",
  "      --format <FORMAT>          The output format (json, yaml)",
  "      --outdir <OUTDIR>          Write one schema file per table into this directory",
  "      --schematype <SCHEMATYPE>  The $schema value for the generated schemas",
  "      --idtemplate <IDTEMPLATE>  A template string for the $id value, " ++
    "e.g. \"\x7b\x7b .Name \x7d\x7d.\x7b\x7b .Format \x7d\x7d\"",
  "      --title <TITLE>            Title of the definitions document",
  "      --include <INCLUDES>       The tables to include",
  "      --exclude <EXCLUDES>       The tables to exclude",
  "  -v, --verbose...               Log more (-v debug, -vv trace); RUST_LOG takes precedence",
  "  -h, --help                     Print help",
  "  -V, --version                  Print version", ""]

/-- The name and the version of the program. -/
def versionText : String := "db2jsonschema 0.1.0\n"

variable {m : Type → Type} [Monad m] [Host m]

/-- Reads the settings file, if there is one, and says so. -/
def readSettings (path : Option String) : ExceptT ProgramError m SettingsFile := do
  match ← attempt (findSettings path).run .settingsFile with
  | some (path, file) =>
    Host.log ⟨.info, s!"Using config file: {path}"⟩
    return file
  | none => return {}

/-- Does what a command line asks for. -/
def run (line : CommandLine) : ExceptT ProgramError m Status := do
  let file ← readSettings line.settingsFile
  match ← settle ((line.choices.orElse file.choices).request? file.types) .choices with
  | none =>
    Host.print helpText
    return .usage
  | some request =>
    attempt request.perform.run (.request request.connection.dataSource)
    return .success

/-- Answers a command line that was not read to its end. -/
def stop (halt : Halt) : m Status := do
  match halt with
  | .help =>
    Host.print helpText
    return .success
  | .version =>
    Host.print versionText
    return .success
  | _ =>
    Host.complain (halt.message ++ "\n")
    return .usage

/-- The threshold for messages that a name or else the words of a command line give. -/
def threshold (name : Option String) (words : List String) : Threshold :=
  match CommandLine.ofWords words with
  | .ok line => .choose name line.verbosity
  | .error _ => .choose name 0

/-- Does what the words of a command line ask for, and tells a failure. -/
def program (words : List String) : m Status := do
  match CommandLine.ofWords words with
  | .error halt => stop halt
  | .ok line =>
    match ← (run line).run with
    | .ok status => return status
    | .error e =>
      Host.log ⟨.error, e.message⟩
      return .failure

end TableSchema.Run
