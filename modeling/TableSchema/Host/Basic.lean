import TableSchema.Host.FileTree
import TableSchema.Host.Threshold
import TableSchema.Source.Server

/-!
# Hosts

What a run needs from outside: files and directories, databases, a standard output and a log. All
else in this library is a function of what a host says, so a run on the machine and a run on a
world that is given as a value are the same program.
-/

namespace TableSchema.Host

/-- How serious a message is, from the most to the least. -/
inductive Level where
  | error
  | warn
  | info
  deriving DecidableEq, Repr

namespace Level

/-- The name of a level. -/
def text : Level → String
  | error => "ERROR"
  | warn => "WARN"
  | info => "INFO"

/-- How many levels are at least as serious. -/
def rank : Level → Nat
  | error => 1
  | warn => 2
  | info => 3

end Level

/-- A message for the log. -/
structure Message where
  /-- how serious it is -/
  level : Level
  /-- what it says -/
  text : String
  deriving DecidableEq, Repr

/-- A message as a line. -/
def Message.line (m : Message) : String := m.level.text ++ " " ++ m.text

namespace Threshold

/-- Whether a message is told. -/
def admits (t : Threshold) (m : Message) : Bool := m.level.rank ≤ t

end Threshold

end TableSchema.Host

namespace TableSchema

open Host Source

/-- Access to what is outside. -/
class Host (m : Type → Type) where
  /-- the home directory, if there is one -/
  home : m (Option String)
  /-- how many definitions can be read side by side -/
  cores : m Nat
  /-- whether a path leads to something, and if not, why -/
  probe : (path : String) → m (Except FileFault Unit)
  /-- whether a path leads to a file -/
  isFile : (path : String) → m Bool
  /-- the text of a file -/
  readText : (path : String) → m (Except FileFault String)
  /-- makes a directory and all directories on the way -/
  createDirectories : (path : String) → m (Except FileFault Unit)
  /-- puts a text into a file -/
  writeText : (path text : String) → m (Except FileFault Unit)
  /-- the catalog of a database file, unless something is wrong with its contents -/
  readCatalog : (path : String) → m (Except FileFault (Except ContentFault (List CatalogRow)))
  /-- connects to a server -/
  connect : (address : String) → m (Except String Unit)
  /-- asks the server -/
  ask : (query : String) → m (Except String (List Row))
  /-- closes the connection to the server -/
  disconnect : m (Except String Unit)
  /-- writes to the standard output -/
  print : (text : String) → m Unit
  /-- writes to the standard error, apart from the log -/
  complain : (text : String) → m Unit
  /-- writes to the log -/
  log : Message → m Unit

namespace Host

/-- A host stays within reach where an error can end the run. -/
instance {m : Type → Type} [Monad m] [Host m] {ε : Type} : Host (ExceptT ε m) where
  home := ExceptT.lift Host.home
  cores := ExceptT.lift Host.cores
  probe path := ExceptT.lift (Host.probe path)
  isFile path := ExceptT.lift (Host.isFile path)
  readText path := ExceptT.lift (Host.readText path)
  createDirectories path := ExceptT.lift (Host.createDirectories path)
  writeText path text := ExceptT.lift (Host.writeText path text)
  readCatalog path := ExceptT.lift (Host.readCatalog path)
  connect address := ExceptT.lift (Host.connect address)
  ask query := ExceptT.lift (Host.ask query)
  disconnect := ExceptT.lift Host.disconnect
  print text := ExceptT.lift (Host.print text)
  complain text := ExceptT.lift (Host.complain text)
  log message := ExceptT.lift (Host.log message)

/-- Does something that can fail, and gives a failure another form. -/
def attempt {m : Type → Type} [Monad m] {ε ε' α : Type} (act : m (Except ε α)) (f : ε → ε') :
    ExceptT ε' m α :=
  ExceptT.mk do return (← act).mapError f

/-- A result that is there already, where a failure gets another form. -/
def settle {m : Type → Type} [Monad m] {ε ε' α : Type} (result : Except ε α) (f : ε → ε') :
    ExceptT ε' m α :=
  ExceptT.mk (pure (result.mapError f))

end Host

end TableSchema
