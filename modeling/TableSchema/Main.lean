import TableSchema.Run.Program

/-!
# The program on the machine

The files, the standard output and the log of the machine as a host, and the program on it. There
is no way to a server from here, so only database files can be read.
-/

namespace TableSchema

open Host Source Run

/-- The number that the operating system gives an error, if it does. Some are told with their sign
changed. -/
def errorNumber? (e : IO.Error) : Option Nat :=
  let told : Option UInt32 := match e with
    | .alreadyExists _ n _ | .inappropriateType _ n _ | .noFileOrDirectory _ n _
    | .invalidArgument _ n _ | .permissionDenied _ n _ | .noSuchThing _ n _ => some n
    | .otherError n _ | .unsatisfiedConstraints n _ | .hardwareFault n _
    | .illegalOperation n _ => some n
    | _ => none
  told.map fun n => min n.toNat (UInt32.size - n.toNat)

/-- The fault that an error of the machine stands for. -/
def faultOf (e : IO.Error) : FileFault :=
  match errorNumber? e with
  | some 2 => .notFound
  | some 17 => .occupied
  | some 20 => .notDirectory
  | some 21 => .isDirectory
  | some 36 => .nameTooLong
  | _ => .other (toString e)

/-- Does something on the machine, and gives a fault as a result. -/
def guarded {α : Type} (act : IO α) : IO (Except FileFault α) := do
  try
    return .ok (← act)
  catch e =>
    return .error (faultOf e)

/-- The machine, which tells the messages within a threshold. -/
abbrev Machine := ReaderT Threshold IO

instance : Host Machine where
  home := IO.getEnv "HOME"
  cores := return 1
  probe path := guarded do discard <| IO.FS.Handle.mk path .read
  isFile path := return (← guarded (IO.FS.readBinFile path)).isOk
  readText path := guarded (IO.FS.readFile path)
  createDirectories path := guarded (IO.FS.createDirAll path)
  writeText path text := guarded (IO.FS.writeFile path text)
  readCatalog path := guarded (return DatabaseFile.catalog (← IO.FS.readBinFile path))
  connect _ := return .error "servers cannot be reached from here"
  ask _ := return .error "not connected"
  disconnect := return .ok ()
  print text := IO.print text
  complain text := IO.eprint text
  log message := do
    if (← read).admits message then IO.eprintln message.line

end TableSchema

open TableSchema in
/-- Runs the program on the words of the command line. -/
def main (words : List String) : IO UInt32 := do
  let name ← IO.getEnv "RUST_LOG"
  let status ← (Run.program words : Machine Run.Status).run (Run.threshold name words)
  return status.code.toUInt32
