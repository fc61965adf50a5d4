import TableSchema.Host.Basic

/-!
# Worlds

A host given as a value: the files as they are, the servers that answer, and what has been written
so far. Each operation says how the world is afterwards, so a run on a world has a result that can
be looked at.

Making a directory and writing a file can fail at any time and for any reason, which is up to the
world (`Mishap`). A file is emptied when it is opened, so that a failure after that leaves no more
in it than a part of the new text, and a failure to make a directory may leave some of those on the
way to it.
-/

namespace TableSchema.Host

open Source

/-- What goes wrong with a directory or a file although its path is right. -/
structure Mishap where
  /-- why, in words -/
  reason : String
  /-- what was done by then: how many bytes of a file that was opened are written, or how many of
  the directories on the way are made; without a number the file was not even opened -/
  progress : Option Nat := none
  deriving DecidableEq, Repr

/-- All that a run can see and change. -/
structure World where
  /-- the files -/
  files : FileTree := .empty
  /-- the working directory -/
  directory : Location := []
  /-- for the directories that are made and the files that are written next, in order: what goes
  wrong, if something does -/
  mishaps : List (Option Mishap) := []
  /-- the home directory -/
  home : Option String := none
  /-- how many definitions can be read side by side -/
  cores : Nat := 1
  /-- the servers, by address -/
  servers : String → Option Server := fun _ => none
  /-- the server that the run is connected to -/
  session : Option Server := none
  /-- the queries so far, in order -/
  queries : List String := []
  /-- the standard output -/
  output : String := ""
  /-- the standard error, but for the log -/
  complaints : String := ""
  /-- the log, in order -/
  log : List Message := []

namespace World

/-- Connects to a server. -/
def connect (address : String) (w : World) : Except String Unit × World :=
  match w.servers address with
  | none => (.error "no server answers", w)
  | some server =>
    match server.refusal with
    | some reason => (.error reason, w)
    | none => (.ok (), { w with session := some server })

/-- Asks the server of the session. -/
def ask (query : String) (w : World) : Except String (List Row) × World :=
  match w.session with
  | none => (.error "not connected", w)
  | some server => (server.answer w.queries query, { w with queries := w.queries ++ [query] })

/-- Closes the session. -/
def disconnect (w : World) : Except String Unit × World :=
  match w.session.bind Server.closing with
  | some reason => (.error reason, { w with session := none })
  | none => (.ok (), { w with session := none })

/-- Makes a directory and all directories on the way. -/
def createDirectories (path : String) (w : World) : Except FileFault Unit × World :=
  let next := { w with mishaps := w.mishaps.tail }
  match w.mishaps.head?.join with
  | none =>
    let (files, result) := w.files.createDirectories w.directory path
    (result, { next with files })
  | some mishap =>
    let (files, result) := w.files.createFirst w.directory path (mishap.progress.getD 0)
    (result.bind fun _ => .error (.other mishap.reason), { next with files })

/-- Leaves something in a file, unless its path is wrong, and says how that ended. -/
def leave (path : String) (e : Entry) (result : Except FileFault Unit) (w : World) :
    Except FileFault Unit × World :=
  match w.files.overwrite w.directory path e with
  | .ok files => (result, { w with files })
  | .error fault => (.error fault, w)

/-- Puts a text into a file. -/
def writeText (path text : String) (w : World) : Except FileFault Unit × World :=
  let next := { w with mishaps := w.mishaps.tail }
  match w.mishaps.head?.join with
  | none => next.leave path (.text text) (.ok ())
  | some ⟨reason, some count⟩ => next.leave path (.start text count) (.error (.other reason))
  | some ⟨reason, none⟩ => (.error (.other reason), next)

end World

instance : Host (StateM World) where
  home := fun w => (w.home, w)
  cores := fun w => (w.cores, w)
  probe path := fun w => (w.files.probe w.directory path, w)
  isFile path := fun w => (w.files.isFile w.directory path, w)
  readText path := fun w => (w.files.readText w.directory path, w)
  createDirectories path := World.createDirectories path
  writeText path text := World.writeText path text
  readCatalog path := fun w => (w.files.readCatalog w.directory path, w)
  connect address := World.connect address
  ask query := World.ask query
  disconnect := World.disconnect
  print text := fun w => ((), { w with output := w.output ++ text })
  complain text := fun w => ((), { w with complaints := w.complaints ++ text })
  log message := fun w => ((), { w with log := w.log ++ [message] })

/-- What something comes to on a world, and the world afterwards. -/
def World.run {ε α : Type} (w : World) (act : ExceptT ε (StateM World) α) : Except ε α × World :=
  act w

namespace World

variable {ε ε' α β : Type}

/-- What is done next is done on the world that is there then, unless there was an error. -/
theorem run_bind (w : World) (act : ExceptT ε (StateM World) α)
    (next : α → ExceptT ε (StateM World) β) :
    w.run (act >>= next) =
      match w.run act with
      | (.ok a, w') => w'.run (next a)
      | (.error e, w') => (.error e, w') := by
  simp only [run, bind, ExceptT.bind, ExceptT.mk, StateT.bind]
  rcases act w with ⟨_ | _, w'⟩ <;> rfl

/-- Mapping the result of an action leaves what it does to the world. -/
theorem run_map (w : World) (f : α → β) (act : ExceptT ε (StateM World) α) :
    w.run (f <$> act) = ((w.run act).1.map f, (w.run act).2) := by
  simp only [run, Functor.map, ExceptT.map, ExceptT.mk, bind, StateT.bind]
  rcases act w with ⟨_ | _, w'⟩ <;> rfl

/-- Renaming the error of an action leaves what it does to the world. -/
theorem run_attempt_run (w : World) (act : ExceptT ε (StateM World) α) (f : ε → ε') :
    w.run (attempt act.run f) = ((w.run act).1.mapError f, (w.run act).2) := rfl

@[simp] theorem run_settle (w : World) (result : Except ε α) (f : ε → ε') :
    w.run (settle result f) = (result.mapError f, w) := rfl

@[simp] theorem run_attempt_createDirectories (w : World) (path : String) (f : FileFault → ε) :
    w.run (attempt (Host.createDirectories path) f) =
      ((w.createDirectories path).1.mapError f, (w.createDirectories path).2) := rfl

@[simp] theorem run_attempt_writeText (w : World) (path text : String) (f : FileFault → ε) :
    w.run (attempt (Host.writeText path text) f) =
      ((w.writeText path text).1.mapError f, (w.writeText path text).2) := rfl

@[simp] theorem run_attempt_connect (w : World) (address : String) (f : String → ε) :
    w.run (attempt (Host.connect address) f) =
      ((w.connect address).1.mapError f, (w.connect address).2) := rfl

@[simp] theorem run_attempt_ask (w : World) (query : String) (f : String → ε) :
    w.run (attempt (Host.ask query) f) = ((w.ask query).1.mapError f, (w.ask query).2) := rfl

@[simp] theorem run_attempt_disconnect (w : World) (f : String → ε) :
    w.run (attempt Host.disconnect f) = (w.disconnect.1.mapError f, w.disconnect.2) := rfl

@[simp] theorem run_log (w : World) (message : Message) :
    w.run (Host.log message : ExceptT ε (StateM World) Unit) =
      (.ok (), { w with log := w.log ++ [message] }) := rfl

@[simp] theorem run_cores (w : World) :
    w.run (Host.cores : ExceptT ε (StateM World) Nat) = (.ok w.cores, w) := rfl

end World

end TableSchema.Host
