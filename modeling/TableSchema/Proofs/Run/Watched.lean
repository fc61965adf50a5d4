import TableSchema.Host.World
import TableSchema.Run.Program

/-!
# Watching for databases

A world does not tell which databases were looked for, since looking changes nothing. So the same
program is run on a host that also keeps the paths and addresses at which it looks for a database.
It comes to the same there as without a watch (`transparent_program`). Finding and reading a
settings file adds nothing to what is kept (`looksForNone_readSettings`).
-/

namespace TableSchema.Run

open Catalog Host Schema Source

/-- A run on a world, with the paths and addresses at which it looks for databases. -/
abbrev Watched := StateM (World × List String)

namespace Watched

variable {α : Type}

/-- Does something that has nothing to do with databases. -/
def aside (act : StateM World α) : Watched α := fun (w, places) =>
  let (a, w') := act w
  (a, (w', places))

/-- Looks for a database. -/
def looking (place : String) (act : StateM World α) : Watched α := fun (w, places) =>
  let (a, w') := act w
  (a, (w', places ++ [place]))

instance : Host Watched where
  home := aside Host.home
  cores := aside Host.cores
  probe path := looking path (Host.probe path)
  isFile path := aside (Host.isFile path)
  readText path := aside (Host.readText path)
  createDirectories path := aside (Host.createDirectories path)
  writeText path text := aside (Host.writeText path text)
  readCatalog path := looking path (Host.readCatalog path)
  connect address := looking address (Host.connect address)
  ask query := aside (Host.ask query)
  disconnect := aside Host.disconnect
  print text := aside (Host.print text)
  complain text := aside (Host.complain text)
  log message := aside (Host.log message)

end Watched

/-! ## Watching changes nothing -/

/-- Whether something comes to the same on every world, watched or not. -/
def Transparent {α : Type} (watched : Watched α) (act : StateM World α) : Prop :=
  ∀ w places, ((watched (w, places)).1, (watched (w, places)).2.1) = act w

section Transparent

variable {ε ε' α β : Type}

/-- A sequence comes to the same if its parts do, whatever the first one gives. -/
theorem Transparent.bind {watched : Watched α} {act : StateM World α} {wnext : α → Watched β}
    {next : α → StateM World β} (h : Transparent watched act)
    (hnext : ∀ a, Transparent (wnext a) (next a)) :
    Transparent (watched >>= wnext) (act >>= next) := by
  intro w places
  change ((wnext (watched (w, places)).1 (watched (w, places)).2).1,
    (wnext (watched (w, places)).1 (watched (w, places)).2).2.1) = next (act w).1 (act w).2
  rw [← h w places]
  exact hnext _ _ _

/-- The same with errors, which end the sequence watched or not. -/
theorem Transparent.bindExcept {watched : ExceptT ε Watched α}
    {act : ExceptT ε (StateM World) α} {wnext : α → ExceptT ε Watched β}
    {next : α → ExceptT ε (StateM World) β} (h : Transparent watched.run act.run)
    (hnext : ∀ a, Transparent (wnext a).run (next a).run) :
    Transparent (watched >>= wnext).run (act >>= next).run := by
  change Transparent (watched.run >>= ExceptT.bindCont wnext) (act.run >>= ExceptT.bindCont next)
  refine h.bind fun result => ?_
  cases result with
  | ok a => exact hnext a
  | error e => exact fun _ _ => rfl

/-- The form of an error has nothing to do with the watch. -/
theorem Transparent.attempt {watched : Watched (Except ε α)} {act : StateM World (Except ε α)}
    (h : Transparent watched act) (f : ε → ε') :
    Transparent (Host.attempt watched f).run (Host.attempt act f).run :=
  h.bind fun _ => fun _ _ => rfl

/-- Doing something for each of a list comes to the same if each does. -/
theorem transparent_mapM {wf : α → ExceptT ε Watched β} {f : α → ExceptT ε (StateM World) β}
    (h : ∀ a, Transparent (wf a).run (f a).run) (as : List α) :
    Transparent (as.mapM wf).run (as.mapM f).run := by
  induction as with
  | nil => exact fun _ _ => rfl
  | cons a as ih =>
    rw [List.mapM_cons, List.mapM_cons]
    exact (h a).bindExcept fun b => ih.bindExcept fun bs => fun _ _ => rfl

/-- So does testing each of a list up to the first that fails. -/
theorem transparent_allM {wp : α → ExceptT ε Watched Bool} {p : α → ExceptT ε (StateM World) Bool}
    (h : ∀ a, Transparent (wp a).run (p a).run) (as : List α) :
    Transparent (as.allM wp).run (as.allM p).run := by
  induction as with
  | nil => exact fun _ _ => rfl
  | cons a as ih =>
    refine (h a).bindExcept fun passed => ?_
    cases passed with
    | true => exact ih
    | false => exact fun _ _ => rfl

end Transparent

/-- Whether a directory on the way is there is asked under watch with the same answer. -/
theorem transparent_isPassable (path : String) :
    Transparent (isPassable path : ExceptT SourceError Watched Bool).run
      (isPassable path : ExceptT SourceError (StateM World) Bool).run := by
  rw [isPassable, isPassable]
  split
  · exact fun _ _ => rfl
  · refine Transparent.bindExcept (fun _ _ => rfl) fun found => ?_
    split <;> exact fun _ _ => rfl

/-- Looking for a database file comes to the same under watch. -/
theorem transparent_lookUp (dataSource : String) (file : DatabasePath) :
    Transparent (lookUp dataSource file : ExceptT SourceError Watched Unit).run
      (lookUp dataSource file : ExceptT SourceError (StateM World) Unit).run := by
  refine (transparent_allM transparent_isPassable file.settlements).bindExcept fun passable => ?_
  dsimp only
  split
  · exact Transparent.bindExcept (fun _ _ => rfl) fun _ => by split <;> exact fun _ _ => rfl
  · split <;> exact fun _ _ => rfl

/-- Reading its catalog does, whether the data source has a file or not. -/
theorem transparent_readCatalog (dataSource : String) :
    Transparent (Run.readCatalog dataSource : ExceptT SourceError Watched _).run
      (Run.readCatalog dataSource : ExceptT SourceError (StateM World) _).run := by
  refine Transparent.bindExcept (fun _ _ => rfl) fun file => ?_
  split
  · exact fun _ _ => rfl
  · refine (transparent_lookUp dataSource _).bindExcept fun _ => ?_
    refine Transparent.bindExcept (fun _ _ => rfl) fun catalog => ?_
    split <;> exact fun _ _ => rfl

/-- What is made of the catalog is settled without the host. -/
theorem transparent_readDatabase (types : TypeTable) (dataSource : String) :
    Transparent (readDatabase types dataSource : ExceptT SourceError Watched _).run
      (readDatabase types dataSource : ExceptT SourceError (StateM World) _).run :=
  (transparent_readCatalog dataSource).bindExcept fun _ =>
    Transparent.bindExcept (fun _ _ => rfl) fun _ =>
      Transparent.bindExcept (fun _ _ => rfl) fun _ => fun _ _ => rfl

/-- Asking a server for one table comes to the same under watch. -/
theorem transparent_describeTable (types : TypeTable) (name : String) :
    Transparent (describeTable types name : ExceptT SourceError Watched Table).run
      (describeTable types name : ExceptT SourceError (StateM World) Table).run :=
  Transparent.bindExcept (Transparent.attempt (fun _ _ => rfl) _) fun _ =>
    Transparent.bindExcept (fun _ _ => rfl) fun _ => fun _ _ => rfl

/-- So does the whole conversation with a server. -/
theorem transparent_readServer (types : TypeTable) (address : String) :
    Transparent (readServer types address : ExceptT SourceError Watched (List Table)).run
      (readServer types address : ExceptT SourceError (StateM World) (List Table)).run := by
  refine (Transparent.attempt (fun _ _ => rfl) _).bindExcept fun _ => ?_
  refine (Transparent.attempt (fun _ _ => rfl) _).bindExcept fun rows => ?_
  refine Transparent.bindExcept (fun _ _ => rfl) fun names => ?_
  refine Transparent.bindExcept (fun _ _ => rfl) fun _ => ?_
  refine (transparent_mapM (transparent_describeTable types) names).bindExcept fun tables => ?_
  exact (Transparent.attempt (fun _ _ => rfl) _).bindExcept fun _ => fun _ _ => rfl

/-- Whichever driver reads the tables, it comes to the same under watch. -/
theorem transparent_readTables (c : Connection) :
    Transparent (readTables c : ExceptT SourceError Watched (List Table)).run
      (readTables c : ExceptT SourceError (StateM World) (List Table)).run := by
  refine Transparent.bindExcept (fun _ _ => rfl) fun driver => ?_
  refine Transparent.bindExcept (fun _ _ => rfl) fun types => ?_
  cases driver with
  | sqlite => exact transparent_readDatabase types c.dataSource
  | mysql => exact transparent_readServer types c.dataSource

/-- Files are written under watch as they are without. -/
theorem transparent_writeFiles (directory : String) (files : List (String × String)) :
    Transparent (writeFiles directory files : ExceptT GeneratorError Watched _).run
      (writeFiles directory files : ExceptT GeneratorError (StateM World) _).run := by
  refine (Transparent.attempt (fun _ _ => rfl) _).bindExcept fun _ => ?_
  refine transparent_mapM (fun file => ?_) files
  refine Transparent.bindExcept (fun _ _ => rfl) fun _ => ?_
  exact (Transparent.attempt (fun _ _ => rfl) _).bindExcept fun _ => fun _ _ => rfl

/-- So is what goes to the standard output. -/
theorem transparent_publish (s : Settings) (tables : List Table) :
    Transparent (publish s tables : ExceptT GeneratorError Watched Unit).run
      (publish s tables : ExceptT GeneratorError (StateM World) Unit).run := by
  refine Transparent.bindExcept (fun _ _ => rfl) fun publication => ?_
  cases publication with
  | output text => exact fun _ _ => rfl
  | directory directory files =>
    exact (transparent_writeFiles directory files).bindExcept fun _ => fun _ _ => rfl

/-- A request comes to the same under watch, from reading to publishing. -/
theorem transparent_perform (r : Request) :
    Transparent (r.perform : ExceptT RequestError Watched Unit).run
      (r.perform : ExceptT RequestError (StateM World) Unit).run := by
  refine ((transparent_readTables r.connection).attempt _).bindExcept fun tables => ?_
  dsimp only
  split
  · exact Transparent.bindExcept (fun _ _ => rfl) fun _ => (transparent_publish _ _).attempt _
  · exact (transparent_publish _ _).attempt _

/-! ## Looking for no database -/

/-- On a world, something comes to the same whether it is watched or not, and looks for no
database. -/
def LooksForNone {α : Type} (w : World) (watched : Watched α) (act : StateM World α) : Prop :=
  ∀ places, watched (w, places) = ((act w).1, ((act w).2, places))

section LooksForNone

variable {ε α β : Type} {w : World}

/-- A sequence looks for no database if neither part does on the world that it finds. -/
theorem LooksForNone.bind {watched : Watched α} {act : StateM World α} {wnext : α → Watched β}
    {next : α → StateM World β} (h : LooksForNone w watched act)
    (hnext : LooksForNone (act w).2 (wnext (act w).1) (next (act w).1)) :
    LooksForNone w (watched >>= wnext) (act >>= next) := by
  intro places
  change wnext (watched (w, places)).1 (watched (w, places)).2 = _
  rw [h, hnext]
  rfl

/-- The same with errors, where only what is done counts. -/
theorem LooksForNone.bindExcept {watched : ExceptT ε Watched α}
    {act : ExceptT ε (StateM World) α} {wnext : α → ExceptT ε Watched β}
    {next : α → ExceptT ε (StateM World) β} (h : LooksForNone w watched.run act.run)
    (hnext : ∀ a, (w.run act).1 = .ok a →
      LooksForNone (w.run act).2 (wnext a).run (next a).run) :
    LooksForNone w (watched >>= wnext).run (act >>= next).run := by
  change LooksForNone w (watched.run >>= ExceptT.bindCont wnext) (act.run >>= ExceptT.bindCont next)
  refine h.bind ?_
  change LooksForNone _ (ExceptT.bindCont wnext (w.run act).1) (ExceptT.bindCont next (w.run act).1)
  cases hact : (w.run act).1 with
  | ok a => exact hnext a hact
  | error e => exact fun _ => rfl

/-- What cannot fail looks for no more databases when it is done where errors could end the run. -/
theorem LooksForNone.lift {watched : Watched α} {act : StateM World α}
    (h : LooksForNone w watched act) :
    LooksForNone w (ExceptT.lift watched : ExceptT ε Watched α).run
      (ExceptT.lift act : ExceptT ε (StateM World) α).run := by
  intro places
  change (Except.ok (watched (w, places)).1, (watched (w, places)).2) = _
  rw [h]
  rfl

end LooksForNone

/-- What looks for no database on any world comes to the same under watch. -/
theorem Transparent.of_looksForNone {α : Type} {watched : Watched α} {act : StateM World α}
    (h : ∀ w, LooksForNone w watched act) : Transparent watched act := by
  intro w places
  rw [h w places]
  rfl

/-- No database is looked for to find the settings file at home. -/
theorem looksForNone_homeSettings (w : World) :
    LooksForNone w (homeSettings : Watched (Option String)) homeSettings := by
  refine LooksForNone.bind (fun _ => rfl) ?_
  split
  · exact fun _ => rfl
  · exact LooksForNone.bind (fun _ => rfl) fun _ => rfl

/-- Nor to read a settings file. -/
theorem looksForNone_loadSettings (w : World) (path : String) :
    LooksForNone w (loadSettings path : ExceptT SettingsFileError Watched SettingsFile).run
      (loadSettings path : ExceptT SettingsFileError (StateM World) SettingsFile).run :=
  LooksForNone.bindExcept (fun _ => rfl) fun _ _ => fun _ => rfl

/-- Nor to choose between the file that is given and the one at home. -/
theorem looksForNone_findSettings (w : World) (given : Option String) :
    LooksForNone w (findSettings given : ExceptT SettingsFileError Watched _).run
      (findSettings given : ExceptT SettingsFileError (StateM World) _).run := by
  have hload : ∀ w path, LooksForNone w
      (do return some (path, ← loadSettings path) :
        ExceptT SettingsFileError Watched (Option (String × SettingsFile))).run
      (do return some (path, ← loadSettings path) :
        ExceptT SettingsFileError (StateM World) (Option (String × SettingsFile))).run :=
    fun w path => (looksForNone_loadSettings w path).bindExcept fun _ _ => fun _ => rfl
  cases given with
  | some path => exact hload w path
  | none =>
    refine (looksForNone_homeSettings w).lift.bindExcept fun found _ => ?_
    cases found with
    | none => exact fun _ => rfl
    | some path => exact hload _ path

/-- Nor to tell which file was taken. -/
theorem looksForNone_readSettings (w : World) (given : Option String) :
    LooksForNone w (readSettings given : ExceptT ProgramError Watched SettingsFile).run
      (readSettings given : ExceptT ProgramError (StateM World) SettingsFile).run := by
  refine LooksForNone.bindExcept ((looksForNone_findSettings w given).bind fun _ => rfl) ?_
  intro found _
  cases found with
  | none => exact fun _ => rfl
  | some found => exact LooksForNone.bindExcept (fun _ => rfl) fun _ _ => fun _ => rfl

/-! ## Whole runs -/

/-- A run comes to the same under watch, with its settings and its request. -/
theorem transparent_run (line : CommandLine) :
    Transparent (run line : ExceptT ProgramError Watched Status).run
      (run line : ExceptT ProgramError (StateM World) Status).run := by
  have hread := Transparent.of_looksForNone (looksForNone_readSettings · line.settingsFile)
  refine hread.bindExcept fun file => ?_
  refine Transparent.bindExcept (fun _ _ => rfl) fun request => ?_
  cases request with
  | none => exact Transparent.bindExcept (fun _ _ => rfl) fun _ => fun _ _ => rfl
  | some request =>
    exact ((transparent_perform request).attempt _).bindExcept fun _ => fun _ _ => rfl

/-- A run that is watched has the same status and leaves the same world, whatever the words. -/
theorem transparent_program (words : List String) :
    Transparent (program words : Watched Status) (program words) := by
  rw [program, program]
  split
  · next halt _ => cases halt <;> exact fun _ _ => rfl
  · next line _ =>
    refine (transparent_run line).bind fun result => ?_
    cases result with
    | ok status => exact fun _ _ => rfl
    | error e => exact Transparent.bind (fun _ _ => rfl) fun _ => fun _ _ => rfl

end TableSchema.Run
