import TableSchema.Proofs.Run.Choices
import TableSchema.Proofs.Run.Output
import TableSchema.Proofs.Run.Watched

/-!
# How a run ends

A run goes through the settings file, the choices and the request, and the first of them that fails
ends it. The number that it ends with says how far it came, and nothing is put out on the way but
the help or the document at its end.
-/

namespace TableSchema.Run

open Catalog Host Schema Source

/-! ## Settings files -/

/-- The path of the settings file of a world: the one that is given, or else the one in the home
directory, if there is a file. -/
def settingsPath (w : World) : Option String → Option String
  | some path => some path
  | none =>
    match w.home.filter (· ≠ "") with
    | none => none
    | some home =>
      if w.files.isFile w.directory (joinPath home ".db2jsonschema.yaml") then
        some (joinPath home ".db2jsonschema.yaml")
      else none

/-- What the settings file at a path says. -/
def settingsAt (w : World) (path : String) : Except SettingsFileError SettingsFile :=
  match w.files.readText w.directory path with
  | .error fault => .error (.unreadable path fault)
  | .ok text =>
    match SettingsFile.ofText? text with
    | none => .error (.invalid path)
    | some file => .ok file

/-- The settings file of a world and where it is, if there is one. -/
def settingsOf (w : World) (given : Option String) :
    Except SettingsFileError (Option (String × SettingsFile)) :=
  match settingsPath w given with
  | none => .ok none
  | some path => (settingsAt w path).map fun file => some (path, file)

theorem run_lift {ε α : Type} (w : World) (act : StateM World α) :
    w.run (ExceptT.lift act : ExceptT ε (StateM World) α) = (.ok (act w).1, (act w).2) := rfl

theorem homeSettings_eq (w : World) :
    (homeSettings : StateM World (Option String)) w = (settingsPath w none, w) := by
  unfold homeSettings settingsPath
  simp only [bind, StateT.bind, Host.home, Host.isFile]
  cases w.home.filter (· ≠ "") <;> rfl

/-- Loading a settings file is reading it off the tree of the world. -/
theorem loadSettings_eq (w : World) (path : String) :
    w.run (loadSettings path) = (settingsAt w path, w) := by
  have hread : w.run (attempt (Host.readText path) (SettingsFileError.unreadable path)) =
      ((w.files.readText w.directory path).mapError (.unreadable path), w) := rfl
  rw [loadSettings, World.run_bind, hread, settingsAt]
  cases w.files.readText w.directory path with
  | error fault => rfl
  | ok text =>
    simp only [Except.mapError, World.run_settle]
    cases SettingsFile.ofText? text <;> rfl

theorem run_findSettings (w : World) (given : Option String) :
    w.run (findSettings given) = (settingsOf w given, w) := by
  have hload : ∀ path, w.run ((fun file => some (path, file)) <$> loadSettings path) =
      ((settingsAt w path).map fun file => some (path, file), w) := by
    intro path
    rw [World.run_map, loadSettings_eq]
  have hhome : w.run (ExceptT.lift homeSettings : ExceptT SettingsFileError (StateM World) _) =
      (.ok (settingsPath w none), w) := by
    rw [run_lift, homeSettings_eq]
  cases given with
  | some path => exact hload path
  | none =>
    unfold findSettings settingsOf
    simp only [World.run_bind, hhome]
    cases settingsPath w none with
    | none => rfl
    | some path => exact hload path

/-! ## Runs on a world -/

/-- What the program ends with on a world, as a number, and the world afterwards. -/
def exit (w : World) (words : List String) : Nat × World :=
  let (status, w') := (program words : StateM World Status) w
  (status.code, w')

/-- What is told of the settings file that is found. -/
def settingsMessages (found : Option (String × SettingsFile)) : List Message :=
  found.toList.map fun (path, _) => ⟨.info, s!"Using config file: {path}"⟩

/-- What the settings file that is found says. -/
def fileOf (found : Option (String × SettingsFile)) : SettingsFile := (found.map Prod.snd).getD {}

/-- How a failure is told. -/
def failureMessage (e : ProgramError) : Message := ⟨.error, e.message⟩

/-- A run that finds its settings says where; one that cannot read them says nothing and fails. -/
theorem run_readSettings (w : World) (given : Option String) :
    w.run (readSettings given) =
      match settingsOf w given with
      | .error e => (.error (.settingsFile e), w)
      | .ok found => (.ok (fileOf found), told w (settingsMessages found)) := by
  rw [readSettings, World.run_bind, World.run_attempt_run, run_findSettings]
  rcases settingsOf w given with e | _ | ⟨path, file⟩
  · rfl
  · -- without a file nothing is told
    change (Except.ok _, w) = (Except.ok _, { w with log := w.log ++ [] })
    rw [List.append_nil]
    rfl
  · rfl

/-- What the program does with a command line it understands: settings, then choices, then the
request. -/
theorem run_run (w : World) (line : CommandLine) :
    w.run (run line) =
      match settingsOf w line.settingsFile with
      | .error e => (.error (.settingsFile e), w)
      | .ok found =>
        match (line.choices.orElse (fileOf found).choices).request? (fileOf found).types with
        | .error e => (.error (.choices e), told w (settingsMessages found))
        | .ok none =>
          (.ok .usage, { told w (settingsMessages found) with output := w.output ++ helpText })
        | .ok (some request) =>
          let (result, w') := (told w (settingsMessages found)).run request.perform
          ((result.mapError (.request request.connection.dataSource)).map fun _ => .success,
            w') := by
  rw [run, World.run_bind, run_readSettings]
  cases settingsOf w line.settingsFile with
  | error e => rfl
  | ok found =>
    simp only [World.run_bind, World.run_settle]
    rcases (line.choices.orElse (fileOf found).choices).request? (fileOf found).types with
      e | _ | request
    · rfl
    · rfl
    · simp only [Except.mapError, World.run_bind, World.run_attempt_run]
      rcases (told w (settingsMessages found)).run request.perform with ⟨_ | _, _⟩ <;> rfl

/-- Tells a failure, if there is one. -/
def report {m : Type → Type} [Monad m] [Host m] (act : ExceptT ProgramError m Status) :
    m Status := do
  match ← act.run with
  | .ok status => return status
  | .error e =>
    Host.log (failureMessage e)
    return .failure

theorem program_eq_report {m : Type → Type} [Monad m] [Host m] {words : List String}
    {line : CommandLine} (h : CommandLine.ofWords words = .ok line) :
    (program words : m Status) = report (run line) := by
  rw [program, h]
  rfl

/-- A failure is reported in one message and becomes the failing status. -/
theorem report_eq (w : World) (act : ExceptT ProgramError (StateM World) Status) :
    report act w =
      match w.run act with
      | (.ok status, w') => (status, w')
      | (.error e, w') => (.failure, told w' [failureMessage e]) := by
  simp only [report, bind, StateT.bind, ExceptT.run, World.run]
  rcases act w with ⟨e | status, w'⟩ <;> rfl

theorem exit_of_line {words : List String} {line : CommandLine}
    (h : CommandLine.ofWords words = .ok line) (w : World) :
    exit w words =
      match w.run (run line) with
      | (.ok status, w') => (status.code, w')
      | (.error e, w') => (1, told w' [failureMessage e]) := by
  rw [exit, program_eq_report h, report_eq]
  rcases w.run (run line) with ⟨e | status, w'⟩ <;> rfl

/-! ## Status -/

/-- Where the driver or the data source is missing, no database is looked for. -/
theorem looksForNone_run {w : World} {line : CommandLine} {found : Option (String × SettingsFile)}
    (hfound : settingsOf w line.settingsFile = .ok found)
    (hmissing : (line.choices.orElse (fileOf found).choices).Missing .driver ∨
      (line.choices.orElse (fileOf found).choices).Missing .dataSource) :
    LooksForNone w (run line : ExceptT ProgramError Watched Status).run
      (run line : ExceptT ProgramError (StateM World) Status).run := by
  refine (looksForNone_readSettings w line.settingsFile).bindExcept fun file hfile => ?_
  obtain rfl : fileOf found = file := by
    rw [run_readSettings, hfound] at hfile
    exact Except.ok.inj hfile
  rw [Choices.request?_eq_none_iff.mpr hmissing]
  refine LooksForNone.bindExcept (fun _ => rfl) fun request hrequest => ?_
  obtain rfl : none = request := Except.ok.inj hrequest
  exact LooksForNone.bindExcept (fun _ => rfl) fun _ _ => fun _ => rfl

theorem LooksForNone.report {w : World} {watched : ExceptT ProgramError Watched Status}
    {act : ExceptT ProgramError (StateM World) Status} (h : LooksForNone w watched.run act.run) :
    LooksForNone w (Run.report watched) (Run.report act) := by
  refine h.bind ?_
  split
  · exact fun _ => rfl
  · exact LooksForNone.bind (fun _ => rfl) fun _ => rfl

/-- How a run ends, as a number and a world, that goes on from a world with some choices and some
meanings of type names. -/
structure EndsWith (c : Choices) (types : OrderedMap ColumnType) (start : World)
    (ending : Nat × World) : Prop where
  /-- the number 2 says that the driver or the data source is missing, whatever the format -/
  code_eq_two_iff : ending.1 = 2 ↔ c.Missing .driver ∨ c.Missing .dataSource
  /-- then help is given -/
  of_missing : c.Missing .driver ∨ c.Missing .dataSource →
    ending = (2, { start with output := start.output ++ helpText })
  /-- a format that is none of the two is a failure -/
  of_unknown : ¬(c.Missing .driver ∨ c.Missing .dataSource) → ∀ name,
    c.value .format = some name → name ≠ "" → name ≠ "json" → name ≠ "yaml" →
      ending = (1, told start [failureMessage (.choices (.unknownFormat name))])
  /-- otherwise the request decides -/
  of_request : ∀ driver dataSource format, c.value .driver = some driver → driver ≠ "" →
    c.value .dataSource = some dataSource → dataSource ≠ "" → c.HasFormat format →
      (∀ w', start.run (c.request types driver dataSource format).perform = (.ok (), w') →
        ending = (0, w')) ∧
      ∀ e w', start.run (c.request types driver dataSource format).perform = (.error e, w') →
        ending = (1, told w' [failureMessage (.request dataSource e)])

section Exit

variable {words : List String} {line : CommandLine} {w : World}

/-- A settings file that cannot be read ends the program before the choices are looked at. -/
theorem exit_of_unreadable (hline : CommandLine.ofWords words = .ok line) {e : SettingsFileError}
    (he : settingsOf w line.settingsFile = .error e) :
    exit w words = (1, told w [failureMessage (.settingsFile e)]) := by
  rw [exit_of_line hline, run_run, he]

/-- With a settings file or without one, the request that the choices come to decides. -/
theorem exit_of_found (hline : CommandLine.ofWords words = .ok line)
    {found : Option (String × SettingsFile)} (hfound : settingsOf w line.settingsFile = .ok found) :
    let start := told w (settingsMessages found)
    exit w words =
      match (line.choices.orElse (fileOf found).choices).request? (fileOf found).types with
      | .error e => (1, told start [failureMessage (.choices e)])
      | .ok none => (2, { start with output := start.output ++ helpText })
      | .ok (some request) =>
        match start.run request.perform with
        | (.ok (), w') => (0, w')
        | (.error e, w') =>
          (1, told w' [failureMessage (.request request.connection.dataSource e)]) := by
  rw [exit_of_line hline, run_run, hfound]
  dsimp only
  rcases (line.choices.orElse (fileOf found).choices).request? (fileOf found).types with
    e | _ | request
  · rfl
  · rfl
  · dsimp only
    rcases (told w (settingsMessages found)).run request.perform with ⟨_ | _, _⟩ <;> rfl

end Exit

theorem endsWith_exit {words : List String} {line : CommandLine}
    (hline : CommandLine.ofWords words = .ok line) {w : World}
    {found : Option (String × SettingsFile)} (hfound : settingsOf w line.settingsFile = .ok found) :
    EndsWith (line.choices.orElse (fileOf found).choices) (fileOf found).types
      (told w (settingsMessages found)) (exit w words) := by
  have hexit := exit_of_found hline hfound
  dsimp only at hexit
  refine ⟨?_, fun hmissing => ?_, fun hgiven name hname hne hjson hyaml => ?_,
    fun driver dataSource format hdriver hdriverNe hsource hsourceNe hformat => ?_⟩
  · rw [← Choices.request?_eq_none_iff, hexit]
    rcases (line.choices.orElse (fileOf found).choices).request? (fileOf found).types with
      e | _ | request
    · simp
    · simp
    · dsimp only
      split <;> simp
  · rw [hexit, Choices.request?_eq_none_iff.mpr hmissing]
  · obtain ⟨hdriver, hsource⟩ := not_or.mp hgiven
    obtain ⟨driver, hdriver, hdriverNe⟩ := Choices.exists_of_not_missing hdriver
    obtain ⟨dataSource, hsource, hsourceNe⟩ := Choices.exists_of_not_missing hsource
    rw [hexit, Choices.request?_of_given hdriver hdriverNe hsource hsourceNe,
      Choices.format_of_unknown hname hne hjson hyaml]
    rfl
  · rw [hexit, Choices.request?_of_given hdriver hdriverNe hsource hsourceNe,
      Choices.format_of_hasFormat hformat]
    refine ⟨fun w' hrun => ?_, fun e w' hrun => ?_⟩ <;> simp only [Except.map, hrun]
    rfl

/-- Unless all goes well, at most the help reaches the standard output. -/
theorem output_of_exit (words : List String) (w : World) :
    (exit w words).1 = 0 ∨
      (exit w words).1 = 1 ∧ (exit w words).2.output = w.output ∨
      (exit w words).1 = 2 ∧ ((exit w words).2.output = w.output ∨
        (exit w words).2.output = w.output ++ helpText) := by
  cases hline : CommandLine.ofWords words with
  | error halt =>
    rw [exit, program, hline]
    -- help and version are answers, and all else is a complaint
    cases halt with
    | help | version => exact .inl rfl
    | unknown | withoutValue | repeated | needlessValue => exact .inr (.inr ⟨rfl, .inl rfl⟩)
  | ok line =>
    cases hfound : settingsOf w line.settingsFile with
    | error e =>
      rw [exit_of_unreadable hline hfound]
      exact .inr (.inl ⟨rfl, rfl⟩)
    | ok found =>
      have hexit := exit_of_found hline hfound
      dsimp only at hexit
      rw [hexit]
      rcases (line.choices.orElse (fileOf found).choices).request? (fileOf found).types with
        e | _ | request
      · exact .inr (.inl ⟨rfl, rfl⟩)
      · exact .inr (.inr ⟨rfl, .inr rfl⟩)
      · dsimp only
        rcases hrun : (told w (settingsMessages found)).run request.perform with ⟨e | _, w'⟩
        · have houtput : w'.output = (told w (settingsMessages found)).output :=
            perform_error_output hrun
          exact .inr (.inl ⟨rfl, houtput⟩)
        · exact .inl rfl

/-- **Choices are interchangeable, and the status tells what happened.** For the request it does not
matter whether a choice stands on the command line or in the settings file, and a choice on the
command line hides that of the file. If the command line can be read, a run ends

* with 1 if the settings file cannot be read or understood;
* else with 2 just if the driver or the data source is missing, and then help is all that is put
  out and no database is looked for;
* else with 1 if the format is unknown or the request fails;
* else with 0, and with what the request comes to.

Which databases are looked for is seen by a watch, which changes nothing else. However a run fails,
no document is put out. (The standard output of a world takes every text.) -/
theorem choices_interchange_and_status_tells :
    (∀ flags file overrides, Choices.Interchangeable flags file overrides) ∧
    (∀ words line, CommandLine.ofWords words = .ok line → ∀ w,
      (∀ e, settingsOf w line.settingsFile = .error e →
        exit w words = (1, told w [failureMessage (.settingsFile e)])) ∧
      ∀ found, settingsOf w line.settingsFile = .ok found →
        let c := line.choices.orElse (fileOf found).choices
        EndsWith c (fileOf found).types (told w (settingsMessages found)) (exit w words) ∧
          (c.Missing .driver ∨ c.Missing .dataSource →
            LooksForNone w (program words) (program words))) ∧
    (∀ words, Transparent (program words) (program words)) ∧
    ∀ words w, (exit w words).1 = 0 ∨
      (exit w words).1 = 1 ∧ (exit w words).2.output = w.output ∨
      (exit w words).1 = 2 ∧ ((exit w words).2.output = w.output ∨
        (exit w words).2.output = w.output ++ helpText) := by
  refine ⟨Choices.interchangeable, fun words line hline w => ?_, transparent_program,
    output_of_exit⟩
  refine ⟨fun e he => exit_of_unreadable hline he, fun found hfound => ?_⟩
  refine ⟨endsWith_exit hline hfound, fun hmissing => ?_⟩
  rw [program_eq_report hline, program_eq_report hline]
  exact (looksForNone_run hfound hmissing).report

/-- A list of names is moved from a file to the command line. An empty address on the command line
hides that of the file, and help is given although the format is unknown. -/
theorem choices_interchange_and_status_tells_hidden :
    let w : World :=
      { files := FileTree.empty.set ["c.yaml"] (.text "driver: sqlite3\ndburl: a.db\n") }
    let words := ["--config", "c.yaml", "--dburl", "", "--format", "xml"]
    let file : Choices := { value := fun _ => some "yaml", includes := ["a", "b"] }
    ((({} : Choices).withNames .includes ["a", "b"]).orElse
        (file.withNames .includes [])).request? .empty =
        (({} : Choices).orElse file).request? .empty ∧
      (CommandLine.ofWords words).isOk ∧
      exit w words = (2, { told w [⟨.info, "Using config file: c.yaml"⟩] with
        output := "" ++ helpText }) ∧
      LooksForNone w (program words) (program words) := by
  intro w words file
  obtain ⟨hinterchangeable, hstatus, -⟩ := choices_interchange_and_status_tells
  have hwords : (CommandLine.ofWords words).toOption.map
      (fun l => (l.settingsFile, l.choices.value .dataSource)) = some (some "c.yaml", some "") := by
    decide +kernel
  have hfile : (settingsOf w (some "c.yaml")).toOption.map settingsMessages =
      some [⟨.info, "Using config file: c.yaml"⟩] := by
    decide +kernel
  cases hline : CommandLine.ofWords words with
  | error halt =>
    rw [hline] at hwords
    cases hwords
  | ok line =>
    rw [hline] at hwords
    obtain ⟨hsettings, haddress⟩ := Prod.mk.inj (Option.some.inj hwords)
    cases hfound : settingsOf w (some "c.yaml") with
    | error e =>
      rw [hfound] at hfile
      cases hfile
    | ok found =>
      rw [hfound] at hfile
      have hmessages : settingsMessages found = [⟨.info, "Using config file: c.yaml"⟩] :=
        Option.some.inj hfile
      obtain ⟨hends, hnone⟩ := (hstatus words line hline w).2 found (hsettings ▸ hfound)
      have hmissing : (line.choices.orElse (fileOf found).choices).Missing .dataSource := by
        refine .inr ?_
        change (line.choices.value .dataSource).or _ = _
        rw [haddress]
        rfl
      refine ⟨(hinterchangeable {} file .empty).move_names .includes [] rfl (by decide), rfl, ?_,
        hnone (.inr hmissing)⟩
      rw [hends.of_missing (.inr hmissing), hmessages]
      rfl

end TableSchema.Run
