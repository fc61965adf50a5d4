import TableSchema.Proofs.Host.Path
import TableSchema.Proofs.Run.Publishing

/-!
# Where the files of tables are

The name of a table is refused where the file would not be in the output directory itself: the name
is empty or one that every directory has, or a character in it divides names or ends them. What is
accepted makes the name of a file that is one step behind the directory, whatever the directory is,
and different tables have different files.
-/

namespace TableSchema.Schema

open Host

/-- A name that can only be that of an entry of a directory. -/
structure IsOrdinary (name : String) : Prop where
  ne_empty : name ≠ ""
  ne_here : name ≠ "."
  ne_parent : name ≠ ".."
  no_slash : '/' ∉ name.toList
  no_backslash : '\\' ∉ name.toList
  no_null : '\x00' ∉ name.toList

theorem isFileName_iff {name : String} : isFileName name ↔ IsOrdinary name := by
  have hchars : (name.toList.all fun c => c ≠ '/' && c ≠ '\\' && c ≠ '\x00') = true ↔
      '/' ∉ name.toList ∧ '\\' ∉ name.toList ∧ '\x00' ∉ name.toList := by
    simp only [List.all_eq_true]
    grind
  rw [isFileName, Bool.and_eq_true, hchars]
  refine ⟨?_, fun h => ?_⟩
  · rintro ⟨hnames, hslash, hbackslash, hnull⟩
    simp at hnames
    exact ⟨hnames.1.1, hnames.1.2, hnames.2, hslash, hbackslash, hnull⟩
  · simp [h.ne_empty, h.ne_here, h.ne_parent, h.no_slash, h.no_backslash, h.no_null]

/-- The extension keeps a name ordinary. -/
theorem IsOrdinary.file {name : String} (h : IsOrdinary name) (format : Format) :
    IsPlain (name ++ "." ++ format.text) ∧ IsOrdinary (name ++ "." ++ format.text) := by
  have hplain : IsPlain (name ++ "." ++ format.text) :=
    Settings.isPlain_fileOf (s := { format }) (isFileName_iff.mpr h)
  have hextension : '\\' ∉ format.text.toList ∧ '\x00' ∉ format.text.toList := by
    cases format <;> decide
  refine ⟨hplain, hplain.ne_empty, hplain.ne_here, hplain.ne_parent, hplain.no_slash, ?_, ?_⟩
  · simp [h.no_backslash, hextension]
  · simp [h.no_null, hextension]

/-- The extensions are equally long, so what is before them is the name. -/
theorem name_and_format_of_file {name name' : String} {format format' : Format}
    (h : name ++ "." ++ format.text = name' ++ "." ++ format'.text) :
    name = name' ∧ format = format' := by
  have hlength : ∀ format : Format, ("." ++ format.text).toList.length = 5 := by
    intro format
    cases format <;> decide
  have hlist : name.toList ++ ("." ++ format.text).toList =
      name'.toList ++ ("." ++ format'.text).toList := by
    rw [← String.toList_append, ← String.toList_append, ← String.append_assoc,
      ← String.append_assoc, h]
  obtain ⟨hname, hextension⟩ :=
    List.append_inj' hlist ((hlength format).trans (hlength format').symm)
  refine ⟨String.toList_inj.mp hname, ?_⟩
  cases format <;> cases format' <;> first | rfl | exact absurd hextension (by decide)

/-- A name makes a file if it is ordinary, and else it is refused. -/
theorem fileName_cases (name : String) (format : Format) :
    IsOrdinary name ∧ fileName name format = .ok (name ++ "." ++ format.text) ∨
      ¬ IsOrdinary name ∧ fileName name format = .error (.invalidFileName name) := by
  rw [← isFileName_iff, Settings.fileName_eq { format } name]
  cases isFileName name
  · exact .inr ⟨Bool.false_ne_true, rfl⟩
  · exact .inl ⟨rfl, rfl⟩

theorem fileName_eq_ok {name file : String} {format : Format}
    (h : fileName name format = .ok file) : IsOrdinary name ∧ file = name ++ "." ++ format.text := by
  rcases fileName_cases name format with ⟨hname, hok⟩ | ⟨-, herror⟩
  · exact ⟨hname, Except.ok.inj (h.symm.trans hok)⟩
  · cases herror.symm.trans h

end TableSchema.Schema

namespace TableSchema.Run

open Catalog Host Schema

variable {s : Settings} {tables : List Table} {directory : String} {w w' : World}

/-- Where files are written, there is one for each table, in order. -/
theorem paths_of_writeDirectory {paths : List String}
    (h : w.run (writeDirectory s tables directory) = (.ok paths, w')) :
    (∀ t ∈ tables, isFileName t.name) ∧
      paths = tables.map fun t => s.pathOf directory t.name := by
  cases hfiles : s.files tables with
  | error e =>
    rw [run_writeDirectory_of_error hfiles] at h
    cases h
  | ok files =>
    obtain ⟨hnames, hids⟩ := Settings.names_of_files hfiles
    have houtcome := outcome_of_writeDirectory hnames hids directory w
    rw [h] at houtcome
    -- of all outcomes only one gives paths
    cases houtcome with
    | written published log => exact ⟨hnames, rfl⟩

/-- **Files stay in their directory and do not collide.** A table name that is not ordinary is
refused. An ordinary one makes, with the extension, an ordinary name of a file, which joined to any
directory does not take its place but goes one step further. Different names or formats make
different names of files, so that the paths of the files that are written for tables are each one
step behind the directory, and the same for two tables only if their names are. -/
theorem files_stay_in_directory :
    (∀ (name : String) (format : Format),
      ¬ IsOrdinary name ∧ fileName name format = .error (.invalidFileName name) ∨
      IsOrdinary name ∧ ∃ file, fileName name format = .ok file ∧
        file = name ++ "." ++ format.text ∧ IsOrdinary file ∧
        ∀ directory, join directory file = joinPath directory file ∧
          components (join directory file) = components directory ++ [.name file]) ∧
    (∀ (name name' file : String) (format format' : Format), fileName name format = .ok file →
      fileName name' format' = .ok file → name = name' ∧ format = format') ∧
    ∀ (s : Settings) (tables : List Table) (directory : String) (w w' : World)
      (paths : List String), w.run (writeDirectory s tables directory) = (.ok paths, w') →
        List.Forall₂ (fun t path => ∃ file, fileName t.name s.format = .ok file ∧
          path = join directory file ∧
          components path = components directory ++ [.name file]) tables paths ∧
        ∀ (i j : Nat) (t u : Table), tables[i]? = some t → tables[j]? = some u →
          paths[i]? = paths[j]? → t.name = u.name := by
  refine ⟨fun name format => ?_, fun name name' file format format' h h' => ?_,
    fun s tables directory w w' paths h => ?_⟩
  · rcases fileName_cases name format with ⟨hname, hok⟩ | hrefused
    · obtain ⟨hplain, hfile⟩ := hname.file format
      exact .inr ⟨hname, _, hok, rfl, hfile, fun directory =>
        ⟨hplain.join_eq directory, hplain.components_join directory⟩⟩
    · exact .inl hrefused
  · obtain ⟨-, rfl⟩ := fileName_eq_ok h
    exact name_and_format_of_file (fileName_eq_ok h').2
  · obtain ⟨hnames, rfl⟩ := paths_of_writeDirectory h
    refine ⟨List.forall₂_map_right_iff.mpr (List.forall₂_same.mpr fun t ht => ?_),
      fun i j t u hi hj hpath => ?_⟩
    · have hplain : IsPlain (s.fileOf t.name) := Settings.isPlain_fileOf (hnames t ht)
      have hok : fileName t.name s.format = .ok (s.fileOf t.name) := by
        rw [Settings.fileName_eq, if_pos (hnames t ht)]
      rw [Settings.pathOf, ← hplain.join_eq]
      exact ⟨_, hok, rfl, hplain.components_join directory⟩
    · rw [List.getElem?_map, List.getElem?_map, hi, hj] at hpath
      exact s.fileOf_injective (FileTree.joinPath_injective directory (Option.some.inj hpath))

/-- The first and the last of three tables share a file, and the name of one begins with dots. -/
theorem files_stay_in_directory_dots :
    let tables : List Table := [⟨"..a", [], []⟩, ⟨"b", [], []⟩, ⟨"..a", [], ["x"]⟩]
    let paths := ["out//..a.json", "out//b.json", "out//..a.json"]
    let after := (World.run {} (writeDirectory {} tables "out//")).2
    World.run {} (writeDirectory {} tables "out//") = (.ok paths, after) ∧
      List.Forall₂ (fun t path => ∃ file, fileName t.name .json = .ok file ∧
        path = join "out//" file ∧ components path = [.name "out", .name file]) tables paths ∧
      fileName "..a" .json = .ok "..a.json" ∧ fileName "b" .json = .ok "b.json" := by
  intro tables paths after
  have hrun : World.run {} (writeDirectory {} tables "out//") = (.ok paths, after) :=
    Prod.ext (by decide +kernel) rfl
  have hdirectory : components "out//" = [.name "out"] := by decide +kernel
  obtain ⟨-, -, hfiles⟩ := files_stay_in_directory
  have hpaths := (hfiles {} tables "out//" {} after paths hrun).1
  rw [hdirectory] at hpaths
  exact ⟨hrun, hpaths, by decide, by decide⟩

end TableSchema.Run
