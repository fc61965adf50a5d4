import TableSchema.Proofs.Host.FileTree

/-!
# Paths and their components

A path is a list of components, and its text may have more slashes and dots than these need. Where
a path is joined to a directory, one that starts at the root takes the directory's place. The path
of a file in a directory never does that: its components are those of the directory and then the
name of the file.
-/

namespace TableSchema.Host

open FileTree

/-- A step of a path. -/
inductive Component where
  /-- to the root -/
  | root
  /-- to where one is -/
  | here
  /-- to the directory above -/
  | parent
  /-- to what has a name -/
  | name (text : String)
  deriving DecidableEq, Repr

/-- The step that a name in a path is, unless it stays where it is. -/
def component? (name : String) : Option Component :=
  if isHere name then none else if name = ".." then some .parent else some (.name name)

/-- The step in front of the names of a path: to the root, or to where one is if it says so. -/
def start? (path : String) : Option Component :=
  if path.toList.head? = some '/' then some .root
  else if (names path).head? = some "." then some .here
  else none

/-- The components of a path. -/
def components (path : String) : List Component :=
  (start? path).toList ++ (names path).filterMap component?

/-- A path joined to a directory: one that starts at the root takes the directory's place. -/
def join (directory path : String) : String :=
  if path.toList.head? = some '/' then path else joinPath directory path

example : components ".//a/./b/../" = [.here, .name "a", .name "b", .parent] ∧
    components "/./a" = [.root, .name "a"] ∧ components "" = [] := by decide +kernel

variable {file : String}

theorem IsPlain.component?_eq (h : IsPlain file) : component? file = some (.name file) := by
  rw [component?, if_neg (by simp [h.isHere_eq]), if_neg h.ne_parent]

/-- What leads one step down does not start at the root. -/
theorem IsPlain.join_eq (h : IsPlain file) (directory : String) :
    join directory file = joinPath directory file :=
  if_neg fun hhead => h.no_slash (List.mem_of_head? hhead)

/-! ## Paths of files -/

/-- The names of a directory are those before the name of a file in it, but for an empty one behind
a slash at the end. -/
theorem names_eq_directoryNames {directory : String} (h : directory ≠ "") :
    directoryNames directory ≠ [] ∧ (names directory = directoryNames directory ∨
      names directory = directoryNames directory ++ [""]) := by
  have hne : ∀ path, names path ≠ [] := by
    intro path
    simpa [names, Text.splitString] using Text.split_ne_nil '/' path.toList
  rw [directoryNames, if_neg h]
  by_cases hlast : directory.toList.getLast? = some '/'
  · obtain ⟨front, -, hnames⟩ := exists_names_of_slash hlast
    rw [if_pos hlast, hnames, List.dropLast_concat]
    exact ⟨hne front, .inr rfl⟩
  · rw [if_neg hlast]
    exact ⟨hne directory, .inl rfl⟩

/-- An empty name is no step. -/
theorem filterMap_directoryNames (directory : String) :
    (directoryNames directory).filterMap component? = (names directory).filterMap component? := by
  by_cases hempty : directory = ""
  · subst hempty
    rfl
  · rcases (names_eq_directoryNames hempty).2 with hnames | hnames
    · rw [hnames]
    · rw [hnames, List.filterMap_append]
      exact (List.append_nil _).symm

theorem start?_joinPath (directory : String) (h : IsPlain file) :
    start? (joinPath directory file) = start? directory := by
  have hhead : (directoryNames directory ++ [file]).head? = some "." ↔
      (names directory).head? = some "." := by
    by_cases hempty : directory = ""
    · subst hempty
      have hnone : (names "").head? ≠ some "." := by decide
      simpa [directoryNames, hnone] using h.ne_here
    · obtain ⟨hne, hnames⟩ := names_eq_directoryNames hempty
      obtain ⟨first, rest, hfirst⟩ := List.exists_cons_of_ne_nil hne
      rcases hnames with hnames | hnames <;> rw [hnames, hfirst] <;> rfl
  simp only [start?, head?_joinPath directory h.no_slash, names_joinPath directory h.no_slash,
    hhead]

/-- The path of a file goes one step further than that of its directory. -/
theorem components_joinPath (directory : String) (h : IsPlain file) :
    components (joinPath directory file) = components directory ++ [.name file] := by
  rw [components, components, start?_joinPath directory h, names_joinPath directory h.no_slash,
    List.filterMap_append, filterMap_directoryNames, List.append_assoc,
    List.filterMap_cons_some h.component?_eq]
  rfl

theorem IsPlain.components_join (h : IsPlain file) (directory : String) :
    components (join directory file) = components directory ++ [.name file] := by
  rw [h.join_eq, components_joinPath directory h]

end TableSchema.Host
