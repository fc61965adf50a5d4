import TableSchema.Run.Choices

/-!
# Two places for a choice

Whether a choice stands on the command line or in a settings file makes no difference: the choices
that both come to are the same when one of the file is moved to the command line, whatever the file
says there afterwards (`Choices.orElse_move`). Where the command line makes the choice itself, what
the file says does not count (`Choices.orElse_of_isSome`).

A list of table names is a choice that is made just if it is not empty.
-/

namespace TableSchema.Run

open Catalog Schema Source

namespace Choices

/-- The choices with a setting chosen anew, or no longer chosen. -/
def withValue (c : Choices) (s : Setting) (value : Option String) : Choices :=
  { c with value := fun s' => if s' = s then value else c.value s' }

theorem withValue_value (c : Choices) (s : Setting) (value : Option String) :
    (c.withValue s value).value s = value := if_pos rfl

theorem withValue_value_of_ne (c : Choices) {s s' : Setting} (h : s' ≠ s)
    (value : Option String) : (c.withValue s value).value s' = c.value s' := if_neg h

/-- What is chosen on the command line hides what the file says. -/
theorem orElse_of_isSome {flags : Choices} {s : Setting} (h : (flags.value s).isSome)
    (file : Choices) (value : Option String) :
    flags.orElse (file.withValue s value) = flags.orElse file := by
  obtain ⟨v, hv⟩ := Option.isSome_iff_exists.mp h
  have hvalue : ∀ s', (flags.value s').or ((file.withValue s value).value s') =
      (flags.value s').or (file.value s') := by
    intro s'
    by_cases hs : s' = s
    · rw [hs, hv]
      rfl
    · rw [withValue_value_of_ne file hs]
  rw [orElse, orElse, funext hvalue]
  rfl

/-- A choice that only the file makes can be made on the command line instead. -/
theorem orElse_move {flags file : Choices} {s : Setting} (h : flags.value s = none)
    (value : Option String) (hvalue : (file.value s).isSome) :
    (flags.withValue s (file.value s)).orElse (file.withValue s value) = flags.orElse file := by
  rw [orElse_of_isSome (by rwa [withValue_value])]
  have hmoved : ∀ s', ((flags.withValue s (file.value s)).value s').or (file.value s') =
      (flags.value s').or (file.value s') := by
    intro s'
    by_cases hs : s' = s
    · rw [hs, withValue_value, h]
      exact Option.or_self
    · rw [withValue_value_of_ne flags hs]
  rw [orElse, orElse, funext hmoved]
  rfl

/-! ## Tables to keep and to drop -/

/-- The two lists of table names. -/
inductive Listing where
  | includes
  | excludes

/-- The names on a list. -/
def names (c : Choices) : Listing → List String
  | .includes => c.includes
  | .excludes => c.excludes

/-- The choices with other names on a list. -/
def withNames (c : Choices) (l : Listing) (names : List String) : Choices :=
  match l with
  | .includes => { c with includes := names }
  | .excludes => { c with excludes := names }

/-- A list on the command line hides that of the file, unless it is empty. -/
theorem orElse_of_names {flags : Choices} {l : Listing} (h : flags.names l ≠ []) (file : Choices)
    (names : List String) : flags.orElse (file.withNames l names) = flags.orElse file := by
  cases l <;> simp_all [orElse, Choices.names, withNames]

/-- A list that only the file has can be put on the command line instead. -/
theorem orElse_move_names {flags file : Choices} {l : Listing} (h : flags.names l = [])
    (names : List String) (hnames : file.names l ≠ []) :
    (flags.withNames l (file.names l)).orElse (file.withNames l names) = flags.orElse file := by
  cases l <;> simp_all [orElse, Choices.names, withNames]

/-! ## Requests -/

/-- Whether a setting is not chosen, or chosen to be empty. -/
def Missing (c : Choices) (s : Setting) : Prop := c.value s = none ∨ c.value s = some ""

/-- An empty value counts as no value. -/
theorem given?_eq_none_iff {c : Choices} {s : Setting} :
    given? (c.value s) = none ↔ c.Missing s := by
  rw [given?, Missing]
  cases c.value s <;> simp

theorem given?_eq_some_iff {c : Choices} {s : Setting} {v : String} :
    given? (c.value s) = some v ↔ c.value s = some v ∧ v ≠ "" := by
  rw [given?, Option.filter_eq_some_iff, decide_eq_true_iff]

theorem exists_of_not_missing {c : Choices} {s : Setting} (h : ¬c.Missing s) :
    ∃ v, c.value s = some v ∧ v ≠ "" := by
  obtain ⟨v, hv⟩ := Option.ne_none_iff_exists'.mp fun hnone => h (given?_eq_none_iff.mp hnone)
  exact ⟨v, given?_eq_some_iff.mp hv⟩

/-- Whether the choices come to a format: that which is chosen, or JSON if none is. -/
def HasFormat (c : Choices) (format : Format) : Prop :=
  c.Missing .format ∧ format = .json ∨ c.value .format = some format.text

theorem format_of_hasFormat {c : Choices} {format : Format} (h : c.HasFormat format) :
    c.format = .ok format := by
  obtain ⟨hmissing, rfl⟩ | hchosen := h
  · rw [Choices.format, given?_eq_none_iff.mpr hmissing]
  · have hne : format.text ≠ "" := by cases format <;> decide
    rw [Choices.format, given?_eq_some_iff.mpr ⟨hchosen, hne⟩]
    simp only [Format.ofText, Format.ofText?_text]

/-- A format that is neither of the two is named in the error. -/
theorem format_of_unknown {c : Choices} {name : String} (h : c.value .format = some name)
    (hne : name ≠ "") (hjson : name ≠ "json") (hyaml : name ≠ "yaml") :
    c.format = .error (.unknownFormat name) := by
  have hfind : Format.ofText? name = none := by
    simp [Format.ofText?, Format.all, Format.text, hjson.symm, hyaml.symm]
  rw [Choices.format, given?_eq_some_iff.mpr ⟨h, hne⟩]
  simp only [Format.ofText, hfind]

/-- The request for a database of some driver, in some format. -/
def request (c : Choices) (overrides : OrderedMap ColumnType) (driver dataSource : String)
    (format : Format) : Request where
  connection := { driver, dataSource, overrides }
  settings := {
    format
    outdir := c.value .outdir
    dialect := c.value .dialect
    idTemplate := c.value .idTemplate
    title := c.value .title }
  filter := { includes := c.includes, excludes := c.excludes }

theorem request?_of_given {c : Choices} {driver dataSource : String}
    (hdriver : c.value .driver = some driver) (hdriverNe : driver ≠ "")
    (hsource : c.value .dataSource = some dataSource) (hsourceNe : dataSource ≠ "")
    (overrides : OrderedMap ColumnType) :
    c.request? overrides = c.format.map fun format =>
      some (c.request overrides driver dataSource format) := by
  rw [request?, given?_eq_some_iff.mpr ⟨hdriver, hdriverNe⟩,
    given?_eq_some_iff.mpr ⟨hsource, hsourceNe⟩]
  cases c.format <;> rfl

/-- There is no request just if the driver or the data source is missing, whatever the format. -/
theorem request?_eq_none_iff {c : Choices} {overrides : OrderedMap ColumnType} :
    c.request? overrides = .ok none ↔ c.Missing .driver ∨ c.Missing .dataSource := by
  refine ⟨fun hnone => Classical.byContradiction fun hgiven => ?_, fun hmissing => ?_⟩
  · obtain ⟨hdriver, hsource⟩ := not_or.mp hgiven
    obtain ⟨driver, hdriver, hdriverNe⟩ := exists_of_not_missing hdriver
    obtain ⟨dataSource, hsource, hsourceNe⟩ := exists_of_not_missing hsource
    rw [request?_of_given hdriver hdriverNe hsource hsourceNe] at hnone
    cases hformat : c.format <;> rw [hformat] at hnone <;> cases hnone
  · rw [← given?_eq_none_iff, ← given?_eq_none_iff] at hmissing
    rw [request?]
    obtain hmissing | hmissing := hmissing
    · rw [hmissing]
    · rw [hmissing]
      cases given? (c.value .driver) <;> rfl

/-- It does not matter for the request whether a choice stands on the command line or in a file. -/
structure Interchangeable (flags file : Choices) (overrides : OrderedMap ColumnType) : Prop where
  /-- a choice that only the file makes can be moved, whatever the file says then -/
  move : ∀ s value, flags.value s = none → (file.value s).isSome →
    ((flags.withValue s (file.value s)).orElse (file.withValue s value)).request? overrides =
      (flags.orElse file).request? overrides
  /-- what the file says does not count where the command line makes the choice -/
  hide : ∀ s value, (flags.value s).isSome →
    (flags.orElse (file.withValue s value)).request? overrides =
      (flags.orElse file).request? overrides
  /-- a list that only the file has can be moved -/
  move_names : ∀ l names, flags.names l = [] → file.names l ≠ [] →
    ((flags.withNames l (file.names l)).orElse (file.withNames l names)).request? overrides =
      (flags.orElse file).request? overrides
  /-- a list of the file does not count where the command line has one -/
  hide_names : ∀ l names, flags.names l ≠ [] →
    (flags.orElse (file.withNames l names)).request? overrides =
      (flags.orElse file).request? overrides

theorem interchangeable (flags file : Choices) (overrides : OrderedMap ColumnType) :
    Interchangeable flags file overrides where
  move _ value hflags hfile := by rw [orElse_move hflags value hfile]
  hide _ value hflags := by rw [orElse_of_isSome hflags file value]
  move_names _ names hflags hfile := by rw [orElse_move_names hflags names hfile]
  hide_names _ names hflags := by rw [orElse_of_names hflags file names]

end Choices

end TableSchema.Run
