import TableSchema.Proofs.Catalog.Meaning
import TableSchema.Source.Description

/-!
# Models of described tables

The fields of a described table are its columns with the meanings of their types, in order. The
first column with a type without a meaning is the reason why there is no model.

A description and a definition with the same columns come to the same fields, or fail for the same
type (`described_as_defined`). Only the primary key is told apart: a definition names its columns in
clauses, a description marks them one by one.
-/

namespace TableSchema.Source

open Catalog

variable {types : TypeTable} {name : String} {description : List DescribeRow}

/-- The field of a described column, if its type has a meaning. -/
def describedField (types : TypeTable) (d : DescribeRow) : Except UnknownType Field :=
  (types.resolve d.dataType).map (⟨d.field, ·⟩)

theorem describedField_eq_error_iff {d : DescribeRow} {e : UnknownType} :
    describedField types d = .error e ↔ d.dataType ∉ types.entries.keys ∧ e = ⟨d.dataType⟩ := by
  rw [describedField, ← resolve_eq_error_iff]
  cases types.resolve d.dataType <;> simp [Except.map]

theorem exists_describedField_iff {d : DescribeRow} :
    (∃ f, describedField types d = .ok f) ↔ d.dataType ∈ types.entries.keys := by
  constructor
  · rintro ⟨f, hf⟩
    by_contra hd
    rw [describedField_eq_error_iff.mpr ⟨hd, rfl⟩] at hf
    cases hf
  · intro hd
    cases h : describedField types d with
    | ok f => exact ⟨f, rfl⟩
    | error e => exact absurd hd (describedField_eq_error_iff.mp h).1

/-- The fields of a described table are its rows in order, its key the rows marked `PRI`. -/
theorem tableOfDescription_eq (types : TypeTable) (name : String)
    (description : List DescribeRow) :
    tableOfDescription types name description =
      (description.mapM (describedField types)).map
        (⟨name, ·, (description.filter DescribeRow.isPrimary).map DescribeRow.field⟩) := by
  have hfields : (fun row : DescribeRow => do
      return (⟨row.field, ← types.resolve row.dataType⟩ : Field)) = describedField types := by
    funext d
    rw [describedField]
    cases types.resolve d.dataType <;> rfl
  rw [tableOfDescription, hfields]
  cases description.mapM (describedField types) <;> rfl

/-- A description without a model: the error is about the first column with a type without a
meaning. -/
theorem tableOfDescription_eq_error_iff {e : UnknownType} :
    tableOfDescription types name description = .error e ↔
      ∃ front d back, description = front ++ d :: back ∧
        (d.dataType ∉ types.entries.keys ∧ e = ⟨d.dataType⟩) ∧
        ∀ x ∈ front, x.dataType ∈ types.entries.keys := by
  have hfirst : description.mapM (describedField types) = .error e ↔ _ := mapM_eq_error_iff
  simp only [describedField_eq_error_iff, exists_describedField_iff] at hfirst
  rw [← hfirst, tableOfDescription_eq]
  cases description.mapM (describedField types) <;> simp [Except.map]

/-! ## Descriptions and definitions -/

section Definitions

variable {s : Ddl.Statement}

/-- Columns with the same names and types are resolved alike, wherever they come from. -/
theorem mapM_describedField {columns : List Ddl.Column}
    (hnames : description.map DescribeRow.field = columns.map Ddl.Column.name)
    (htypes : description.map DescribeRow.dataType = columns.map fun c => c.type.name) :
    description.mapM (describedField types) = columns.mapM (fieldOf types) := by
  have hpairs : description.map (fun d => (d.field, d.dataType)) =
      columns.map fun c => (c.name, c.type.name) := by
    rw [← List.zip_map', hnames, htypes, List.zip_map']
  have hdescribed : description.mapM (describedField types) =
      (description.map fun d => (d.field, d.dataType)).mapM fun p =>
        (types.resolve p.2).map (⟨p.1, ·⟩) := by
    rw [List.mapM_map]
    rfl
  rw [hdescribed, hpairs, List.mapM_map]
  exact congrArg (List.mapM · columns) (funext fun c => (fieldOf_eq types c).symm)

/-- A description with the columns of a definition has the model of the definition, but for the
primary key. -/
theorem tableOfDescription_eq_map
    (hnames : description.map DescribeRow.field = s.columns.map Ddl.Column.name)
    (htypes : description.map DescribeRow.dataType = s.columns.map fun c => c.type.name) :
    tableOfDescription types s.table description =
      (Table.ofStatement types s).map fun t => { t with
        primaryKeys := (description.filter DescribeRow.isPrimary).map DescribeRow.field } := by
  rw [tableOfDescription_eq, mapM_describedField hnames htypes, ofStatement_eq]
  cases s.columns.mapM (fieldOf types) <;> rfl

end Definitions

/-- Whether two descriptions of a column differ at most in whether it may be null, its default and
what else there is to say. -/
def DescribeRow.SameColumn (d d' : DescribeRow) : Prop :=
  d.field = d'.field ∧ d.dataType = d'.dataType ∧ d.key = d'.key

section SameColumns

variable {description' : List DescribeRow}
  (h : List.Forall₂ DescribeRow.SameColumn description description')

include h

theorem mapM_describedField_of_sameColumns :
    description'.mapM (describedField types) = description.mapM (describedField types) := by
  induction h with
  | nil => rfl
  | cons hd _ ih =>
    rw [List.mapM_cons, List.mapM_cons, ih, describedField, describedField, hd.1, hd.2.1]

theorem primaryFields_of_sameColumns :
    (description'.filter DescribeRow.isPrimary).map DescribeRow.field =
      (description.filter DescribeRow.isPrimary).map DescribeRow.field := by
  induction h with
  | nil => rfl
  | @cons d d' ds ds' hd _ ih =>
    have hprimary : d'.isPrimary = d.isPrimary := by
      rw [DescribeRow.isPrimary, DescribeRow.isPrimary, hd.2.2]
    rw [List.filter_cons, List.filter_cons, hprimary]
    split
    · rw [List.map_cons, List.map_cons, ih, hd.1]
    · exact ih

/-- A description counts only by the names, types and keys of its columns. -/
theorem tableOfDescription_of_sameColumns :
    tableOfDescription types name description' = tableOfDescription types name description := by
  rw [tableOfDescription_eq, tableOfDescription_eq, mapM_describedField_of_sameColumns h,
    primaryFields_of_sameColumns h]

end SameColumns

theorem map_field_of_describes {fields : List Field}
    (h : description.mapM (describedField types) = .ok fields) :
    fields.map Field.name = description.map DescribeRow.field := by
  rw [mapM_eq_ok_iff] at h
  induction h with
  | nil => rfl
  | @cons d f ds fs hd _ ih =>
    have hname : f.name = d.field := by
      rw [describedField] at hd
      cases htype : types.resolve d.dataType <;> rw [htype] at hd <;> cases hd
      rfl
    rw [List.map_cons, List.map_cons, ih, hname]

/-- **A described table has the fields of its definition.** Where a description has the columns of a
statement, by their names and the names of their types,

* it has a model if the statement has one, with the same name and the same fields;
* otherwise both fail for the first type without a meaning.

The primary key of the model are the columns with the key `PRI`, in the order of the fields. Nothing
else that is said of a column counts. -/
theorem described_as_defined (types : TypeTable) (s : Ddl.Statement) (rows : List DescribeRow)
    (hnames : rows.map DescribeRow.field = s.columns.map Ddl.Column.name)
    (htypes : rows.map DescribeRow.dataType = s.columns.map fun c => c.type.name) :
    ((∃ t, tableOfDescription types s.table rows = .ok t) ↔
      ∃ t, Table.ofStatement types s = .ok t) ∧
    (∀ t t', tableOfDescription types s.table rows = .ok t → Table.ofStatement types s = .ok t' →
      t.name = t'.name ∧ t.fields = t'.fields) ∧
    (∀ e, tableOfDescription types s.table rows = .error e ↔
      Table.ofStatement types s = .error e) ∧
    (∀ e, tableOfDescription types s.table rows = .error e →
      FirstUnknown types s.columns e.typeName) ∧
    (∀ t, tableOfDescription types s.table rows = .ok t →
      t.primaryKeys =
        rows.filterMap (fun d => if d.key = some "PRI" then some d.field else none) ∧
      t.primaryKeys.Sublist (t.fields.map Field.name)) ∧
    ∀ rows', List.Forall₂ DescribeRow.SameColumn rows rows' →
      tableOfDescription types s.table rows' = tableOfDescription types s.table rows := by
  have hmodel : tableOfDescription types s.table rows =
      (Table.ofStatement types s).map fun t => { t with
        primaryKeys := (rows.filter DescribeRow.isPrimary).map DescribeRow.field } :=
    tableOfDescription_eq_map hnames htypes
  refine ⟨?_, ?_, ?_, ?_, ?_, fun rows' => tableOfDescription_of_sameColumns⟩
  · rw [hmodel]
    cases Table.ofStatement types s <;> simp [Except.map]
  · intro t t' ht ht'
    rw [hmodel, ht'] at ht
    cases ht
    exact ⟨rfl, rfl⟩
  · intro e
    rw [hmodel]
    cases Table.ofStatement types s <;> simp [Except.map]
  · intro e he
    rw [hmodel] at he
    refine ofStatement_eq_error_iff.mp ?_
    cases hs : Table.ofStatement types s <;> rw [hs] at he <;> cases he
    rfl
  · intro t ht
    rw [tableOfDescription_eq] at ht
    cases hfields : rows.mapM (describedField types) with
    | error e =>
      rw [hfields] at ht
      cases ht
    | ok fields =>
      rw [hfields] at ht
      cases ht
      refine ⟨?_, ?_⟩
      · rw [← List.filterMap_eq_map, ← List.filterMap_eq_filter, List.filterMap_filterMap]
        refine List.filterMap_congr fun d _ => ?_
        by_cases hd : d.key = some "PRI" <;> simp [DescribeRow.isPrimary, hd, Option.guard]
      · rw [map_field_of_describes hfields]
        exact List.filter_sublist.map DescribeRow.field

/-- A repeated name, of which only the first column is in the primary key, and a type without a
meaning behind it. -/
theorem described_as_defined_repeated :
    let columns : List Ddl.Column :=
      [⟨"a", ⟨"bigint", []⟩, [.notNull]⟩, ⟨"a", ⟨"text", []⟩, []⟩]
    let rows : List DescribeRow :=
      [{ field := "a", dataType := "bigint", key := some "PRI", extra := some "auto_increment" },
        { field := "a", dataType := "text", key := some "pri" }]
    let unknown : DescribeRow := { field := "b", dataType := "geometry", key := some "PRI" }
    let fields : List Field := [⟨"a", ⟨.number, none⟩⟩, ⟨"a", ⟨.string, none⟩⟩]
    let statement (columns : List Ddl.Column) : Ddl.Statement :=
      ⟨"t", false, columns, ["b"], [], [], []⟩
    Table.ofStatement .mysql (statement columns) = .ok ⟨"t", fields, ["b"]⟩ ∧
      tableOfDescription .mysql "t" rows = .ok ⟨"t", fields, ["a"]⟩ ∧
      tableOfDescription .mysql "t" (rows ++ [unknown]) = .error ⟨"geometry"⟩ := by
  intro columns rows unknown fields statement
  have hdefined : Table.ofStatement .mysql (statement columns) = .ok ⟨"t", fields, ["b"]⟩ := by
    decide +kernel
  have hunknown : Table.ofStatement .mysql
      (statement (columns ++ [⟨"b", ⟨"geometry", []⟩, []⟩])) = .error ⟨"geometry"⟩ := by
    decide +kernel
  obtain ⟨hok, hsame, -, -, hkeys, -⟩ :=
    described_as_defined .mysql (statement columns) rows rfl rfl
  obtain ⟨⟨name, fields', primaryKeys⟩, ht⟩ := hok.mpr ⟨_, hdefined⟩
  obtain ⟨rfl, rfl⟩ := hsame _ _ ht hdefined
  obtain ⟨rfl, -⟩ := hkeys _ ht
  obtain ⟨-, -, herror, -⟩ := described_as_defined .mysql
    (statement (columns ++ [⟨"b", ⟨"geometry", []⟩, []⟩])) (rows ++ [unknown]) rfl rfl
  exact ⟨hdefined, ht, (herror _).mpr hunknown⟩

end TableSchema.Source
