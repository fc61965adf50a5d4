import Mathlib.Tactic.Choose
import TableSchema.Proofs.Catalog.Meaning
import TableSchema.Proofs.Host.FileTree
import TableSchema.Schema.Generator

/-!
# Files of tables

Each table has a file of its own, called by its name, and a text for it. The names are looked at
first: the first that cannot be used ends everything. A template that is bad is bad for every name,
so that then either all texts can be made or none, and for the same reason.
-/

namespace TableSchema.Schema

open Catalog Host

/-- Where nothing fails, everything is made. -/
theorem mapM_eq_map {ε α β : Type} {f : α → Except ε β} {g : α → β} {as : List α}
    (h : ∀ a ∈ as, f a = .ok (g a)) : as.mapM f = .ok (as.map g) :=
  mapM_eq_ok_iff.mpr (List.forall₂_map_right_iff.mpr (List.forall₂_same.mpr h))

theorem exists_ok_of_mapM {ε α β : Type} {f : α → Except ε β} {as : List α} {bs : List β}
    (h : as.mapM f = .ok bs) : ∀ a ∈ as, ∃ b, f a = .ok b :=
  exists_forall₂_iff.mp ⟨bs, mapM_eq_ok_iff.mp h⟩

namespace Settings

variable {s : Settings} {tables : List Table}

/-- What the file of a table is called, if the name can be used. -/
def fileOf (s : Settings) (name : String) : String := name ++ "." ++ s.format.text

/-- The path of the file of a table in a directory. -/
def pathOf (s : Settings) (directory name : String) : String := joinPath directory (s.fileOf name)

/-- The text of the file of a table. -/
def schemaText (s : Settings) (t : Table) : Except GeneratorError String := do
  return s.format.render (← s.objectSchema t).toNode

theorem fileOf_injective (s : Settings) : Function.Injective s.fileOf := by
  intro name name' h
  rw [← String.toList_inj] at h ⊢
  simpa [fileOf] using h

theorem fileName_eq (s : Settings) (name : String) :
    fileName name s.format =
      if isFileName name then .ok (s.fileOf name) else .error (.invalidFileName name) := by
  rw [fileName, fileName?]
  cases isFileName name <;> rfl

/-- The name of a file leads one step down from the directory. -/
theorem isPlain_fileOf {name : String} (h : isFileName name) : IsPlain (s.fileOf name) := by
  have hlist : (s.fileOf name).toList = name.toList ++ '.' :: s.format.text.toList := by
    simp [fileOf]
  have hlength : 4 < (s.fileOf name).toList.length := by
    have hext : s.format.text.toList.length = 4 := by cases s.format <;> decide
    simp only [hlist, List.length_append, List.length_cons, hext]
    omega
  have hne : ∀ short : String, short.toList.length ≤ 4 → s.fileOf name ≠ short := by
    rintro short hshort rfl
    omega
  refine ⟨?_, hne ".." (by decide), ?_⟩
  · simp [FileTree.isHere, hne "" (by decide), hne "." (by decide)]
  · have hname : '/' ∉ name.toList := by
      intro hmem
      rw [isFileName, Bool.and_eq_true, List.all_eq_true] at h
      simpa using h.2 '/' hmem
    have hext : '/' ∉ s.format.text.toList := by cases s.format <;> decide
    simp [hlist, hname, hext]

/-! ## Identifiers -/

/-- A template that is bad for one name is bad for every name, and for the same reason. -/
theorem identifier_eq_error {name : String} {e : GeneratorError}
    (h : s.identifier name = .error e) (name' : String) : s.identifier name' = .error e := by
  rw [identifier, expandTemplate] at h ⊢
  cases hpieces : IdTemplate.pieces 0 s.effectiveTemplate.toList with
  | error fault =>
    rw [hpieces] at h
    cases fault <;> exact h
  | ok pieces =>
    rw [hpieces] at h
    cases h

/-- A template that is good for one name is good for every name. -/
theorem exists_identifiers {name id : String} (h : s.identifier name = .ok id) :
    ∃ ids : String → String, ∀ other, s.identifier other = .ok (ids other) := by
  have hall : ∀ other, ∃ id, s.identifier other = .ok id := by
    intro other
    cases hother : s.identifier other with
    | ok id => exact ⟨id, rfl⟩
    | error e =>
      rw [identifier_eq_error hother name] at h
      cases h
  choose ids hids using hall
  exact ⟨ids, hids⟩

/-- The schema of a table with an identifier. -/
def schemaWith (s : Settings) (id : String) (t : Table) : ObjectSchema where
  dialect := s.effectiveDialect
  id := id
  title := t.name
  type := "object"
  properties := .ofTable t

/-- The definitions of tables in a document with an identifier. -/
def definitionsWith (s : Settings) (tables : List Table) (id : String) : Definitions where
  dialect := s.effectiveDialect
  id := id
  title := s.effectiveTitle
  definitions := .ofList (tables.map fun t => (t.name, .ofTable t))

/-- Only the identifier can fail. -/
theorem definitions_eq (s : Settings) (tables : List Table) :
    s.definitions tables = (s.identifier "definitions").map (s.definitionsWith tables) := by
  rw [definitions]
  cases s.identifier "definitions" <;> rfl

theorem objectSchema_eq_ok {t : Table} {id : String} (h : s.identifier t.name = .ok id) :
    s.objectSchema t = .ok (s.schemaWith id t) := by
  rw [objectSchema, h]
  rfl

theorem schemaText_eq_ok {t : Table} {id : String} (h : s.identifier t.name = .ok id) :
    s.schemaText t = .ok (s.format.render (s.schemaWith id t).toNode) := by
  rw [schemaText, objectSchema_eq_ok h]
  rfl

/-- Where identifiers can be made, there is a schema for each table. -/
theorem objectSchemas_eq_ok {ids : String → String}
    (h : ∀ name, s.identifier name = .ok (ids name)) (tables : List Table) :
    s.objectSchemas tables = .ok (tables.map fun t => s.schemaWith (ids t.name) t) :=
  mapM_eq_map fun t _ => objectSchema_eq_ok (h t.name)

/-! ## All files -/

theorem mapM_fileName (h : ∀ t ∈ tables, isFileName t.name) :
    tables.mapM (fun t => fileName t.name s.format) =
      .ok (tables.map fun t => s.fileOf t.name) :=
  mapM_eq_map fun t ht => by rw [fileName_eq, if_pos (h t ht)]

/-- Otherwise each table has a file with its text. -/
theorem files_eq_ok (hnames : ∀ t ∈ tables, isFileName t.name)
    (hids : ∀ t ∈ tables, ∃ id, s.identifier t.name = .ok id) :
    ∃ text : Table → String, (∀ t ∈ tables, s.schemaText t = .ok (text t)) ∧
      s.files tables = .ok (tables.map fun t => (s.fileOf t.name, text t)) := by
  choose! id hid using hids
  have hschemas : s.objectSchemas tables = .ok (tables.map fun t => s.schemaWith (id t) t) :=
    mapM_eq_map fun t ht => objectSchema_eq_ok (hid t ht)
  refine ⟨fun t => s.format.render (s.schemaWith (id t) t).toNode,
    fun t ht => schemaText_eq_ok (hid t ht), ?_⟩
  rw [files, mapM_fileName hnames, hschemas]
  simp [bind, Except.bind, pure, Except.pure, List.zip_map']

/-- Where there are files, all names and identifiers can be used. -/
theorem names_of_files {files : List (String × String)} (h : s.files tables = .ok files) :
    (∀ t ∈ tables, isFileName t.name) ∧ ∀ t ∈ tables, ∃ id, s.identifier t.name = .ok id := by
  obtain ⟨names, hnames, hrest⟩ := bind_eq_ok_iff.mp h
  obtain ⟨schemas, hschemas, -⟩ := bind_eq_ok_iff.mp hrest
  refine ⟨fun t ht => ?_, fun t ht => ?_⟩
  · obtain ⟨name, hname⟩ := exists_ok_of_mapM hnames t ht
    rw [fileName_eq] at hname
    split at hname
    · assumption
    · cases hname
  · obtain ⟨schema, hschema⟩ := exists_ok_of_mapM hschemas t ht
    obtain ⟨id, hid, -⟩ := bind_eq_ok_iff.mp hschema
    exact ⟨id, hid⟩

end Settings

end TableSchema.Schema
