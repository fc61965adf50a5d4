import TableSchema.Proofs.OrderedMap
import TableSchema.Proofs.Run.Publishing

/-!
# One document or many

The definitions of tables can go into one document, where inserting them one after the other leaves
of each name the last, or into files, where writing them one after the other does. So the names in
the document are those of the files, and a file says of its table what the document does.
-/

namespace TableSchema.Run

open Catalog Host Host.FileTree Schema

variable {s : Settings} {tables : List Table} {directory : String} {w w' : World}

/-- The properties of each table by table name. -/
def propertiesByName (tables : List Table) : OrderedMap Properties :=
  .ofList (tables.map fun t => (t.name, .ofTable t))

theorem mem_keys_propertiesByName {name : String} :
    name ∈ (propertiesByName tables).keys ↔ ∃ t ∈ tables, t.name = name := by
  simp [propertiesByName, OrderedMap.mem_keys_ofList_iff]

/-- The properties of a name are those of the last table of the name. -/
theorem exists_last_of_name {name : String} (h : name ∈ (propertiesByName tables).keys) :
    ∃ front t back, tables = front ++ t :: back ∧ t.name = name ∧
      t.name ∉ back.map Table.name ∧
      (propertiesByName tables).get? name = some (.ofTable t) := by
  cases hget : (propertiesByName tables).get? name with
  | none => exact absurd h (OrderedMap.get?_eq_none_iff.mp hget)
  | some properties =>
    obtain ⟨before, after, hsplit, hlast⟩ :=
      OrderedMap.mem_entries_ofList_iff.mp (OrderedMap.get?_eq_some_iff.mp hget)
    obtain ⟨front, later, rfl, rfl, hlater⟩ := List.map_eq_append_iff.mp hsplit
    obtain ⟨t, back, rfl, ht, rfl⟩ := List.map_eq_cons_iff.mp hlater
    obtain ⟨rfl, rfl⟩ := Prod.mk.inj ht
    exact ⟨front, t, back, rfl, rfl, by simpa using hlast, rfl⟩

/-- Where there is a table and its file can be made, so can the document. -/
theorem definitions_eq_ok {files : List (String × String)} (htables : tables ≠ [])
    (hfiles : s.files tables = .ok files) :
    ∃ doc, s.definitions tables = .ok doc ∧ doc.definitions = propertiesByName tables := by
  obtain ⟨-, hids⟩ := Settings.names_of_files hfiles
  obtain ⟨t, ht⟩ := List.exists_mem_of_ne_nil tables htables
  obtain ⟨id, hid⟩ := hids t ht
  obtain ⟨ids, hids⟩ := Settings.exists_identifiers hid
  exact ⟨_, by rw [Settings.definitions_eq, hids]; rfl, rfl⟩

/-- Written into a directory, tables come to a file for each name in the document with their
definitions: there is no other file, different names have different files, and the file of a name
holds the schema with the properties that the document gives to the name. -/
theorem modes_agree {paths : List String} (htables : tables ≠ [])
    (h : w.run (writeDirectory s tables directory) = (.ok paths, w')) :
    ∃ doc, s.definitions tables = .ok doc ∧
      (∀ path, path ∈ paths ↔ ∃ name ∈ doc.definitions.keys, path = s.pathOf directory name) ∧
      (∀ l, (∀ name ∈ doc.definitions.keys,
          ¬ LeadsTo w'.files w.directory (s.pathOf directory name) l) →
        KeptAt w.files w'.files l) ∧
      (∀ name ∈ doc.definitions.keys, ∀ name' ∈ doc.definitions.keys, name ≠ name' →
        s.pathOf directory name ≠ s.pathOf directory name' ∧
          ∀ l, LeadsTo w'.files w.directory (s.pathOf directory name) l →
            ¬ LeadsTo w'.files w.directory (s.pathOf directory name') l) ∧
      ∀ name ∈ doc.definitions.keys, ∃ properties id,
        doc.definitions.get? name = some properties ∧ s.identifier name = .ok id ∧
          w'.files.readText w.directory (s.pathOf directory name) =
            .ok (s.format.render (ObjectSchema.toNode
              { dialect := s.effectiveDialect, id, title := name, type := "object",
                properties })) := by
  obtain ⟨files, hfiles⟩ : ∃ files, s.files tables = .ok files := by
    cases hfiles : s.files tables with
    | ok files => exact ⟨files, rfl⟩
    | error e =>
      rw [run_writeDirectory_of_error hfiles] at h
      cases h
  obtain ⟨hnames, hids⟩ := Settings.names_of_files hfiles
  obtain ⟨doc, hdoc, hdefinitions⟩ := definitions_eq_ok htables hfiles
  have houtcome := outcome_of_writeDirectory hnames hids directory w
  rw [h] at houtcome
  -- of all outcomes only one gives paths
  cases houtcome with
  | written published log =>
    refine ⟨doc, hdoc, ?_⟩
    rw [hdefinitions]
    refine ⟨fun path => ?_, fun l hl => ?_, fun name hname name' hname' hne => ?_,
      fun name hname => ?_⟩
    · simp [mem_keys_propertiesByName, eq_comm]
    · exact published.kept l fun t ht => hl t.name (mem_keys_propertiesByName.mpr ⟨t, ht, rfl⟩)
    · refine ⟨fun hpath => hne ?_, fun l hl hl' => hne ?_⟩
      · exact s.fileOf_injective (joinPath_injective directory hpath)
      · obtain ⟨t, ht, rfl⟩ := mem_keys_propertiesByName.mp hname
        obtain ⟨t', ht', rfl⟩ := mem_keys_propertiesByName.mp hname'
        exact s.fileOf_injective (hl.name_eq (Settings.isPlain_fileOf (hnames t ht))
          (Settings.isPlain_fileOf (hnames t' ht')) hl')
    · obtain ⟨front, t, back, hsplit, rfl, hlast, hget⟩ := exists_last_of_name hname
      obtain ⟨text, htext, hread⟩ := published.holds front t back hsplit hlast
      obtain ⟨id, hid⟩ := hids t (by simp [hsplit])
      rw [Settings.schemaText_eq_ok hid] at htext
      cases htext
      exact ⟨_, id, hget, hid, hread⟩

/-- Two tables share a name, and two columns of one do. -/
theorem modes_agree_repeated :
    let tables : List Table := [⟨"a", [⟨"x", ⟨.string, none⟩⟩, ⟨"x", ⟨.number, none⟩⟩], []⟩,
      ⟨"b", [], []⟩, ⟨"a", [⟨"y", ⟨.boolean, none⟩⟩], []⟩]
    let paths := ["out/a.json", "out/b.json", "out/a.json"]
    let after := (World.run {} (writeDirectory {} tables "out")).2
    tables ≠ [] ∧ World.run {} (writeDirectory {} tables "out") = (.ok paths, after) ∧
      ∃ doc, Settings.definitions {} tables = .ok doc ∧ doc.definitions.keys = ["b", "a"] ∧
        ∀ path, path ∈ paths ↔
          ∃ name ∈ doc.definitions.keys, path = Settings.pathOf {} "out" name := by
  intro tables paths after
  have hrun : World.run {} (writeDirectory {} tables "out") = (.ok paths, after) :=
    Prod.ext (by decide +kernel) rfl
  have hkeys : (propertiesByName tables).keys = ["b", "a"] := by decide +kernel
  obtain ⟨doc, hdoc, hpaths, -⟩ := modes_agree (List.cons_ne_nil _ _) hrun
  refine ⟨List.cons_ne_nil _ _, hrun, doc, hdoc, ?_, hpaths⟩
  obtain ⟨id, -, hmade⟩ := bind_eq_ok_iff.mp hdoc
  cases hmade
  exact hkeys

end TableSchema.Run
