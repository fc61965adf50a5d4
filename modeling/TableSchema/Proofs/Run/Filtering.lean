import TableSchema.Proofs.OrderedMap
import TableSchema.Proofs.Run.Request
import TableSchema.Proofs.Schema.Generator

/-!
# Filtering before and after

Tables can be filtered before documents are made of them, or what is made of all tables can be
filtered by the names. It comes to the same: a filter goes by the name alone, so of the tables that
share a name it keeps all or none, and which of them comes last does not change.
-/

namespace TableSchema.Run

open Catalog Schema

/-- The order and the number of the names in a filter do not count. -/
theorem Filter.apply_congr {f f' : Filter} (tables : List Table)
    (hincludes : ∀ name, name ∈ f.includes ↔ name ∈ f'.includes)
    (hexcludes : ∀ name, name ∈ f.excludes ↔ name ∈ f'.excludes) :
    f.apply tables = f'.apply tables := by
  have hempty : f.includes = [] ↔ f'.includes = [] := by
    simp [List.eq_nil_iff_forall_not_mem, hincludes]
  simp [Filter.apply_eq, hempty, hincludes, hexcludes]

/-- **It does not matter when tables are filtered.** The definitions of the tables that a filter
keeps are those of all tables with the names that it keeps, in the same order and with the same
values, and the rest of the document is the same; the schemas of these tables are those of all
tables with such a title. A filter keeps a table by its name, also if there is no name in the
filter, goes by its names as sets, and keeps what it has kept. -/
theorem filtering_commutes (r : Request) (tables : List Table) :
    let kept (name : String) : Bool :=
      (r.filter.includes = [] ∨ name ∈ r.filter.includes) ∧ name ∉ r.filter.excludes
    r.filter.apply tables = tables.filter (fun t => kept t.name) ∧
    r.settings.definitions (r.filter.apply tables) =
      (r.settings.definitions tables).map
        (fun doc => { doc with definitions := doc.definitions.restrict kept }) ∧
    (∀ name id, r.settings.identifier name = .ok id → ∃ schemas,
      r.settings.objectSchemas tables = .ok schemas ∧
      r.settings.objectSchemas (r.filter.apply tables) =
        .ok (schemas.filter fun d => kept d.title)) ∧
    (∀ f : Filter, (∀ name, name ∈ f.includes ↔ name ∈ r.filter.includes) →
      (∀ name, name ∈ f.excludes ↔ name ∈ r.filter.excludes) →
        f.apply tables = r.filter.apply tables) ∧
    r.filter.apply (r.filter.apply tables) = r.filter.apply tables := by
  intro kept
  have happly : ∀ tables, r.filter.apply tables = tables.filter fun t => kept t.name :=
    r.filter.apply_eq
  refine ⟨happly tables, ?_, fun name id hid => ?_, fun f => ?_, ?_⟩
  · rw [happly, Settings.definitions_eq, Settings.definitions_eq]
    cases r.settings.identifier "definitions" with
    | error e => rfl
    | ok id =>
      have hentries : (tables.filter fun t => kept t.name).map
            (fun t => (t.name, Properties.ofTable t)) =
          (tables.map fun t => (t.name, Properties.ofTable t)).filter fun e => kept e.1 := by
        rw [List.filter_map]
        rfl
      simp [Except.map, Settings.definitionsWith, hentries, OrderedMap.restrict_ofList]
  · obtain ⟨ids, hids⟩ := Settings.exists_identifiers hid
    refine ⟨_, Settings.objectSchemas_eq_ok hids tables, ?_⟩
    rw [Settings.objectSchemas_eq_ok hids, happly, List.filter_map]
    rfl
  · exact Filter.apply_congr tables
  · rw [happly, happly, List.filter_filter]
    simp

/-- Two tables share a name that is kept, and the names of the filter are repeated. -/
theorem filtering_commutes_repeated :
    let tables : List Table := [⟨"a", [⟨"x", ⟨.string, none⟩⟩], []⟩, ⟨"b", [], []⟩,
      ⟨"c", [], []⟩, ⟨"a", [⟨"y", ⟨.number, none⟩⟩], []⟩]
    let r : Request := { connection := ⟨"sqlite3", "", .empty⟩, filter := ⟨["a", "b", "a"], ["b"]⟩ }
    let f : Filter := ⟨["b", "a"], ["b", "b"]⟩
    r.settings.identifier "a" = .ok "a.json" ∧
      (∃ schemas, r.settings.objectSchemas tables = .ok schemas ∧
        r.settings.objectSchemas (r.filter.apply tables) =
          .ok (schemas.filter fun d => d.title = "a")) ∧
      f.apply tables = r.filter.apply tables ∧
      (r.filter.apply tables).map Table.name = ["a", "a"] := by
  intro tables r f
  have hid : r.settings.identifier "a" = .ok "a.json" := by decide +kernel
  have hkept : ∀ name : String, ((r.filter.includes = [] ∨ name ∈ r.filter.includes) ∧
      name ∉ r.filter.excludes) ↔ name = "a" := by
    intro name
    refine ⟨fun h => ?_, ?_⟩
    · obtain ⟨rfl | rfl | rfl, hne⟩ : (name = "a" ∨ name = "b" ∨ name = "a") ∧ name ≠ "b" := by
        simpa [r] using h
      · rfl
      · exact absurd rfl hne
      · rfl
    · rintro rfl
      decide
  obtain ⟨-, -, hschemas, hsets, -⟩ := filtering_commutes r tables
  refine ⟨hid, ?_, hsets f (by simp [f, r, or_comm]) (by simp [f, r]), by decide⟩
  obtain ⟨schemas, hall, hsome⟩ := hschemas "a" _ hid
  simp only [hkept] at hsome
  exact ⟨schemas, hall, hsome⟩

end TableSchema.Run
