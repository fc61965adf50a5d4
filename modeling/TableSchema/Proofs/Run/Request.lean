import TableSchema.Proofs.Run.Publishing
import TableSchema.Proofs.Run.Reading
import TableSchema.Run.Request

/-!
# What a request comes to

A request goes through reading, filtering and publishing. All tables are read before any is dropped
and all documents are made before any is written, so that nothing is published where something
cannot be read or made. What is left is what the files refuse.
-/

namespace TableSchema.Run

open Catalog Host Host.FileTree Schema Source

/-! ## Messages -/

/-- The world after some more messages. -/
def told (w : World) (messages : List Message) : World := { w with log := w.log ++ messages }

/-- The warning that of so many tables none is left. -/
def excludedMessage (count : Nat) : Message := ⟨.warn, s!"Filters excluded all {count} tables"⟩

/-! ## Publishing -/

section Publish

variable {s : Settings} {tables : List Table} {directory : String} {w w' : World}

/-- Without a directory the output is one document, or the world is left as it is. -/
theorem run_publish_output (h : s.effectiveOutdir = none) (w : World) :
    w.run (publish s tables) =
      match s.definitions tables with
      | .ok doc => (.ok (), { w with output := w.output ++ s.format.render doc.toNode })
      | .error e => (.error e, w) := by
  rw [publish, World.run_bind, World.run_settle, Settings.publish, h]
  simp only [Settings.definitionsText]
  cases s.definitions tables <;> rfl

/-- With a directory the files are those of the directory. -/
theorem run_publish_directory (h : s.effectiveOutdir = some directory) (w : World) :
    w.run (publish s tables) =
      ((w.run (writeDirectory s tables directory)).1.map fun _ => (),
        (w.run (writeDirectory s tables directory)).2) := by
  rw [publish, World.run_bind, World.run_settle, Settings.publish, h]
  cases hfiles : s.files tables with
  | error e =>
    rw [run_writeDirectory_of_error hfiles]
    rfl
  | ok files =>
    rw [run_writeDirectory_of_ok hfiles]
    exact World.run_map w _ (writeFiles directory files)

/-- However it ends, only messages that files are about to be written are told. -/
theorem Outcome.quiet {result : Except GeneratorError (List String)}
    (h : Outcome s directory tables w (result, w')) :
    w'.output = w.output ∧ ∃ later, w'.log = w.log ++ later ∧ ∀ m ∈ later, m.level = .info := by
  have hinfo : ∀ tables, ∀ m ∈ tableAnnouncements s directory tables, m.level = .info := by
    intro tables m hm
    obtain ⟨t, -, rfl⟩ := List.mem_map.mp hm
    rfl
  cases h with
  | written published log => exact ⟨published.rest.output_eq, _, log, hinfo _⟩
  | noDirectory cause published log =>
    exact ⟨published.rest.output_eq, [], by rw [log, List.append_nil], by simp⟩
  | @stopped front back t _ _ before after split published log made cause interrupted =>
    refine ⟨interrupted.rest.output_eq, tableAnnouncements s directory (front ++ [t]), ?_, hinfo _⟩
    obtain ⟨-, -, hsame⟩ := writeStep_of_writeText cause
    rw [hsame, announced, log]
    simp [tableAnnouncements]

/-- Files are all that a directory needs: nothing is put out, and nothing is warned of. -/
theorem writeDirectory_quiet (s : Settings) (tables : List Table) (directory : String) (w : World) :
    (w.run (writeDirectory s tables directory)).2.output = w.output ∧
      ∃ later, (w.run (writeDirectory s tables directory)).2.log = w.log ++ later ∧
        ∀ m ∈ later, m.level = .info := by
  cases hfiles : s.files tables with
  | error e =>
    rw [run_writeDirectory_of_error hfiles]
    exact ⟨rfl, [], by simp, by simp⟩
  | ok files =>
    obtain ⟨hnames, hids⟩ := Settings.names_of_files hfiles
    exact (outcome_of_writeDirectory hnames hids directory w).quiet

end Publish

/-! ## Requests -/

/-- The tables that are kept are those that a filter names, if it names any, but for those that it
drops. -/
theorem Filter.apply_eq (f : Filter) (tables : List Table) :
    f.apply tables = tables.filter fun t =>
      (f.includes = [] ∨ t.name ∈ f.includes) ∧ t.name ∉ f.excludes := by
  rw [Filter.apply]
  split
  next hempty =>
    -- without names every table is kept
    obtain ⟨hincludes, hexcludes⟩ : f.includes = [] ∧ f.excludes = [] := by simpa using hempty
    exact (List.filter_eq_self.mpr fun t _ => by simp [hincludes, hexcludes]).symm
  next =>
    refine List.filter_congr fun t _ => ?_
    rw [Bool.eq_iff_iff]
    simp [Filter.keeps]

section Stages

variable {r : Request} {w : World} {catalog : List CatalogRow}

end Stages

end TableSchema.Run
