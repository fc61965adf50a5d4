import TableSchema.Host.World
import TableSchema.Proofs.Catalog.Meaning
import TableSchema.Proofs.Catalog.Pool
import TableSchema.Run.Reading

/-!
# What reading a database file comes to

Looking for the file and reading its catalog leave the world as it is. Of what is in the catalog
only the definitions of the user's tables count: the models of all of them in their order, or the
first failure.
-/

namespace TableSchema.Run

open Catalog Host Source

/-! ## Reading leaves the world as it is -/

section ReadsOnly

variable {ε ε' α β : Type}

/-- Whether something leaves every world as it is. -/
def ReadsOnly (act : ExceptT ε (StateM World) α) : Prop := ∀ w : World, (w.run act).2 = w

/-- An action that only reads leaves the world it was run in. -/
theorem ReadsOnly.run_eq {act : ExceptT ε (StateM World) α} (h : ReadsOnly act) (w : World) :
    w.run act = ((w.run act).1, w) := Prod.ext rfl (h w)

theorem readsOnly_pure (a : α) : ReadsOnly (pure a : ExceptT ε (StateM World) α) := fun _ => rfl

theorem readsOnly_throw (e : ε) : ReadsOnly (throw e : ExceptT ε (StateM World) α) := fun _ => rfl

theorem readsOnly_settle (result : Except ε α) (f : ε → ε') :
    ReadsOnly (settle result f : ExceptT ε' (StateM World) α) := fun _ => rfl

/-- Reading and then reading is reading. -/
theorem ReadsOnly.bind {act : ExceptT ε (StateM World) α}
    {next : α → ExceptT ε (StateM World) β} (h : ReadsOnly act)
    (hnext : ∀ a, ReadsOnly (next a)) : ReadsOnly (act >>= next) := by
  intro w
  rw [World.run_bind, h.run_eq w]
  cases (w.run act).1 with
  | ok a => exact hnext a w
  | error e => rfl

theorem ReadsOnly.allM {p : α → ExceptT ε (StateM World) Bool} (h : ∀ a, ReadsOnly (p a))
    (as : List α) : ReadsOnly (as.allM p) := by
  induction as with
  | nil => exact readsOnly_pure true
  | cons a as ih =>
    refine (h a).bind fun passed => ?_
    cases passed with
    | true => exact ih
    | false => exact readsOnly_pure false

end ReadsOnly

theorem readsOnly_probe (path : String) :
    ReadsOnly (Host.probe path : ExceptT SourceError (StateM World) _) := fun _ => rfl

theorem readsOnly_isPassable (path : String) :
    ReadsOnly (isPassable path : ExceptT SourceError (StateM World) Bool) := by
  rw [isPassable]
  split
  · exact readsOnly_pure false
  · refine (readsOnly_probe path).bind fun found => ?_
    split <;> exact readsOnly_pure _

theorem readsOnly_lookUp (dataSource : String) (file : DatabasePath) :
    ReadsOnly (lookUp dataSource file : ExceptT SourceError (StateM World) Unit) := by
  rw [lookUp]
  refine (ReadsOnly.allM readsOnly_isPassable file.settlements).bind fun passable => ?_
  dsimp only
  split
  · refine (readsOnly_throw _).bind fun _ => ?_
    split <;> exact fun _ => rfl
  · split <;> exact fun _ => rfl

/-- A catalog is looked up and read; no file, answer or message changes. -/
theorem readsOnly_readCatalog (dataSource : String) :
    ReadsOnly (Run.readCatalog dataSource : ExceptT SourceError (StateM World) _) := by
  rw [Run.readCatalog]
  refine (readsOnly_settle _ _).bind fun file => ?_
  split
  · exact readsOnly_pure []
  · refine (readsOnly_lookUp dataSource _).bind fun _ => ?_
    have hread : ∀ path : String,
        ReadsOnly (Host.readCatalog path : ExceptT SourceError (StateM World) _) := fun _ _ => rfl
    refine (hread _).bind fun catalog => ?_
    split
    · exact readsOnly_settle _ _
    · exact readsOnly_throw _
    · exact readsOnly_throw _

/-! ## The user's tables -/

/-- The model of a table in the catalog. -/
def readRow (types : TypeTable) (row : CatalogRow) : Except SourceError Table :=
  (Table.ofText types row.sql).mapError (.definition row.name)

theorem readRow_eq_ok_iff {types : TypeTable} {row : CatalogRow} {t : Table} :
    readRow types row = .ok t ↔ Table.ofText types row.sql = .ok t := by
  rw [readRow]
  cases Table.ofText types row.sql <;> simp [Except.mapError]

/-- A row is refused for the error of its own text, under its own name. -/
theorem readRow_eq_error_iff {types : TypeTable} {row : CatalogRow} {e : SourceError} :
    readRow types row = .error e ↔
      ∃ cause, Table.ofText types row.sql = .error cause ∧ e = .definition row.name cause := by
  rw [readRow]
  cases Table.ofText types row.sql <;> simp [Except.mapError, eq_comm]

/-- Each definition counts for itself, however many are read side by side. -/
theorem readDefinitions_eq_mapM (cores : Nat) (types : TypeTable) (rows : List CatalogRow) :
    readDefinitions cores types rows = rows.mapM (readRow types) := by
  rw [readDefinitions, parseTables_eq_map, List.map_map]
  -- what is left is a list of rows, each beside its own model
  induction rows with
  | nil => rfl
  | cons row rows ih =>
    rw [List.map_cons, List.zip_cons_cons, List.mapM_cons, List.mapM_cons, ih]
    rfl

/-- Reading a database is reading its catalog, then the texts of its user tables, in order; the log
says how many there were. -/
theorem run_readDatabase (w : World) (types : TypeTable) (dataSource : String) :
    w.run (readDatabase types dataSource) =
      match (w.run (Run.readCatalog dataSource)).1 with
      | .error e => (.error e, w)
      | .ok catalog => ((userTables catalog).mapM (readRow types), { w with
          log := w.log ++
            [⟨.info, s!"Found {(userTables catalog).length} tables in {dataSource}"⟩] }) := by
  rw [readDatabase, World.run_bind, (readsOnly_readCatalog dataSource).run_eq w]
  cases (w.run (Run.readCatalog dataSource)).1 with
  | error e => rfl
  | ok catalog =>
    simp only [World.run_bind, World.run_log, World.run_cores, World.run_settle,
      readDefinitions_eq_mapM]
    cases (userTables catalog).mapM (readRow types) <;> rfl

end TableSchema.Run
