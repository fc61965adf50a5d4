import TableSchema.Proofs.Run.Reading

/-!
# The tables of a database

The models of a database are those of the user's tables in its catalog, in the order of the catalog,
or the first failure among them. A row counts as a table of the user by its type and its name: the
pattern of reserved names is a word with a percent sign behind it, so it asks how a name begins.
-/

namespace TableSchema.Run

open Catalog Host Source Text

/-! ## Patterns -/

theorem standFor_character_cons {p d : Char} {parts : List Pattern.Part} {ds : List Char} :
    Pattern.standFor (.character p :: parts) (d :: ds) = true ↔
      d.toLower = p.toLower ∧ Pattern.standFor parts ds = true := by
  rw [Pattern.standFor, Bool.and_eq_true]
  exact and_congr_left' beq_iff_eq

/-- A word at the front of a pattern stands for itself at the front of a text, but for its case. -/
theorem standFor_word_append {word : List Char} {parts : List Pattern.Part} {text : List Char} :
    Pattern.standFor (word.map .character ++ parts) text = true ↔
      ∃ front back, text = front ++ back ∧ front.map Char.toLower = word.map Char.toLower ∧
        Pattern.standFor parts back = true := by
  induction word generalizing text with
  | nil =>
    refine ⟨fun h => ⟨[], text, rfl, rfl, h⟩, ?_⟩
    rintro ⟨front, back, rfl, hfront, h⟩
    obtain rfl := List.map_eq_nil_iff.mp hfront
    exact h
  | cons p ps ih =>
    refine ⟨fun h => ?_, ?_⟩
    · cases text with
      | nil => cases h
      | cons d ds =>
        obtain ⟨hd, htail⟩ := standFor_character_cons.mp h
        obtain ⟨front, back, rfl, hfront, hback⟩ := ih.mp htail
        exact ⟨d :: front, back, rfl, by rw [List.map_cons, List.map_cons, hd, hfront], hback⟩
    · rintro ⟨front, back, rfl, hfront, hback⟩
      obtain ⟨d, ds, rfl, hd, hds⟩ := List.map_eq_cons_iff.mp hfront
      exact standFor_character_cons.mpr ⟨hd, ih.mpr ⟨ds, back, rfl, hds, hback⟩⟩

/-- A percent sign at the end of a pattern stands for any text. -/
theorem standFor_anything (text : List Char) : Pattern.standFor [.anything] text = true := by
  rw [Pattern.standFor]
  refine List.any_eq_true.mpr ⟨text.length, List.mem_range.mpr (Nat.lt_succ_self _), ?_⟩
  rw [List.drop_length]
  rfl

/-! ## The user's tables -/

theorem isReserved_iff {name : String} :
    isReserved name = true ↔ "sqlite_".toList <+: name.toList.map Char.toLower := by
  have hparts : Pattern.parts? '\\' reservedNames.toList =
      some ("sqlite_".toList.map .character ++ [.anything]) := by decide +kernel
  have hlower : "sqlite_".toList.map Char.toLower = "sqlite_".toList := by decide +kernel
  rw [isReserved, isLike, hparts]
  refine standFor_word_append.trans ⟨?_, ?_⟩
  · rintro ⟨front, back, hname, hfront, -⟩
    rw [hname, List.map_append, hfront, hlower]
    exact List.prefix_append _ _
  · rintro ⟨tail, htail⟩
    obtain ⟨front, back, hname, hfront, -⟩ := List.map_eq_append_iff.mp htail.symm
    exact ⟨front, back, hname, hfront.trans hlower.symm, standFor_anything back⟩

/-- The user's tables are the tables whose names do not begin with `sqlite_`, in capital or small
letters. -/
theorem userTables_eq (catalog : List CatalogRow) :
    userTables catalog = catalog.filter fun row =>
      row.type = "table" ∧ ¬"sqlite_".toList <+: row.name.toList.map Char.toLower := by
  refine List.filter_congr fun row _ => ?_
  rw [Bool.eq_iff_iff, CatalogRow.isUserTable, Bool.and_eq_true, beq_iff_eq, Bool.not_eq_true',
    Bool.eq_false_iff, decide_eq_true_eq]
  exact and_congr_right' isReserved_iff.not

/-! ## Their models -/

/-- **The tables of a database** are the models of all its user's tables, in the order of the
catalog, if each of them has one. Otherwise the first one without a model is reported with its name
and its own error, whatever is behind it and whatever else is in the catalog. -/
theorem database_tables_are_user_definitions (types : TypeTable) (dataSource : String) (w : World)
    (catalog : List CatalogRow)
    (hcatalog : (w.run (Run.readCatalog dataSource)).1 = .ok catalog) :
    let users := catalog.filter fun row =>
      row.type = "table" ∧ ¬"sqlite_".toList <+: row.name.toList.map Char.toLower
    let result := (w.run (readDatabase types dataSource)).1
    ((∃ tables, result = .ok tables) ↔ ∀ row ∈ users, ∃ t, Table.ofText types row.sql = .ok t) ∧
    (∀ tables, result = .ok tables ↔
      List.Forall₂ (fun row t => Table.ofText types row.sql = .ok t) users tables) ∧
    ∀ e, result = .error e ↔ ∃ front row back cause, users = front ++ row :: back ∧
      (∀ x ∈ front, ∃ t, Table.ofText types x.sql = .ok t) ∧
      Table.ofText types row.sql = .error cause ∧ e = .definition row.name cause := by
  intro users result
  have hresult : result = users.mapM (readRow types) := by
    change (w.run (readDatabase types dataSource)).1 = _
    rw [run_readDatabase, hcatalog]
    exact congrArg (List.mapM (readRow types)) (userTables_eq catalog)
  have hall : ∀ tables, result = .ok tables ↔
      List.Forall₂ (fun row t => Table.ofText types row.sql = .ok t) users tables := by
    intro tables
    rw [hresult, mapM_eq_ok_iff]
    simp only [readRow_eq_ok_iff]
  refine ⟨?_, hall, fun e => ?_⟩
  · simp only [hall]
    exact exists_forall₂_iff
  · rw [hresult, mapM_eq_error_iff]
    simp only [readRow_eq_error_iff, readRow_eq_ok_iff]
    constructor
    · rintro ⟨front, row, back, husers, ⟨cause, hcause, he⟩, hfront⟩
      exact ⟨front, row, back, cause, husers, hfront, hcause, he⟩
    · rintro ⟨front, row, back, cause, husers, hfront, hcause, he⟩
      exact ⟨front, row, back, husers, ⟨cause, hcause, he⟩, hfront⟩

/-- Neither an index nor a table of the database itself is read, and a table behind the first one
without a model is not reported. -/
theorem database_tables_are_user_definitions_sqliteX :
    let others : List CatalogRow :=
      [⟨"index", "i", "CREATE INDEX i ON sqliteX (a)"⟩, ⟨"table", "SQLITE_sequence", ""⟩]
    let good : CatalogRow := ⟨"table", "sqliteX", "CREATE TABLE sqliteX (a int)"⟩
    let bad : CatalogRow := ⟨"table", "b", "CREATE TABLE b (y blob)"⟩
    let worse : CatalogRow := ⟨"table", "c", "?"⟩
    let holding (catalog : List CatalogRow) : World :=
      { files := FileTree.empty.set ["test.db"] (.database catalog) }
    ((holding (others ++ [good])).run (readDatabase .sqlite "test.db")).1 =
        .ok [⟨"sqliteX", [⟨"a", ⟨.number, none⟩⟩], []⟩] ∧
      ((holding (others ++ [good, bad, worse])).run (readDatabase .sqlite "test.db")).1 =
        .error (.definition "b" (.unknownType ⟨"blob"⟩)) := by
  intro others good bad worse holding
  have hgood : Table.ofText .sqlite good.sql = .ok ⟨"sqliteX", [⟨"a", ⟨.number, none⟩⟩], []⟩ := by
    decide +kernel
  have hbad : Table.ofText .sqlite bad.sql = .error (.unknownType ⟨"blob"⟩) := by decide +kernel
  have husers : (others ++ [good, bad, worse]).filter (fun row =>
      row.type = "table" ∧ ¬"sqlite_".toList <+: row.name.toList.map Char.toLower) =
      [good, bad, worse] := by decide +kernel
  have husers' : (others ++ [good]).filter (fun row =>
      row.type = "table" ∧ ¬"sqlite_".toList <+: row.name.toList.map Char.toLower) =
      [good] := by decide +kernel
  constructor
  · have h := database_tables_are_user_definitions .sqlite "test.db" (holding (others ++ [good]))
      (others ++ [good]) (by decide +kernel)
    refine (h.2.1 _).mpr ?_
    rw [husers']
    exact .cons hgood .nil
  · have h := database_tables_are_user_definitions .sqlite "test.db"
      (holding (others ++ [good, bad, worse])) (others ++ [good, bad, worse]) (by decide +kernel)
    refine (h.2.2 _).mpr ⟨[good], bad, [worse], _, husers, fun x hx => ?_, hbad, rfl⟩
    obtain rfl := List.mem_singleton.mp hx
    exact ⟨_, hgood⟩

end TableSchema.Run
