import TableSchema.Proofs.Catalog.Meaning
import TableSchema.Proofs.OrderedMap
import TableSchema.Source.Connection

/-!
# Type tables with overrides

The meanings that a connection adds lie over those of its driver like a layer: a look-up finds the
meaning on top, or else the one below, or none. The order in which they are added does not matter,
as no name is added twice.

A definition that can be read with the table below can be read with the layer on top, and then only
the types of columns change whose type names are on top. A definition that cannot be read fails as
before, unless its type names are the reason: then it may be read now, or fails for a name that is
in neither layer.
-/

namespace TableSchema.Catalog

open Ddl

/-! ## Layers -/

/-- A type table is another one with a layer on top of it. -/
structure LiesOver (types : TypeTable) (top : OrderedMap ColumnType) (below : TypeTable) :
    Prop where
  /-- the dialect is that of the table below -/
  dialect_eq : types.dialect = below.dialect
  /-- a meaning on top counts, or else the one below -/
  get?_eq : ∀ typeName, types.get? typeName = (top.get? typeName).or (below.get? typeName)

/-- Meanings come to lie on top in whatever order they are added. -/
theorem liesOver_extend {top : OrderedMap ColumnType} {entries : List (String × ColumnType)}
    (h : entries.Perm top.entries) (below : TypeTable) :
    LiesOver (below.extend entries) top below where
  dialect_eq := rfl
  get?_eq typeName := by
    have hextend : (below.extend entries).get? typeName =
        (below.entries.insertAll entries).get? typeName := rfl
    rw [hextend, OrderedMap.get?_insertAll, OrderedMap.get?_ofList_of_perm h]
    rfl

/-- The field of a column under a layer: its type changes if the type name is there. -/
def Field.under (top : OrderedMap ColumnType) (c : Column) (f : Field) : Field :=
  { f with type := (top.get? c.type.name).getD f.type }

theorem map_name_zipWith_under (top : OrderedMap ColumnType) {below : TypeTable}
    {columns : List Column} {fields : List Field}
    (h : List.Forall₂ (IsFieldOf below) columns fields) :
    (List.zipWith (Field.under top) columns fields).map Field.name = fields.map Field.name := by
  induction h with
  | nil => rfl
  | cons _ _ ih => exact congrArg (_ :: ·) ih

namespace LiesOver

variable {types below : TypeTable} {top : OrderedMap ColumnType}

/-- There is one table with a layer on top of another, up to the order of its entries. -/
theorem same {types' : TypeTable} (h : LiesOver types top below) (h' : LiesOver types' top below) :
    types.same types' = true := by
  rw [TypeTable.same, Bool.and_eq_true, beq_iff_eq]
  refine ⟨h.dialect_eq.trans h'.dialect_eq.symm, OrderedMap.sameEntries_of_get?_eq fun name => ?_⟩
  exact (h.get?_eq name).trans (h'.get?_eq name).symm

theorem resolve_eq (h : LiesOver types top below) (typeName : String) :
    types.resolve typeName =
      match top.get? typeName with
      | some type => .ok type
      | none => below.resolve typeName := by
  rw [TypeTable.resolve, TypeTable.resolve, h.get?_eq]
  cases top.get? typeName <;> rfl

/-- A name without a meaning is in neither layer. -/
theorem not_mem_keys (h : LiesOver types top below) {typeName : String}
    (hname : typeName ∉ types.entries.keys) :
    typeName ∉ below.entries.keys ∧ typeName ∉ top.keys := by
  rw [← OrderedMap.get?_eq_none_iff] at hname
  have hor := (h.get?_eq typeName).symm.trans hname
  rw [Option.or_eq_none_iff] at hor
  exact ⟨OrderedMap.get?_eq_none_iff.mp hor.2, OrderedMap.get?_eq_none_iff.mp hor.1⟩

/-! ## Models -/

theorem isFieldOf_under (h : LiesOver types top below) {c : Column} {f : Field}
    (hf : IsFieldOf below c f) : IsFieldOf types c (f.under top c) := by
  obtain ⟨hname, htype⟩ := hf
  refine ⟨hname, OrderedMap.get?_eq_some_iff.mp ?_⟩
  change types.get? c.type.name = _
  have hbelow : below.get? c.type.name = some f.type := OrderedMap.get?_eq_some_iff.mpr htype
  rw [h.get?_eq, hbelow, Field.under]
  cases top.get? c.type.name <;> rfl

theorem forall₂_under (h : LiesOver types top below) {columns : List Column}
    {fields : List Field} (hfields : List.Forall₂ (IsFieldOf below) columns fields) :
    List.Forall₂ (IsFieldOf types) columns (List.zipWith (Field.under top) columns fields) := by
  induction hfields with
  | nil => exact .nil
  | cons hf _ ih => exact .cons (h.isFieldOf_under hf) ih

/-- A statement with a model keeps it, but for the types that are changed. -/
theorem ofStatement_eq_ok (h : LiesOver types top below) {s : Statement} {t : Table}
    (ht : Table.ofStatement below s = .ok t) :
    Table.ofStatement types s =
      .ok { t with fields := List.zipWith (Field.under top) s.columns t.fields } := by
  obtain ⟨hname, hfields, hkeys⟩ := ofStatement_eq_ok_iff.mp ht
  exact ofStatement_eq_ok_iff.mpr ⟨hname, h.forall₂_under hfields, hkeys⟩

/-- A statement without a model may still have none, but for a name that is in neither layer. -/
theorem ofStatement_cases (h : LiesOver types top below) (s : Statement) :
    (∃ t, Table.ofStatement types s = .ok t) ∨
      ∃ typeName, Table.ofStatement types s = .error ⟨typeName⟩ ∧
        typeName ∉ below.entries.keys ∧ typeName ∉ top.keys := by
  cases hs : Table.ofStatement types s with
  | ok t => exact .inl ⟨t, rfl⟩
  | error e =>
    obtain ⟨_, _, _, -, -, hname, -⟩ := ofStatement_eq_error_iff.mp hs
    exact .inr ⟨e.typeName, rfl, h.not_mem_keys hname⟩

end LiesOver

/-! ## Texts -/

/-- The tokens and the statement of a text do not depend on the meanings of type names. -/
theorem ofText_eq_parse_congr (types types' : TypeTable) (text : String) (e : ParseError) :
    Table.ofText types text = .error (.parse e) ↔ Table.ofText types' text = .error (.parse e) := by
  cases htokens : tokenize text with
  | ok tokens => rw [ofText_eq_parse_iff htokens, ofText_eq_parse_iff htokens]
  | error e' =>
    rw [ofText_eq_lexical_iff.mpr htokens, ofText_eq_lexical_iff.mpr htokens]

/-- Beyond the tokens and the statement, a text fails for its type names only. -/
theorem exists_statement_of_ofText {types : TypeTable} {text : String}
    (result : Except UnknownType Table)
    (h : Table.ofText types text = result.mapError .unknownType) :
    ∃ tokens s, tokenize text = .ok tokens ∧ Statement.ofTokens tokens = .ok s := by
  cases htokens : tokenize text with
  | error e =>
    rw [ofText_eq_lexical_iff.mpr htokens] at h
    cases result <;> cases h
  | ok tokens =>
    cases hs : Statement.ofTokens tokens with
    | error e =>
      rw [(ofText_eq_parse_iff htokens).mpr hs] at h
      cases result <;> cases h
    | ok s => exact ⟨tokens, s, rfl, hs⟩

end TableSchema.Catalog

namespace TableSchema.Source

open Catalog Ddl

/-- **Overrides are layered.** The type table of a connection with a known driver lies over the
table of the driver. However its overrides are ordered there is one such table, of the driver's
dialect: a type name means what the overrides say, or else what the driver says, or else nothing.

A text fails with a lexical or parse error with the overrides just if it does without them. A text
with a model keeps it, with the types of those columns changed whose type names are overridden. A
text that fails for a type name has a model now, or fails for a name that neither the driver nor the
overrides know. -/
theorem overrides_are_layered (c : Connection) (d : Driver) (hd : c.driver = d.text) :
    c.typeTable = .ok (d.types.extend c.overrides.entries) ∧
    ∀ entries : List (String × ColumnType), entries.Perm c.overrides.entries →
      let types := d.types.extend entries
      types.same (d.types.extend c.overrides.entries) = true ∧
      types.dialect = d.types.dialect ∧
      (∀ typeName, types.resolve typeName =
        match c.overrides.get? typeName with
        | some type => .ok type
        | none =>
          match d.types.get? typeName with
          | some type => .ok type
          | none => .error ⟨typeName⟩) ∧
      ∀ text,
        (∀ e, Table.ofText types text = .error (.lexical e) ↔
          Table.ofText d.types text = .error (.lexical e)) ∧
        (∀ e, Table.ofText types text = .error (.parse e) ↔
          Table.ofText d.types text = .error (.parse e)) ∧
        (∀ t, Table.ofText d.types text = .ok t → ∃ t', Table.ofText types text = .ok t' ∧
          t'.name = t.name ∧ t'.primaryKeys = t.primaryKeys ∧
          t'.fields.map Field.name = t.fields.map Field.name ∧
          ∃ tokens s, tokenize text = .ok tokens ∧ Statement.ofTokens tokens = .ok s ∧
            t'.fields = List.zipWith
              (fun column f =>
                { f with type := (c.overrides.get? column.type.name).getD f.type })
              s.columns t.fields) ∧
        ∀ e, Table.ofText d.types text = .error (.unknownType e) →
          (∃ t, Table.ofText types text = .ok t) ∨
            ∃ typeName, Table.ofText types text = .error (.unknownType ⟨typeName⟩) ∧
              typeName ∉ d.types.entries.keys ∧ typeName ∉ c.overrides.keys := by
  have hdriver : c.resolveDriver = .ok d := by
    rw [Connection.resolveDriver, hd]
    cases d <;> rfl
  refine ⟨by rw [Connection.typeTable, hdriver]; rfl, fun entries hentries => ?_⟩
  have hover := liesOver_extend hentries d.types
  refine ⟨hover.same (liesOver_extend (.refl _) d.types), hover.dialect_eq, hover.resolve_eq,
    fun text => ⟨fun e => ?_, ofText_eq_parse_congr _ _ text, fun t ht => ?_, fun e he => ?_⟩⟩
  · rw [ofText_eq_lexical_iff, ofText_eq_lexical_iff]
  · obtain ⟨tokens, s, htokens, hs⟩ := exists_statement_of_ofText (.ok t) ht
    have hmodel : Table.ofStatement d.types s = .ok t := (ofText_eq_ok_iff htokens hs).mp ht
    obtain ⟨-, hfields, -⟩ := ofStatement_eq_ok_iff.mp hmodel
    exact ⟨_, (ofText_eq_ok_iff htokens hs).mpr (hover.ofStatement_eq_ok hmodel), rfl, rfl,
      map_name_zipWith_under _ hfields, tokens, s, htokens, hs, rfl⟩
  · obtain ⟨tokens, s, htokens, hs⟩ := exists_statement_of_ofText (.error e) he
    obtain ⟨t, ht⟩ | ⟨typeName, herror, hneither⟩ := hover.ofStatement_cases s
    · exact .inl ⟨t, (ofText_eq_ok_iff htokens hs).mpr ht⟩
    · exact .inr ⟨typeName, (ofText_eq_unknownType_iff htokens hs).mpr herror, hneither⟩

/-- One meaning replaces a built-in one and another is new, so that a text is read with another type
and another text gets beyond its first column. -/
theorem overrides_are_layered_mixed :
    let overrides : OrderedMap ColumnType :=
      .ofList [("text", ⟨.number, none⟩), ("blob", ⟨.string, some "binary"⟩)]
    let c : Connection := ⟨"sqlite3", "x.db", overrides⟩
    let types := TypeTable.sqlite.extend c.overrides.entries.reverse
    c.driver = Driver.sqlite.text ∧ c.overrides.entries.reverse.Perm c.overrides.entries ∧
      types.resolve "text" = .ok ⟨.number, none⟩ ∧ types.resolve "int" = .ok ⟨.number, none⟩ ∧
      types.resolve "point" = .error ⟨"point"⟩ ∧
      Table.ofText .sqlite "CREATE TABLE t (a text(8), b date)" =
        .ok ⟨"t", [⟨"a", ⟨.string, none⟩⟩, ⟨"b", ⟨.string, some "date"⟩⟩], []⟩ ∧
      (∃ t, Table.ofText types "CREATE TABLE t (a text(8), b date)" = .ok t ∧
        t.fields.map Field.name = ["a", "b"]) ∧
      Table.ofText .sqlite "CREATE TABLE t (a blob, b point)" = .error (.unknownType ⟨"blob"⟩) ∧
      ((∃ t, Table.ofText types "CREATE TABLE t (a blob, b point)" = .ok t) ∨
        ∃ typeName, Table.ofText types "CREATE TABLE t (a blob, b point)" =
            .error (.unknownType ⟨typeName⟩) ∧
          typeName ∉ TypeTable.sqlite.entries.keys ∧ typeName ∉ ["text", "blob"]) := by
  intro overrides c types
  have hmodel : Table.ofText .sqlite "CREATE TABLE t (a text(8), b date)" =
      .ok ⟨"t", [⟨"a", ⟨.string, none⟩⟩, ⟨"b", ⟨.string, some "date"⟩⟩], []⟩ := by decide +kernel
  have hblob : Table.ofText .sqlite "CREATE TABLE t (a blob, b point)" =
      .error (.unknownType ⟨"blob"⟩) := by decide +kernel
  obtain ⟨-, -, hresolve, htext⟩ :=
    (overrides_are_layered c .sqlite rfl).2 c.overrides.entries.reverse (List.reverse_perm _)
  obtain ⟨t, ht, -, -, hnames, -⟩ := (htext _).2.2.1 _ hmodel
  exact ⟨rfl, List.reverse_perm _, hresolve "text", hresolve "int", hresolve "point", hmodel,
    ⟨t, ht, hnames⟩, hblob, (htext _).2.2.2 _ hblob⟩

end TableSchema.Source
