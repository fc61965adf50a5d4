import Mathlib.Data.List.Forall2
import TableSchema.Catalog.Definition
import TableSchema.Proofs.Ddl.Erasure

/-!
# What a table definition means

The model of a table definition, or the error, is told by three questions: what the tokens of the
text are, what statement they are, and which type names have a meaning. A stage is reached only
where the ones before it succeed.

The model keeps the columns of the statement in their order, with their repetitions, and the columns
of its unnamed primary key clauses one after the other. Other parts of the text can be left out.
-/

namespace TableSchema.Catalog

open Ddl Ddl.Grammar

/-! ## First failures -/

/-- A list has partners throughout iff each of its members has one. -/
theorem exists_forall₂_iff {α β : Type} {R : α → β → Prop} {as : List α} :
    (∃ bs, List.Forall₂ R as bs) ↔ ∀ a ∈ as, ∃ b, R a b := by
  induction as with
  | nil => simp
  | cons a as ih => simp [List.forall₂_cons_left_iff, ← ih]

section MapM

variable {ε α β : Type} {f : α → Except ε β}

theorem mapM_eq_ok_iff {as : List α} {bs : List β} :
    as.mapM f = .ok bs ↔ List.Forall₂ (fun a b => f a = .ok b) as bs := by
  induction as generalizing bs with
  | nil => cases bs <;> simp [pure, Except.pure]
  | cons a as ih =>
    rw [List.mapM_cons]
    cases ha : f a with
    | error e => cases bs <;> simp [bind, Except.bind, ha]
    | ok b =>
      cases has : as.mapM f with
      | error e => cases bs <;> simp [bind, Except.bind, ← ih, ha, has]
      | ok bs' => cases bs <;> simp [bind, Except.bind, pure, Except.pure, ← ih, ha, has]

/-- The first failure is the failure of the whole. -/
theorem mapM_eq_error_iff {as : List α} {e : ε} :
    as.mapM f = .error e ↔
      ∃ before a after, as = before ++ a :: after ∧ f a = .error e ∧
        ∀ x ∈ before, ∃ b, f x = .ok b := by
  induction as with
  | nil => simp [pure, Except.pure]
  | cons a as ih =>
    rw [List.mapM_cons]
    cases ha : f a with
    | error e' =>
      refine ⟨fun h => ⟨[], a, as, rfl, by cases h; exact ha, by simp⟩, ?_⟩
      rintro ⟨_ | ⟨x, before⟩, a', after, hsplit, ha', hbefore⟩
      · cases hsplit
        cases ha.symm.trans ha'
        rfl
      · -- nothing before the first failure can have failed
        cases hsplit
        obtain ⟨b, hb⟩ := hbefore a List.mem_cons_self
        rw [ha] at hb
        cases hb
    | ok b =>
      have htail : (do let b ← Except.ok b; let bs ← as.mapM f; pure (b :: bs)) = .error e ↔
          as.mapM f = .error e := by
        change (as.mapM f >>= fun bs => pure (b :: bs)) = _ ↔ _
        cases as.mapM f <;> simp [bind, Except.bind, pure, Except.pure]
      rw [htail, ih]
      refine ⟨?_, ?_⟩
      · rintro ⟨before, a', after, rfl, ha', hbefore⟩
        exact ⟨a :: before, a', after, rfl, ha', List.forall_mem_cons.mpr ⟨⟨b, ha⟩, hbefore⟩⟩
      · rintro ⟨_ | ⟨x, before⟩, a', after, hsplit, ha', hbefore⟩
        · cases hsplit
          rw [ha] at ha'
          cases ha'
        · cases hsplit
          exact ⟨before, a', after, rfl, ha', (List.forall_mem_cons.mp hbefore).2⟩

end MapM

/-! ## Columns -/

/-- A field is a declared column with the meaning of its type name. -/
def IsFieldOf (types : TypeTable) (c : Column) (f : Field) : Prop :=
  f.name = c.name ∧ (c.type.name, f.type) ∈ types.entries.entries

/-- The first column whose type name has no meaning has this type name. -/
def FirstUnknown (types : TypeTable) (columns : List Column) (typeName : String) : Prop :=
  ∃ before c after, columns = before ++ c :: after ∧ c.type.name = typeName ∧
    typeName ∉ types.entries.keys ∧ ∀ d ∈ before, d.type.name ∈ types.entries.keys

theorem resolve_eq_ok_iff {types : TypeTable} {typeName : String} {type : ColumnType} :
    types.resolve typeName = .ok type ↔ (typeName, type) ∈ types.entries.entries := by
  rw [← OrderedMap.get?_eq_some_iff, TypeTable.resolve, TypeTable.get?]
  cases types.entries.get? typeName <;> simp

theorem resolve_eq_error_iff {types : TypeTable} {typeName : String} {e : UnknownType} :
    types.resolve typeName = .error e ↔ typeName ∉ types.entries.keys ∧ e = ⟨typeName⟩ := by
  rw [← OrderedMap.get?_eq_none_iff, TypeTable.resolve, TypeTable.get?]
  cases types.entries.get? typeName <;> simp [eq_comm]

/-- The field of a column, if its type name has a meaning. -/
def fieldOf (types : TypeTable) (c : Column) : Except UnknownType Field :=
  return ⟨c.name, ← types.resolve c.type.name⟩

theorem fieldOf_eq (types : TypeTable) (c : Column) :
    fieldOf types c = (types.resolve c.type.name).map (⟨c.name, ·⟩) := by
  rw [fieldOf]
  cases types.resolve c.type.name <;> rfl

theorem fieldOf_eq_ok_iff {types : TypeTable} {c : Column} {f : Field} :
    fieldOf types c = .ok f ↔ IsFieldOf types c f := by
  obtain ⟨name, type⟩ := f
  rw [fieldOf_eq, IsFieldOf, ← resolve_eq_ok_iff]
  cases types.resolve c.type.name <;> simp [Except.map, eq_comm]

/-- A column fails for its type alone, and the error names that type. -/
theorem fieldOf_eq_error_iff {types : TypeTable} {c : Column} {e : UnknownType} :
    fieldOf types c = .error e ↔ c.type.name ∉ types.entries.keys ∧ e = ⟨c.type.name⟩ := by
  rw [fieldOf_eq, ← resolve_eq_error_iff]
  cases types.resolve c.type.name <;> simp [Except.map]

theorem exists_isFieldOf_iff {types : TypeTable} {c : Column} :
    (∃ f, IsFieldOf types c f) ↔ c.type.name ∈ types.entries.keys := by
  rw [OrderedMap.keys, List.mem_map]
  refine ⟨?_, ?_⟩
  · rintro ⟨f, -, hf⟩
    exact ⟨_, hf, rfl⟩
  · rintro ⟨⟨typeName, type⟩, he, rfl⟩
    exact ⟨⟨c.name, type⟩, rfl, he⟩

theorem ofStatement_eq (types : TypeTable) (s : Statement) :
    Table.ofStatement types s =
      (s.columns.mapM (fieldOf types)).map (⟨s.table, ·, s.primaryKey⟩) := by
  change (s.columns.mapM (fieldOf types) >>= fun fields =>
    pure (⟨s.table, fields, s.primaryKey⟩ : Table)) = _
  cases s.columns.mapM (fieldOf types) <;> rfl

/-- The model of a statement: the fields are its columns, in order. -/
theorem ofStatement_eq_ok_iff {types : TypeTable} {s : Statement} {t : Table} :
    Table.ofStatement types s = .ok t ↔
      t.name = s.table ∧ List.Forall₂ (IsFieldOf types) s.columns t.fields ∧
        t.primaryKeys = s.primaryKey := by
  obtain ⟨name, fields, primaryKeys⟩ := t
  have hfields : s.columns.mapM (fieldOf types) = .ok fields ↔ _ := mapM_eq_ok_iff
  simp only [fieldOf_eq_ok_iff] at hfields
  rw [ofStatement_eq, ← hfields]
  cases s.columns.mapM (fieldOf types) <;> simp [Except.map, eq_comm, and_comm]

/-- A statement without a model: the error is about the first type name without a meaning. -/
theorem ofStatement_eq_error_iff {types : TypeTable} {s : Statement} {typeName : String} :
    Table.ofStatement types s = .error ⟨typeName⟩ ↔ FirstUnknown types s.columns typeName := by
  have hfirst : s.columns.mapM (fieldOf types) = .error ⟨typeName⟩ ↔ _ := mapM_eq_error_iff
  simp only [fieldOf_eq_ok_iff, fieldOf_eq_error_iff, exists_isFieldOf_iff] at hfirst
  have hmap : Table.ofStatement types s = .error ⟨typeName⟩ ↔
      s.columns.mapM (fieldOf types) = .error ⟨typeName⟩ := by
    rw [ofStatement_eq]
    cases s.columns.mapM (fieldOf types) <;> simp [Except.map]
  rw [hmap, hfirst]
  refine exists_congr fun before => exists_congr fun c => exists_congr fun after => ?_
  refine and_congr_right fun _ => ?_
  refine ⟨?_, ?_⟩
  · rintro ⟨⟨hc, heq⟩, hbefore⟩
    cases heq
    exact ⟨rfl, hc, hbefore⟩
  · rintro ⟨rfl, hc, hbefore⟩
    exact ⟨⟨hc, rfl⟩, hbefore⟩

/-- Statements of the same table have the same model, or lack one for the same reason. -/
theorem ofStatement_of_sameTable {s s' : Statement} (h : SameTable s s') (types : TypeTable) :
    Table.ofStatement types s' = Table.ofStatement types s := by
  have hfields : ∀ columns : List Column, columns.mapM (fieldOf types) =
      (columns.map fun d => (d.name, d.type.name)).mapM fun p =>
        (types.resolve p.2).map (⟨p.1, ·⟩) := by
    intro columns
    rw [List.mapM_map]
    exact congrArg (List.mapM · columns) (funext (fieldOf_eq types))
  rw [ofStatement_eq, ofStatement_eq, hfields, hfields, h.columns, h.table, h.primaryKey]

/-! ## Texts -/

/-- The stages after the tokens of a text are known. -/
theorem ofText_of_tokens {text : String} {tokens : List Token} (h : tokenize text = .ok tokens)
    (types : TypeTable) :
    Table.ofText types text =
      match Statement.ofTokens tokens with
      | .error e => .error (.parse e)
      | .ok s => (Table.ofStatement types s).mapError .unknownType := by
  rw [Table.ofText, h]
  cases hs : Statement.ofTokens tokens with
  | error e => simp [Except.mapError, bind, Except.bind, hs]
  | ok s => simp [Except.mapError, bind, Except.bind, hs]

theorem ofText_eq_lexical_iff {types : TypeTable} {text : String} {e : LexicalError} :
    Table.ofText types text = .error (.lexical e) ↔ tokenize text = .error e := by
  cases h : tokenize text with
  | error e' =>
    rw [Table.ofText, h]
    simp [Except.mapError, bind, Except.bind]
  | ok tokens =>
    rw [ofText_of_tokens h]
    cases Statement.ofTokens tokens with
    | error e' => simp
    | ok s => cases hs : Table.ofStatement types s <;> simp [Except.mapError, hs]

section Tokens

variable {text : String} {tokens : List Token} (h : tokenize text = .ok tokens) {types : TypeTable}

include h

theorem ofText_eq_parse_iff {e : ParseError} :
    Table.ofText types text = .error (.parse e) ↔ Statement.ofTokens tokens = .error e := by
  rw [ofText_of_tokens h]
  cases Statement.ofTokens tokens with
  | error e' => simp
  | ok s => cases hs : Table.ofStatement types s <;> simp [Except.mapError, hs]

theorem ofText_eq_unknownType_iff {s : Statement} (hs : Statement.ofTokens tokens = .ok s)
    {e : UnknownType} :
    Table.ofText types text = .error (.unknownType e) ↔ Table.ofStatement types s = .error e := by
  rw [ofText_of_tokens h, hs]
  cases hs : Table.ofStatement types s <;> simp [Except.mapError, hs]

theorem ofText_eq_ok_iff {s : Statement} (hs : Statement.ofTokens tokens = .ok s) {t : Table} :
    Table.ofText types text = .ok t ↔ Table.ofStatement types s = .ok t := by
  rw [ofText_of_tokens h, hs]
  cases hs : Table.ofStatement types s <;> simp [Except.mapError, hs]

end Tokens

/-- Tokens that define a table with some clauses. -/
def Defines (tokens : List Token) (table : String) (parts : List (Clause × List TokenKind)) :
    Prop :=
  AreClauses parts ∧
    ∃ ifNotExists, kindsBeforeEnd tokens = statementKinds table ifNotExists parts

/-- What is parsed has a table name and clauses with their spellings. -/
theorem exists_defines {tokens : List Token} {s : Statement}
    (h : Statement.ofTokens tokens = .ok s) : ∃ table parts, Defines tokens table parts := by
  obtain ⟨parts, hparts, -, hkinds⟩ :=
    statementSpelling_iff_parts.mp (ofTokens_eq_ok_iff_spelling.mp h)
  exact ⟨s.table, parts, hparts, s.ifNotExists, hkinds⟩

theorem Defines.exists_ofTokens {tokens : List Token} {table : String}
    {parts : List (Clause × List TokenKind)} (h : Defines tokens table parts) :
    ∃ ifNotExists, Statement.ofTokens tokens =
      .ok (.ofClauses table ifNotExists (parts.map Prod.fst)) := by
  obtain ⟨hparts, ifNotExists, hkinds⟩ := h
  refine ⟨ifNotExists, ?_⟩
  rw [ofTokens_eq_ok_iff_spelling, hkinds]
  exact hparts.spelling table ifNotExists

/-- **The meaning of a table definition.** A text is refused

* for a lexical error, if it has no tokens;
* for a parse error, if its tokens are no statement, and otherwise they define a table by clauses;
* for the first column whose type name is no key of the type table.

Otherwise its model has the declared name, a field for each column in order, with the meaning of the
type name, and the columns of all unnamed primary key clauses, one clause after the other.

Where a part of a statement can be left out, the tokens without it are a statement too, and for
every type table the two have the same model, or none for the same reason. -/
theorem meaning_of_definition :
    (∀ (types : TypeTable) (text : String),
      (∀ e, Table.ofText types text = .error (.lexical e) ↔ tokenize text = .error e) ∧
      ∀ tokens, tokenize text = .ok tokens →
        (∀ e, Table.ofText types text = .error (.parse e) ↔
          Statement.ofTokens tokens = .error e) ∧
        (∀ s, Statement.ofTokens tokens = .ok s → ∃ table parts, Defines tokens table parts) ∧
        ∀ table parts, Defines tokens table parts →
          (∀ typeName, Table.ofText types text = .error (.unknownType ⟨typeName⟩) ↔
            FirstUnknown types ((parts.map Prod.fst).filterMap Clause.column?) typeName) ∧
          ∀ t, Table.ofText types text = .ok t ↔
            t.name = table ∧
            List.Forall₂ (IsFieldOf types) ((parts.map Prod.fst).filterMap Clause.column?)
              t.fields ∧
            t.primaryKeys = ((parts.map Prod.fst).filterMap Clause.primaryKey?).flatten) ∧
    ∀ front part back : List Token,
      Omission (front.map Token.kind) (part.map Token.kind) (kindsBeforeEnd back) →
        ∃ s s', Statement.ofTokens (front ++ part ++ back) = .ok s ∧
          Statement.ofTokens (front ++ back) = .ok s' ∧
          ∀ types, Table.ofStatement types s' = Table.ofStatement types s := by
  refine ⟨fun types text => ⟨fun e => ofText_eq_lexical_iff, fun tokens h =>
    ⟨fun e => ofText_eq_parse_iff h, fun s hs => exists_defines hs,
      fun table parts hdefines => ?_⟩⟩, fun front part back homission => ?_⟩
  · obtain ⟨ifNotExists, hs⟩ := hdefines.exists_ofTokens
    refine ⟨fun typeName => ?_, fun t => ?_⟩
    · rw [ofText_eq_unknownType_iff h hs, ofStatement_eq_error_iff]
      rfl
    · rw [ofText_eq_ok_iff h hs, ofStatement_eq_ok_iff]
      rfl
  · obtain ⟨s, s', hs, hs', hsame⟩ := homission.sameTable
    have hend := endOfInput_not_mem_of_spelling hs
    simp only [List.mem_append, not_or] at hend
    obtain ⟨⟨hfront, hpart⟩, -⟩ := hend
    refine ⟨s, s', ?_, ?_, ofStatement_of_sameTable hsame⟩
    · rw [ofTokens_eq_ok_iff_spelling, List.append_assoc, kindsBeforeEnd_append hfront,
        kindsBeforeEnd_append hpart, ← List.append_assoc]
      exact hs
    · rw [ofTokens_eq_ok_iff_spelling, kindsBeforeEnd_append hfront]
      exact hs'

/-- The tokens of `CREATE TABLE t(a int(8))`, up to the name of the type. -/
def beforeSize : List Token :=
  [⟨.keyword .create, "CREATE", ⟨0, 1, 1⟩⟩, ⟨.keyword .table, "TABLE", ⟨7, 1, 8⟩⟩,
    ⟨.identifier "t", "t", ⟨13, 1, 14⟩⟩, ⟨.symbol .leftParen, "(", ⟨14, 1, 15⟩⟩,
    ⟨.identifier "a", "a", ⟨15, 1, 16⟩⟩, ⟨.identifier "int", "int", ⟨17, 1, 18⟩⟩]

/-- Those of the size. -/
def sizeTokens : List Token :=
  [⟨.symbol .leftParen, "(", ⟨20, 1, 21⟩⟩, ⟨.number "8", "8", ⟨21, 1, 22⟩⟩,
    ⟨.symbol .rightParen, ")", ⟨22, 1, 23⟩⟩]

/-- Those after the size. -/
def afterSize : List Token :=
  [⟨.symbol .rightParen, ")", ⟨23, 1, 24⟩⟩, ⟨.endOfInput, "", ⟨24, 1, 25⟩⟩]

/-- The only column of the definition, with its words. -/
def sizedColumn : Clause × List TokenKind :=
  (.column ⟨"a", ⟨"int", ["8"]⟩, []⟩,
    [.identifier "a", .identifier "int"] ++
      [.symbol .leftParen, .number "8", .symbol .rightParen] ++ [])

/-- The model of the definition has a field for its column, and the size can be left out. -/
theorem meaning_of_definition_with_size :
    (∀ types t, Table.ofText types "CREATE TABLE t(a int(8))" = .ok t ↔
      t.name = "t" ∧ List.Forall₂ (IsFieldOf types) [⟨"a", ⟨"int", ["8"]⟩, []⟩] t.fields ∧
        t.primaryKeys = []) ∧
    ∃ s s', Statement.ofTokens (beforeSize ++ sizeTokens ++ afterSize) = .ok s ∧
      Statement.ofTokens (beforeSize ++ afterSize) = .ok s' ∧
      ∀ types, Table.ofStatement types s' = Table.ofStatement types s := by
  have htokens : tokenize "CREATE TABLE t(a int(8))" =
      .ok (beforeSize ++ sizeTokens ++ afterSize) := by decide +kernel
  have hparts : AreClauses ([] ++ [sizedColumn]) :=
    ⟨by simp, by simpa [sizedColumn] using .column ⟨_, _, .size "8", .nil, rfl⟩,
      by simp [InOrder, sizedColumn, Clause.group]⟩
  obtain ⟨hmeaning, homission⟩ := meaning_of_definition
  refine ⟨fun types => ?_, homission beforeSize sizeTokens afterSize ?_⟩
  · obtain ⟨-, htext⟩ := hmeaning types "CREATE TABLE t(a int(8))"
    obtain ⟨-, -, hdefines⟩ := htext _ htokens
    exact (hdefines "t" [sizedColumn] ⟨hparts, false, rfl⟩).2
  · have hsize : Omission
        (openingKinds "t" false ++ wordsBefore [] ++ [.identifier "a", .identifier "int"])
        [.symbol .leftParen, .number "8", .symbol .rightParen]
        ([] ++ wordsAfter [] ++ [.symbol .rightParen]) := .arguments (.size "8") .nil hparts
    exact hsize

end TableSchema.Catalog
