import TableSchema.Ddl.Rendering
import TableSchema.Proofs.Ddl.Acceptance

/-!
# Parts of a definition that can be left out

Sizes of types, modifiers and all clauses but columns and unnamed primary keys say nothing about the
model of a table, and neither does `IF NOT EXISTS`. An `Omission` is such a part of a statement with
what stands before it and after it. Without the part, the rest is a statement again: what is left of
the clauses is still in order, and it declares the same columns and the same unnamed primary key.
-/

namespace TableSchema.Ddl

open Grammar

/-! ## Clauses with their words -/

/-- Clauses with words that spell them, in an order that a statement can have. -/
structure AreClauses (parts : List (Clause × List TokenKind)) : Prop where
  /-- there is a clause -/
  ne_nil : parts ≠ []
  /-- each clause goes with a spelling of it -/
  spelled : ∀ p ∈ parts, ClauseSpelling p.1 p.2
  /-- the clauses are in order -/
  inOrder : InOrder (parts.map Prod.fst)

/-- The kinds before the clauses of a statement. -/
def openingKinds (table : String) (ifNotExists : Bool) : List TokenKind :=
  [.keyword .create, .keyword .table] ++ existenceWords ifNotExists ++
    [.identifier table, .symbol .leftParen]

/-- The kinds of a statement whose clauses have these words. -/
def statementKinds (table : String) (ifNotExists : Bool)
    (parts : List (Clause × List TokenKind)) : List TokenKind :=
  openingKinds table ifNotExists ++ commaKinds (parts.map Prod.snd) ++ [.symbol .rightParen]

/-- The words of clauses that other clauses follow. -/
def wordsBefore (parts : List (Clause × List TokenKind)) : List TokenKind :=
  parts.flatMap fun p => p.2 ++ [.symbol .comma]

/-- The words of clauses that follow other clauses. -/
def wordsAfter (parts : List (Clause × List TokenKind)) : List TokenKind :=
  parts.flatMap fun p => .symbol .comma :: p.2

theorem commaKinds_cons_of_ne_nil {kinds : List TokenKind} {more : List (List TokenKind)}
    (h : more ≠ []) : commaKinds (kinds :: more) = kinds ++ .symbol .comma :: commaKinds more := by
  obtain ⟨next, more, rfl⟩ := List.exists_cons_of_ne_nil h
  rfl

theorem commaKinds_cons (p : Clause × List TokenKind) (parts : List (Clause × List TokenKind)) :
    commaKinds ((p :: parts).map Prod.snd) = p.2 ++ wordsAfter parts := by
  induction parts generalizing p with
  | nil => exact (List.append_nil p.2).symm
  | cons q parts ih =>
    rw [List.map_cons, commaKinds_cons_of_ne_nil (by simp), ih]
    rfl

theorem commaKinds_append_cons (before after : List (Clause × List TokenKind))
    (p : Clause × List TokenKind) :
    commaKinds ((before ++ p :: after).map Prod.snd) =
      wordsBefore before ++ p.2 ++ wordsAfter after := by
  induction before with
  | nil => exact commaKinds_cons p after
  | cons q before ih =>
    rw [List.cons_append, List.map_cons, commaKinds_cons_of_ne_nil (by simp), ih]
    simp [wordsBefore]

/-- A list with commas is its items, each with a spelling of it. -/
theorem commaSeparated_iff_parts {α : Type} {S : α → List TokenKind → Prop} {as : List α}
    {w : List TokenKind} :
    CommaSeparated S as w ↔
      ∃ parts : List (α × List TokenKind), parts ≠ [] ∧ (∀ p ∈ parts, S p.1 p.2) ∧
        as = parts.map Prod.fst ∧ w = commaKinds (parts.map Prod.snd) := by
  refine ⟨fun h => ?_, ?_⟩
  · induction h with
    | @single a w ha => exact ⟨[(a, w)], by simp, by simpa using ha, rfl, rfl⟩
    | @more a as w v ha _ ih =>
      obtain ⟨parts, hne, hparts, rfl, rfl⟩ := ih
      refine ⟨(a, w) :: parts, by simp, List.forall_mem_cons.mpr ⟨ha, hparts⟩, rfl, ?_⟩
      rw [List.map_cons, commaKinds_cons_of_ne_nil (by simpa using hne)]
  · rintro ⟨parts, hne, hparts, rfl, rfl⟩
    induction parts with
    | nil => exact absurd rfl hne
    | cons p parts ih =>
      obtain ⟨hp, hparts⟩ := List.forall_mem_cons.mp hparts
      by_cases hnil : parts = []
      · subst hnil
        exact .single hp
      · rw [List.map_cons, List.map_cons, commaKinds_cons_of_ne_nil (by simpa using hnil)]
        exact .more hp (ih hnil hparts)

/-- The words of clauses in order spell the statement that the clauses make up, and every statement
is spelled so. -/
theorem statementSpelling_iff_parts {s : Statement} {w : List TokenKind} :
    StatementSpelling s w ↔
      ∃ parts, AreClauses parts ∧
        s = .ofClauses s.table s.ifNotExists (parts.map Prod.fst) ∧
        w = statementKinds s.table s.ifNotExists parts := by
  rw [statementSpelling_iff]
  simp only [commaSeparated_iff_parts]
  refine ⟨?_, ?_⟩
  · rintro ⟨_, _, ⟨parts, hne, hparts, rfl, rfl⟩, horder, hs, rfl⟩
    exact ⟨parts, ⟨hne, hparts, horder⟩, hs, by simp [statementKinds, openingKinds]⟩
  · rintro ⟨parts, ⟨hne, hparts, horder⟩, hs, rfl⟩
    exact ⟨_, _, ⟨parts, hne, hparts, rfl, rfl⟩, horder, hs,
      by simp [statementKinds, openingKinds]⟩

theorem AreClauses.spelling {parts : List (Clause × List TokenKind)} (h : AreClauses parts)
    (table : String) (ifNotExists : Bool) :
    StatementSpelling (.ofClauses table ifNotExists (parts.map Prod.fst))
      (statementKinds table ifNotExists parts) :=
  statementSpelling_iff_parts.mpr ⟨parts, h, rfl, rfl⟩

/-! ## Omissions -/

/-- A part of a statement that can be left out, with what stands before it and after it. -/
inductive Omission : (before part after : List TokenKind) → Prop where
  /-- `IF NOT EXISTS` -/
  | existence {table : String} {parts : List (Clause × List TokenKind)} :
    AreClauses parts →
      Omission [.keyword .create, .keyword .table] (existenceWords true)
        ([.identifier table, .symbol .leftParen] ++ commaKinds (parts.map Prod.snd) ++
          [.symbol .rightParen])
  /-- the arguments of the type of a column -/
  | arguments {table : String} {ifNotExists : Bool} {before after : List (Clause × List TokenKind)}
    {d : Column} {u v : List TokenKind} :
    TypeArguments d.type.arguments u → Modifiers d.modifiers v →
      AreClauses (before ++
        (.column d, [.identifier d.name, .identifier d.type.name] ++ u ++ v) :: after) →
      Omission
        (openingKinds table ifNotExists ++ wordsBefore before ++
          [.identifier d.name, .identifier d.type.name])
        u (v ++ wordsAfter after ++ [.symbol .rightParen])
  /-- a modifier of a column -/
  | modifier {table : String} {ifNotExists : Bool} {before after : List (Clause × List TokenKind)}
    {d : Column} {ms ms' : List Modifier} {m : Modifier} {u v v' w : List TokenKind} :
    TypeArguments d.type.arguments u → d.modifiers = ms ++ m :: ms' → Modifiers ms v →
      ModifierSpelling m w → Modifiers ms' v' →
      AreClauses (before ++
        (.column d, [.identifier d.name, .identifier d.type.name] ++ u ++ (v ++ (w ++ v'))) ::
          after) →
      Omission
        (openingKinds table ifNotExists ++ wordsBefore before ++
          [.identifier d.name, .identifier d.type.name] ++ u ++ v)
        w (v' ++ wordsAfter after ++ [.symbol .rightParen])
  /-- a foreign key, a named constraint or a check, with the comma before it -/
  | clause {table : String} {ifNotExists : Bool} {first : Clause × List TokenKind}
    {before after : List (Clause × List TokenKind)} {c : Clause} {w : List TokenKind} :
    c.group ∈ [.foreignKeys, .constraints, .checks] →
      AreClauses (first :: before ++ (c, w) :: after) →
      Omission (openingKinds table ifNotExists ++ first.2 ++ wordsAfter before)
        (.symbol .comma :: w) (wordsAfter after ++ [.symbol .rightParen])

/-- What two statements have in common whose tables are the same. -/
structure SameTable (s s' : Statement) : Prop where
  /-- the table name -/
  table : s'.table = s.table
  /-- the names of the columns and of their types -/
  columns : s'.columns.map (fun d => (d.name, d.type.name)) =
    s.columns.map fun d => (d.name, d.type.name)
  /-- the unnamed primary key -/
  primaryKey : s'.primaryKey = s.primaryKey

theorem modifiers_append {ms ms' : List Modifier} {v v' : List TokenKind} (h : Modifiers ms v)
    (h' : Modifiers ms' v') : Modifiers (ms ++ ms') (v ++ v') := by
  induction h with
  | nil => exact h'
  | cons hm _ ih =>
    rw [List.cons_append, List.append_assoc]
    exact .cons hm ih

/-- The order of clauses is one of their groups. -/
theorem InOrder.of_groups {cs cs' : List Clause} (h : InOrder cs)
    (hgroups : cs'.map Clause.group = cs.map Clause.group) : InOrder cs' := by
  have hiff : ∀ cs : List Clause, InOrder cs ↔
      (cs.map Clause.group).Pairwise (fun g g' => g.rank ≤ g'.rank) ∧
        ∀ g ∈ (cs.map Clause.group).head?, g = .columns := by
    intro cs
    simp [InOrder, List.pairwise_map]
  rw [hiff] at h ⊢
  rwa [hgroups]

/-- A column can be declared in another way. -/
theorem AreClauses.redeclare {before after : List (Clause × List TokenKind)} {d d' : Column}
    {w w' : List TokenKind} (h : AreClauses (before ++ (.column d, w) :: after))
    (hd' : ColumnSpelling d' w') : AreClauses (before ++ (.column d', w') :: after) := by
  obtain ⟨hne, hspelled, horder⟩ := h
  refine ⟨by simp, ?_, horder.of_groups (by simp [Clause.group])⟩
  rw [List.forall_mem_append, List.forall_mem_cons] at hspelled ⊢
  exact ⟨hspelled.1, .column hd', hspelled.2.2⟩

/-- A clause other than the first can be left out. -/
theorem AreClauses.leaveOut {first p : Clause × List TokenKind}
    {before after : List (Clause × List TokenKind)}
    (h : AreClauses (first :: before ++ p :: after)) : AreClauses (first :: before ++ after) := by
  obtain ⟨hne, hspelled, hpw, hhead⟩ := h
  have hsub : (first :: before ++ after).Sublist (first :: before ++ p :: after) :=
    .append_left (List.sublist_cons_self p after) _
  exact ⟨by simp, fun q hq => hspelled q (hsub.subset hq), hpw.sublist (hsub.map _), hhead⟩

/-- Clauses that declare the same columns and the same unnamed primary keys make up statements of
the same table. -/
theorem AreClauses.sameTable {parts parts' : List (Clause × List TokenKind)} (h : AreClauses parts)
    (h' : AreClauses parts')
    (hcolumns : ((parts'.map Prod.fst).filterMap Clause.column?).map
        (fun d => (d.name, d.type.name)) =
      ((parts.map Prod.fst).filterMap Clause.column?).map fun d => (d.name, d.type.name))
    (hkeys : (parts'.map Prod.fst).filterMap Clause.primaryKey? =
      (parts.map Prod.fst).filterMap Clause.primaryKey?)
    (table : String) (ifNotExists ifNotExists' : Bool) :
    ∃ s s', StatementSpelling s (statementKinds table ifNotExists parts) ∧
      StatementSpelling s' (statementKinds table ifNotExists' parts') ∧ SameTable s s' :=
  ⟨_, _, h.spelling table ifNotExists, h'.spelling table ifNotExists', rfl, hcolumns,
    congrArg List.flatten hkeys⟩

/-- **What is left without an omission.** With the part and without it the kinds are statements of
the same table. -/
theorem Omission.sameTable {before part after : List TokenKind} (h : Omission before part after) :
    ∃ s s', StatementSpelling s (before ++ part ++ after) ∧ StatementSpelling s' (before ++ after) ∧
      SameTable s s' := by
  cases h with
  | @existence table parts hparts =>
    have h := hparts.sameTable hparts rfl rfl table true false
    simpa [statementKinds, openingKinds, existenceWords] using h
  | @arguments table ifNotExists before after d u v hu hv hparts =>
    have hd : ColumnSpelling { d with type.arguments := [] }
        ([.identifier d.name, .identifier d.type.name] ++ v) := ⟨[], v, .none, hv, rfl⟩
    have h := hparts.sameTable (hparts.redeclare hd) (by simp [Clause.column?])
      (by simp [List.filterMap_cons, Clause.primaryKey?]) table ifNotExists ifNotExists
    simp only [statementKinds, commaKinds_append_cons] at h
    simpa using h
  | @modifier table ifNotExists before after d ms ms' m u v v' w hu hms hv hw hv' hparts =>
    have hd : ColumnSpelling { d with modifiers := ms ++ ms' }
        ([.identifier d.name, .identifier d.type.name] ++ u ++ (v ++ v')) :=
      ⟨u, v ++ v', hu, modifiers_append hv hv', rfl⟩
    have h := hparts.sameTable (hparts.redeclare hd) (by simp [Clause.column?])
      (by simp [List.filterMap_cons, Clause.primaryKey?]) table ifNotExists ifNotExists
    simp only [statementKinds, commaKinds_append_cons] at h
    simpa using h
  | @clause table ifNotExists first before after c w hc hparts =>
    have hcolumn : c.column? = none := by cases c <;> simp_all [Clause.group, Clause.column?]
    have hkey : c.primaryKey? = none := by cases c <;> simp_all [Clause.group, Clause.primaryKey?]
    have h := hparts.sameTable hparts.leaveOut (by simp [List.filterMap_cons, hcolumn])
      (by simp [List.filterMap_cons, hkey]) table ifNotExists ifNotExists
    simp only [statementKinds, List.cons_append, commaKinds_cons] at h
    simpa [wordsAfter] using h

end TableSchema.Ddl
