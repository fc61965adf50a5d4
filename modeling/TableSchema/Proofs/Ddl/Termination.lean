import TableSchema.Proofs.Ddl.Progress

/-!
# Parsing comes to an end

The loops of the parser end in any case, since `Parser.collect` stops where a round consumes nothing. No
rule of the grammar relies on that. Here are the rules once more, with loops that go round until a round
declines and do not look at the cursor (`Unguarded`). They are told by the outcomes that their runs come
to, and an endless run comes to none.

* Each round consumes a token or declines, so a loop without the guard comes to what the loop with it
  gives, and to nothing else (`Unguarded.repeated_eq`).
* The rules are the same otherwise, so each of them comes to what it gives with the guard.

Hence a list of tokens is read to its end or to an error without any guard, whatever the tokens are.
-/

namespace TableSchema.Ddl

open Ddl.Parser

/-- A parser with loops that may be endless: the outcomes that its runs come to. -/
def Unguarded (α : Type) : Type := Cursor → Except ParseError α × Cursor → Prop

namespace Unguarded

variable {α β σ : Type}

/-- A run from a cursor comes to an outcome: an answer and the place where it stops. -/
def ComesTo (p : Unguarded α) (c : Cursor) (out : Except ParseError α × Cursor) : Prop := p c out

/-- Two parsers are the same if their runs come to the same outcomes. -/
theorem ext {p q : Unguarded α} (h : ∀ c out, p.ComesTo c out ↔ q.ComesTo c out) : p = q :=
  funext fun c => funext fun out => propext (h c out)

instance : Monad Unguarded where
  pure a := fun c out => out = (.ok a, c)
  bind p q := fun c out =>
    (∃ a c', p.ComesTo c (.ok a, c') ∧ (q a).ComesTo c' out) ∨
      ∃ e c', p.ComesTo c (.error e, c') ∧ out = (.error e, c')

/-- A parser that ends in any case comes to what it gives. -/
instance : MonadLift Parser Unguarded where
  monadLift p := fun c out => out = p.runFrom c

/-- A parser that ends in any case comes to its one outcome. -/
theorem comesTo_lift {p : Parser α} {c : Cursor} {out : Except ParseError α × Cursor} :
    (liftM p : Unguarded α).ComesTo c out ↔ out = p.runFrom c := Iff.rfl

/-- A sequence comes to what its second part comes to, or fails with its first. -/
theorem comesTo_bind {p : Unguarded α} {q : α → Unguarded β} {c : Cursor}
    {out : Except ParseError β × Cursor} :
    (p >>= q).ComesTo c out ↔
      (∃ a c', p.ComesTo c (.ok a, c') ∧ (q a).ComesTo c' out) ∨
        ∃ e c', p.ComesTo c (.error e, c') ∧ out = (.error e, c') := Iff.rfl

instance : LawfulMonadLift Parser Unguarded where
  monadLift_pure _ := rfl
  monadLift_bind p q := by
    refine ext fun c out => ?_
    change out = (p >>= q).runFrom c ↔
      ((liftM p : Unguarded _) >>= fun a => (liftM (q a) : Unguarded _)).ComesTo c out
    rw [Parser.runFrom_bind, comesTo_bind]
    simp only [comesTo_lift]
    rcases p.runFrom c with ⟨e | a, c'⟩ <;> simp

/-! ## Loops -/

/-- The outcomes of a step that is repeated until it declines or fails. -/
inductive Repeats (step : σ → Unguarded (Option (α × σ))) :
    σ → Cursor → Except ParseError (List α) × Cursor → Prop where
  | fails {s : σ} {c c' : Cursor} {e : ParseError} :
    (step s).ComesTo c (.error e, c') → Repeats step s c (.error e, c')
  | declines {s : σ} {c c' : Cursor} :
    (step s).ComesTo c (.ok none, c') → Repeats step s c (.ok [], c')
  | goesOn {s s' : σ} {a : α} {c c' c'' : Cursor} {more : Except ParseError (List α)} :
    (step s).ComesTo c (.ok (some (a, s')), c') → Repeats step s' c' (more, c'') →
      Repeats step s c (more.map (a :: ·), c'')

/-- Repeats a step until it declines, and collects what the steps give. -/
def repeated (step : σ → Unguarded (Option (α × σ))) (s : σ) : Unguarded (List α) := Repeats step s

/-- Rounds that consume a token or decline need no guard. -/
theorem repeated_eq {step : σ → Parser (Option (α × σ))} (hstep : ∀ s, IsRound (step s)) (s : σ) :
    repeated (fun s => liftM (step s)) s = liftM (collect step s) := by
  refine ext fun c out => ?_
  change Repeats _ s c out ↔ out = (collect step s).runFrom c
  refine ⟨fun h => ?_, ?_⟩
  · induction h with
    | fails hs => exact (runFrom_collect_of_error (comesTo_lift.mp hs).symm).symm
    | declines hs => exact (runFrom_collect_of_none (comesTo_lift.mp hs).symm).symm
    | goesOn hs _ ih =>
      obtain ⟨front, hne, rfl⟩ := (hstep _).exists_front (comesTo_lift.mp hs).symm
      exact (runFrom_collect_of_some hne (comesTo_lift.mp hs).symm ih.symm).symm
  · rintro rfl
    -- on the number of unread tokens, which is smaller after each round but the last one
    induction hn : c.unread using Nat.strongRecOn generalizing s c with
    | ind n ih =>
      rcases hrun : (step s).runFrom c with ⟨e | _ | ⟨a, s'⟩, c'⟩
      · rw [runFrom_collect_of_error hrun]
        exact .fails hrun.symm
      · rw [runFrom_collect_of_none hrun]
        exact .declines hrun.symm
      · obtain ⟨front, hne, rfl⟩ := (hstep s).exists_front hrun
        have hlt : c'.unread < n := by
          have := List.length_pos_iff.mpr hne
          rw [← hn, Cursor.unread_putBack]
          omega
        rw [runFrom_collect_of_some hne hrun rfl]
        exact .goesOn hrun.symm (ih _ hlt s' c' rfl)

/-- A loop that goes round until a round declines. -/
def loop (l : Loop) (s : l.State) : Unguarded (List l.Item) := repeated (fun s => l.round s) s

/-- Each loop of the parser is one without the guard. -/
theorem loop_eq (l : Loop) (s : l.State) : loop l s = l.parser s := repeated_eq l.isRound s

/-! ## Rules -/

/-- Something between parentheses. -/
def parenthesized (p : Unguarded α) : Unguarded α := do
  symbol .leftParen
  let a ← p
  symbol .rightParen
  return a

/-- Names between parentheses. -/
def names : Unguarded (List String) := parenthesized do
  let first ← identifier
  return first :: (← loop .names ())

/-- A table name with columns. -/
def tableReference : Unguarded TableReference := do
  return { table := ← identifier, columns := ← names }

/-- The declaration of a column. -/
def column : Unguarded Column := do
  return { name := ← identifier, type := ← typeSpec, modifiers := ← loop .modifiers () }

/-- An unnamed primary key. -/
def primaryKey : Unguarded (List String) := do
  keyword .primary
  keyword .key
  names

/-- An unnamed foreign key. -/
def foreignKey : Unguarded ForeignKey := do
  keyword .foreign
  keyword .key
  let columns ← names
  keyword .references
  return { columns, references := ← tableReference }

/-- A named constraint. -/
def namedConstraint : Unguarded NamedConstraint := do
  keyword .constraint
  let name ← identifier
  let kind ← constraintKind
  keyword .key
  let columns ← names
  if ← consumeIf (.keyword .references) then
    return { name, kind, columns, references := some (← tableReference) }
  else
    return { name, kind, columns, references := none }

/-- A check. -/
def check : Unguarded Check := do
  keyword .check
  parenthesized do
    let column ← identifier
    keyword .in_
    let values ← parenthesized do
      let first ← checkValue
      return first :: (← loop .checkValues ())
    return { column, values }

/-- A clause of a group. -/
def clause : ClauseGroup → Unguarded Clause
  | .columns => return .column (← column)
  | .primaryKeys => return .primaryKey (← primaryKey)
  | .foreignKeys => return .foreignKey (← foreignKey)
  | .constraints => return .constraint (← namedConstraint)
  | .checks => return .check (← check)

/-- The clause after a comma, which may not belong to a group before `reached`, and its group. -/
def laterClause (reached : ClauseGroup) : Unguarded (Clause × ClauseGroup) := do
  let first ← current
  match groupOfKind? first.kind with
  | none =>
    failExpecting [.identifier "", .keyword .primary, .keyword .foreign, .keyword .constraint,
      .keyword .check]
  | some group =>
    if group.rank < reached.rank then (throw (.misplaced first) : Parser (Clause × ClauseGroup))
    else return (← clause group, group)

/-- The clauses of a table, up to the closing parenthesis. -/
def clauses : Unguarded (List Clause) := do
  let first ← clause .columns
  let others ← repeated
    (fun reached => do
      if ← consumeIf (.symbol .comma) then
        return some (← laterClause reached)
      else
        return none) .columns
  if ← currentIs (.symbol .rightParen) then
    return first :: others
  else
    failExpecting [.symbol .comma, .symbol .rightParen]

/-- A `CREATE TABLE` statement, whatever follows it. -/
def createTable : Unguarded Statement := do
  keyword .create
  keyword .table
  let ifNotExists ← ifNotExists
  let table ← identifier
  symbol .leftParen
  let clauses ← clauses
  symbol .rightParen
  return .ofClauses table ifNotExists clauses

/-- A `CREATE TABLE` statement with nothing after it. -/
def statement : Unguarded Statement := do
  let s ← createTable
  atEnd
  return s

/-- Parentheses add no loop. -/
theorem parenthesized_eq (p : Parser α) :
    parenthesized (liftM p) = liftM (Parser.parenthesized p) := by
  simp only [parenthesized, Parser.parenthesized, liftM_bind, liftM_pure]

/-- A list of names is read without the guard. -/
theorem names_eq : names = liftM Parser.names := by
  rw [Parser.names, commaSeparated_identifier_eq_loop, ← parenthesized_eq, names]
  simp only [loop_eq, liftM_bind, liftM_pure]

/-- So is a reference to a table, which ends with such a list. -/
theorem tableReference_eq : tableReference = liftM Parser.tableReference := by
  simp only [tableReference, Parser.tableReference, names_eq, liftM_bind, liftM_pure]

/-- The modifiers of a column are read without the guard. -/
theorem column_eq : column = liftM Parser.column := by
  simp only [column, Parser.column, modifiers_eq_loop, loop_eq, liftM_bind, liftM_pure]

/-- A primary key loops over its names only. -/
theorem primaryKey_eq : primaryKey = liftM Parser.primaryKey := by
  simp only [primaryKey, Parser.primaryKey, names_eq, liftM_bind]

/-- A foreign key loops over its names and those that it refers to. -/
theorem foreignKey_eq : foreignKey = liftM Parser.foreignKey := by
  simp only [foreignKey, Parser.foreignKey, names_eq, tableReference_eq, liftM_bind, liftM_pure]

theorem lift_ite (b : Prop) [Decidable b] (p q : Parser α) :
    (liftM (if b then p else q) : Unguarded α) = if b then liftM p else liftM q :=
  apply_ite _ b p q

/-- A named constraint loops over its names and those that it refers to. -/
theorem namedConstraint_eq : namedConstraint = liftM Parser.namedConstraint := by
  simp only [namedConstraint, Parser.namedConstraint, names_eq, tableReference_eq, lift_ite,
    liftM_bind, liftM_pure]

/-- The values of a check are read without the guard. -/
theorem check_eq : check = liftM Parser.check := by
  simp only [check, Parser.check, commaSeparated_checkValue_eq_loop, loop_eq, ← parenthesized_eq,
    liftM_bind, liftM_pure]

/-- A clause of any group is read without the guard. -/
theorem clause_eq (g : ClauseGroup) : clause g = liftM (Parser.clause g) := by
  cases g <;>
    simp only [clause, Parser.clause, column_eq, primaryKey_eq, foreignKey_eq, namedConstraint_eq,
      check_eq, liftM_bind, liftM_pure]

/-- So is a clause behind a comma, as all that goes ahead of it has no loop. -/
theorem laterClause_eq (reached : ClauseGroup) :
    laterClause reached = liftM (Parser.laterClause reached) := by
  rw [laterClause, Parser.laterClause, liftM_bind]
  refine bind_congr fun first => ?_
  cases groupOfKind? first.kind with
  | none => rfl
  | some g =>
    simp only [clause_eq, lift_ite, liftM_bind, liftM_pure]

/-- The clauses of a table are read without the guard, and so is each of them. -/
theorem clauses_eq : clauses = liftM Parser.clauses := by
  have hround : (fun reached => do
      if ← consumeIf (.symbol .comma) then return some (← laterClause reached) else return none) =
        fun reached => (Loop.clauses.round reached : Unguarded _) := by
    funext reached
    simp only [Loop.round, afterComma, laterClause_eq, lift_ite, liftM_bind, liftM_pure]
  have hloop : repeated (fun reached => Loop.clauses.round reached) .columns =
      (Loop.clauses.parser .columns : Unguarded _) := loop_eq .clauses .columns
  rw [clauses, hround, clauses_eq_loop]
  simp only [hloop, clause_eq, lift_ite, liftM_bind, liftM_pure]

/-- The clauses hold all loops of a statement. -/
theorem createTable_eq : createTable = liftM Parser.createTable := by
  simp only [createTable, Parser.createTable, clauses_eq, liftM_bind, liftM_pure]

/-- A statement is read without the guard. -/
theorem statement_eq : statement = liftM Parser.statement := by
  simp only [statement, Parser.statement, createTable_eq, liftM_bind, liftM_pure]

end Unguarded

/-! ## Progress and termination -/

/-- **Parsing comes to an end.** On any list of tokens, loops that nothing stops but a round that
declines give the answer that the parser gives. In every loop, a round declines where it stands or
consumes a token, even if it fails. A rule that succeeds consumes a token, and so do the modifiers
of a column unless there are none. And no loop consumes the last token: with more tokens behind it,
the loop gives the same answer and stops at the same token. -/
theorem parsing_comes_to_an_end (tokens : List Token) :
    (∀ out, Unguarded.statement.ComesTo (.ofTokens tokens) out ↔
        out = statement.runFrom (.ofTokens tokens)) ∧
      (∀ (l : Loop) (s : l.State) (c : Cursor), (l.round s).runFrom c = (.ok none, c) ∨
        ((l.round s).runFrom c).2.unread < c.unread) ∧
      (∀ (r : Rule) (c c' : Cursor) (a : r.Result), r.parser.runFrom c = (.ok a, c') →
        c'.unread < c.unread) ∧
      (∀ (c c' : Cursor) (ms : List Modifier), modifiers.runFrom c = (.ok ms, c') →
        ms = [] ∧ c' = c ∨ c'.unread < c.unread) ∧
      ∀ (l : Loop) (s : l.State) (c d : Cursor), (l.parser s).runFrom (c.followedBy d) =
        (((l.parser s).runFrom c).1, ((l.parser s).runFrom c).2.followedBy d) := by
  refine ⟨?_, fun l s => (l.isRound s).declines_or_consumes, fun r _ _ _ h => r.consumes h,
    fun _ _ _ h => runFrom_modifiers h, fun l s => l.leavesLast s⟩
  intro out
  rw [Unguarded.statement_eq, Unguarded.comesTo_lift]

/-- `CREATE TABLE t (a int NOT NULL` up to an end of input, and a parenthesis that comes too late.
-/
def cutOff : List Token :=
  ([.keyword .create, .keyword .table, .identifier "t", .symbol .leftParen, .identifier "a",
    .identifier "int", .keyword .not, .keyword .null, .endOfInput, .symbol .rightParen] :
      List TokenKind).map (⟨·, "", .start⟩)

/-- The column and its modifier are read, and then the loops end before the end of input. -/
theorem parsing_comes_to_an_end_cut_off :
    Unguarded.statement.ComesTo (.ofTokens cutOff)
        (.error (.expected [.symbol .comma, .symbol .rightParen] .soleEnd),
          .ofTokens (cutOff.drop 8)) ∧
      column.runFrom (.ofTokens (cutOff.drop 4)) =
        (.ok ⟨"a", ⟨"int", []⟩, [.notNull]⟩, .ofTokens (cutOff.drop 8)) ∧
      (Cursor.ofTokens (cutOff.drop 8)).unread < (Cursor.ofTokens (cutOff.drop 4)).unread ∧
      modifiers.runFrom (.ofTokens (cutOff.drop 6)) = (.ok [.notNull], .ofTokens (cutOff.drop 8)) ∧
      (Cursor.ofTokens (cutOff.drop 8)).unread < (Cursor.ofTokens (cutOff.drop 6)).unread := by
  obtain ⟨hstatement, -, hrule, hmodifiers, -⟩ := parsing_comes_to_an_end cutOff
  have hcolumn : column.runFrom (.ofTokens (cutOff.drop 4)) =
      (.ok ⟨"a", ⟨"int", []⟩, [.notNull]⟩, .ofTokens (cutOff.drop 8)) := by
    decide +kernel
  have hmodifier : modifiers.runFrom (.ofTokens (cutOff.drop 6)) =
      (.ok [.notNull], .ofTokens (cutOff.drop 8)) := by
    decide +kernel
  refine ⟨(hstatement _).mpr (by decide +kernel), hcolumn, hrule .column _ _ _ hcolumn, hmodifier, ?_⟩
  exact (hmodifiers _ _ _ hmodifier).resolve_left fun h => by cases h.1

end TableSchema.Ddl
