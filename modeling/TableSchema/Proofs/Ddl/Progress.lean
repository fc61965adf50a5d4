import TableSchema.Proofs.Ddl.CursorOperations

/-!
# Progress

A rule of the grammar that succeeds has consumed a token, since nothing that it reads is spelled without
one (`Rule.consumes`). The modifiers of a column are the exception: there may be none.

The parser goes round in four loops. A round decides by the current token whether it declines, and if it
does not, it consumes that token, whatever comes of it then (`Loop.isRound`). So a loop goes round no
more often than there are tokens.

The last token of a list stays under the cursor even if it is consumed, so the cursor does not show
whether it was. It would show if the last token had others behind it. A parser *leaves the last token* if
it answers the same then and stops where it stopped before, which is not behind that token. All loops do
(`Loop.leavesLast`): their runs are decided by the kinds of the tokens up to the one where they
stop.
-/

namespace TableSchema.Ddl

open Ddl.Parser Grammar

/-! ## Unread tokens -/

namespace Cursor

/-- The number of tokens from the cursor on. -/
def unread (c : Cursor) : Nat := c.toList.length

@[simp] theorem unread_putBack (c : Cursor) (front : List Token) :
    (c.putBack front).unread = front.length + c.unread := by
  rw [unread, toList_putBack, List.length_append, unread]

/-- A token that is no end of input is consumed for good. -/
theorem unread_advance_lt {c : Cursor} (h : c.current.isEnd = false) :
    c.advance.unread < c.unread := by
  have hc := congrArg unread (eq_putBack_advance h)
  rw [unread_putBack, List.length_singleton] at hc
  omega

/-- The tokens of a cursor with those of another one behind them. -/
def followedBy (c d : Cursor) : Cursor := d.putBack c.toList

theorem current_followedBy (c d : Cursor) : (c.followedBy d).current = c.current := by
  obtain ⟨rest, h⟩ := c.exists_toList
  rw [followedBy, h, current_putBack_cons]

theorem followedBy_putBack (c d : Cursor) (front : List Token) :
    (c.putBack front).followedBy d = (c.followedBy d).putBack front := by
  rw [followedBy, toList_putBack, putBack_append, followedBy]

end Cursor

section Progress

variable {α : Type} {p : Parser α}

/-- A run that succeeds leaves fewer tokens unread. -/
def Consumes (p : Parser α) : Prop :=
  ∀ {c c' : Cursor} {a : α}, p.runFrom c = (.ok a, c') → c'.unread < c.unread

/-- A parser whose values all have a token to their spellings. -/
theorem Reads.consumes {S : α → List TokenKind → Prop} {F : α → TokenKind → Prop}
    (hp : Reads p S F) (hS : ∀ a, ¬ S a []) : Consumes p := by
  intro c c' a h
  obtain ⟨front, rfl, -, hw⟩ := hp.sound h
  have hne : front ≠ [] := by
    rintro rfl
    exact hS a hw
  have := List.length_pos_iff.mpr hne
  rw [Cursor.unread_putBack]
  omega

/-- No run puts tokens back. -/
theorem DecidedByKinds.exists_front (hp : DecidedByKinds p) {c c' : Cursor}
    {answer : Except ParseError α} (h : p.runFrom c = (answer, c')) :
    ∃ front, c = c'.putBack front := by
  obtain ⟨front, c₁, answer₁, rfl, halike⟩ := hp c
  rw [halike c₁ front rfl rfl] at h
  obtain ⟨-, rfl⟩ := Prod.mk.inj h
  exact ⟨front, rfl⟩

theorem DecidedByKinds.unread_le (hp : DecidedByKinds p) (c : Cursor) :
    (p.runFrom c).2.unread ≤ c.unread := by
  obtain ⟨front, hc⟩ := hp.exists_front (c := c) rfl
  rw [hc, Cursor.unread_putBack, ← hc]
  exact Nat.le_add_left ..

/-- More tokens behind the last one change neither the answer nor where the parser stops. So the
last token is not consumed: it would not be ahead any more then. -/
def LeavesLast (p : Parser α) : Prop :=
  ∀ c d : Cursor, p.runFrom (c.followedBy d) = ((p.runFrom c).1, (p.runFrom c).2.followedBy d)

/-- A run that is decided by the tokens up to the one where it stops never sees what is behind. -/
theorem DecidedByKinds.leavesLast (hp : DecidedByKinds p) : LeavesLast p := by
  intro c d
  obtain ⟨front, c', answer, rfl, halike⟩ := hp c
  have hkind : (c'.followedBy d).current.kind = c'.current.kind := by
    rw [Cursor.current_followedBy]
  rw [Cursor.followedBy_putBack, halike _ front rfl hkind, halike c' front rfl rfl,
    Cursor.current_followedBy]

end Progress

/-! ## Rules -/

/-- The rules of the grammar, the modifiers of a column excepted. -/
inductive Rule where
  | identifier
  | number
  | names
  | tableReference
  | typeSpec
  | bareDefault
  | defaultValue
  | column
  | primaryKey
  | foreignKey
  | namedConstraint
  | checkValue
  | check
  | clauses
  | createTable
  | statement

namespace Rule

/-- What a rule reads. -/
def Result : Rule → Type
  | identifier | number => String
  | names | primaryKey => List String
  | tableReference => TableReference
  | typeSpec => TypeSpec
  | bareDefault | defaultValue => DefaultValue
  | column => Column
  | foreignKey => ForeignKey
  | namedConstraint => NamedConstraint
  | checkValue => CheckValue
  | check => Check
  | clauses => List Clause
  | createTable | statement => Statement

/-- The parser of a rule. -/
def parser : (r : Rule) → Parser r.Result
  | identifier => Parser.identifier
  | number => Parser.number
  | names => Parser.names
  | tableReference => Parser.tableReference
  | typeSpec => Parser.typeSpec
  | bareDefault => Parser.bareDefault
  | defaultValue => Parser.defaultValue
  | column => Parser.column
  | primaryKey => Parser.primaryKey
  | foreignKey => Parser.foreignKey
  | namedConstraint => Parser.namedConstraint
  | checkValue => Parser.checkValue
  | check => Parser.check
  | clauses => Parser.clauses
  | createTable => Parser.createTable
  | statement => Parser.statement

end Rule

theorem not_clauseSpelling_nil (c : Clause) : ¬ ClauseSpelling c [] := by
  intro h
  obtain ⟨k, v, hw, -⟩ := groupOfKind?_of_spelling h
  cases hw

theorem not_commaSeparated_nil {α : Type} {S : α → List TokenKind → Prop} (hS : ∀ a, ¬ S a [])
    (as : List α) : ¬ CommaSeparated S as [] := by
  generalize hw : ([] : List TokenKind) = w
  intro h
  cases h with
  | single h => exact hS _ (hw ▸ h)
  | more _ _ => simp at hw

theorem consumes_createTable : Consumes createTable :=
  reads_createTable.consumes fun _ ⟨_, _, _, _, _, h⟩ => by simp at h

/-- A whole statement consumes what its `CREATE TABLE` consumes, and perhaps the end of input. -/
theorem consumes_statement : Consumes statement := by
  intro c c' s h
  obtain ⟨s', c₁, hs, hrest⟩ := runFrom_bind_eq_ok h
  obtain ⟨_, c₂, hend, hpure⟩ := runFrom_bind_eq_ok hrest
  obtain rfl : c₂ = c' := congrArg Prod.snd hpure
  have hadvance : c₂ = c₁.advance := by
    obtain ⟨_, h⟩ | h := Operation.runFrom_of_takesOne takesOne_atEnd c₁ <;> rw [h] at hend
    · exact (congrArg Prod.snd hend).symm
    · cases hend
  calc c₂.unread ≤ c₁.unread := hadvance ▸ c₁.toList_advance_suffix.length_le
    _ < c.unread := consumes_createTable hs

/-- A rule that succeeds has consumed a token. -/
theorem Rule.consumes (r : Rule) : Consumes r.parser := by
  cases r with
  | identifier => exact reads_identifier.consumes fun _ h => by cases h
  | number => exact reads_number.consumes fun _ h => by cases h
  | names => exact reads_names.consumes fun _ ⟨_, _, h⟩ => by cases h
  | tableReference => exact reads_tableReference.consumes fun _ ⟨_, _, h⟩ => by cases h
  | typeSpec => exact reads_typeSpec.consumes fun _ ⟨_, _, h⟩ => by cases h
  | bareDefault => exact reads_bareDefault.consumes fun _ h => by cases h
  | defaultValue =>
    refine reads_defaultValue.consumes fun _ h => ?_
    obtain ⟨_, -, h⟩ | h := h <;> cases h
  | column => exact reads_column.consumes fun _ ⟨_, _, _, _, h⟩ => by simp at h
  | primaryKey => exact reads_primaryKey.consumes fun _ => not_clauseSpelling_nil _
  | foreignKey => exact reads_foreignKey.consumes fun _ => not_clauseSpelling_nil _
  | namedConstraint => exact reads_namedConstraint.consumes fun _ => not_clauseSpelling_nil _
  | checkValue => exact reads_checkValue.consumes fun _ h => by cases h
  | check => exact reads_check.consumes fun _ => not_clauseSpelling_nil _
  | clauses =>
    exact reads_clauses.consumes fun _ h => not_commaSeparated_nil not_clauseSpelling_nil _ h.1
  | createTable => exact consumes_createTable
  | statement => exact consumes_statement

/-- Where modifiers are found, a token is consumed. -/
theorem runFrom_modifiers {c c' : Cursor} {ms : List Modifier}
    (h : modifiers.runFrom c = (.ok ms, c')) : ms = [] ∧ c' = c ∨ c'.unread < c.unread := by
  obtain ⟨_ | ⟨t, front⟩, rfl, -, hw⟩ := reads_modifiers.sound h
  · refine .inl ⟨?_, rfl⟩
    generalize hnil : ([] : List Token).map Token.kind = w at hw
    cases hw with
    | nil => rfl
    | cons hm _ => cases hm <;> cases hnil
  · refine .inr ?_
    rw [Cursor.unread_putBack, List.length_cons]
    omega

/-! ## Loops -/

/-- The loops of the parser. -/
inductive Loop where
  /-- the clauses of a table after the first one -/
  | clauses
  /-- the modifiers of a column -/
  | modifiers
  /-- the values of a check after the first one -/
  | checkValues
  /-- the names of a list after the first one -/
  | names

/-- A comma and what comes behind it, or nothing where there is no comma. -/
def afterComma {β : Type} (item : Parser (Option β)) : Parser (Option β) := do
  if ← consumeIf (.symbol .comma) then item else return none

namespace Loop

/-- What a round hands on to the next one: for clauses the group that was reached. -/
abbrev State : Loop → Type
  | clauses => ClauseGroup
  | modifiers | checkValues | names => Unit

/-- What a round reads. -/
abbrev Item : Loop → Type
  | clauses => Clause
  | modifiers => Modifier
  | checkValues => CheckValue
  | names => String

/-- A round of a loop, or nothing where the loop ends. -/
def round : (l : Loop) → l.State → Parser (Option (l.Item × l.State))
  | clauses, reached => afterComma do return some (← laterClause reached)
  | modifiers, () => do return (← modifier?).map (·, ())
  | checkValues, () => afterComma do return some (← checkValue, ())
  | names, () => afterComma do return some (← identifier, ())

/-- A loop, from some state on. -/
def parser (l : Loop) (s : l.State) : Parser (List l.Item) := collect l.round s

end Loop

/-! The loops are those that the rules are made of. -/

theorem clauses_eq_loop :
    Parser.clauses = (do
      let first ← clause .columns
      let others ← Loop.clauses.parser .columns
      if ← currentIs (.symbol .rightParen) then
        return first :: others
      else
        failExpecting [.symbol .comma, .symbol .rightParen]) := rfl

theorem modifiers_eq_loop : Parser.modifiers = Loop.modifiers.parser () := rfl

theorem commaSeparated_checkValue_eq_loop :
    commaSeparated checkValue = (do
      let first ← checkValue
      let others ← Loop.checkValues.parser ()
      return first :: others) := rfl

theorem commaSeparated_identifier_eq_loop :
    commaSeparated identifier = (do
      let first ← identifier
      let others ← Loop.names.parser ()
      return first :: others) := rfl

/-! ### Rounds -/

section Rounds

variable {α β : Type} {p : Parser (Option α)}

/-- A round of a loop: the current token decides whether it declines, and if it does not, a token is
consumed in any case. -/
structure IsRound (p : Parser (Option α)) : Prop where
  /-- runs are decided by the kinds of the tokens up to the one where they stop -/
  decided : DecidedByKinds p
  /-- a run that declines is one that stays, and all others consume, even if they fail -/
  declines_or_consumes : ∀ c : Cursor,
    p.runFrom c = (.ok none, c) ∨ (p.runFrom c).2.unread < c.unread

/-- A round that goes on has consumed something. -/
theorem IsRound.exists_front (hp : IsRound p) {c c' : Cursor} {a : α}
    (h : p.runFrom c = (.ok (some a), c')) : ∃ front, front ≠ [] ∧ c = c'.putBack front := by
  obtain ⟨front, rfl⟩ := hp.decided.exists_front h
  refine ⟨front, ?_, rfl⟩
  rintro rfl
  obtain hstay | hlt := hp.declines_or_consumes (c'.putBack [])
  · cases h.symm.trans hstay
  · rw [h] at hlt
    exact Nat.lt_irrefl _ hlt

/-- A round that consumes the current token and goes on with the branch of its kind, and that
declines where the kind has no branch. -/
theorem IsRound.dispatch {B : TokenKind → Option (Parser (Option α))}
    (hrun : ∀ c, p.runFrom c =
      (B c.current.kind).elim ((pure none : Parser (Option α)).runFrom c) (·.runFrom c.advance))
    (hend : B .endOfInput = none) (hbranch : ∀ {k r}, B k = some r → DecidedByKinds r) :
    IsRound p where
  decided := .dispatch hrun hend hbranch (decidedByKinds_pure none)
  declines_or_consumes := by
    intro c
    rw [hrun]
    rcases hb : B c.current.kind with _ | r
    · exact .inl rfl
    · have hcur := Token.isEnd_eq_false_of_branch hend hb
      refine .inr ?_
      calc (r.runFrom c.advance).2.unread ≤ c.advance.unread := (hbranch hb).unread_le c.advance
        _ < c.unread := Cursor.unread_advance_lt hcur

/-- A comma with an item is a round: the comma alone is progress. -/
theorem IsRound.afterComma {item : Parser (Option α)} (hitem : DecidedByKinds item) :
    IsRound (afterComma item) := by
  refine .dispatch (B := fun k => if k = .symbol .comma then some item else none)
    (runFrom_ifConsumed (isFixed_symbol .comma) item (pure none)) rfl ?_
  intro k r hb
  obtain ⟨-, hr⟩ := Option.ite_none_right_eq_some.mp hb
  cases hr
  exact hitem

theorem IsRound.map (f : α → β) (hp : IsRound p) : IsRound (do return (← p).map f) where
  decided := hp.decided.map (·.map f)
  declines_or_consumes := by
    intro c
    rw [runFrom_bind]
    obtain h | h := hp.declines_or_consumes c
    · exact .inl (by rw [h]; rfl)
    · refine .inr ?_
      rcases hrun : p.runFrom c with ⟨_ | o, c'⟩ <;> rw [hrun] at h <;> exact h

end Rounds

theorem isRound_modifier? : IsRound modifier? :=
  .dispatch runFrom_modifier? rfl fun hb => (candid_modifierBranch hb).decided

namespace Loop

/-- Every turn of a loop of the grammar declines or consumes. -/
theorem isRound (l : Loop) (s : l.State) : IsRound (l.round s) := by
  cases l with
  | clauses => exact .afterComma ((predictive_laterClause s).decided.map some)
  | modifiers => exact isRound_modifier?.map (·, ())
  | checkValues => exact .afterComma (candid_checkValue.decided.map fun v => some (v, ()))
  | names => exact .afterComma (candid_identifier.decided.map fun name => some (name, ()))

/-- No loop consumes the last token. -/
theorem leavesLast (l : Loop) (s : l.State) : LeavesLast (l.parser s) :=
  (DecidedByKinds.collect (fun s => (l.isRound s).decided) s).leavesLast

end Loop

end TableSchema.Ddl
