import Mathlib.Data.List.Basic
import TableSchema.Ddl.StatementParser
import TableSchema.Proofs.Ddl.Reads

/-!
# The parser accepts the grammar

Each rule of the parser reads the relation that the grammar gives for it. The rules are put
together as the parser is, so what remains for each is to match two descriptions of one relation,
and to say which tokens may follow:

* after the *declaration of a column* and after a *clause*, a comma or a closing parenthesis;
* after the *clauses*, the closing parenthesis;
* after a statement, anything.

The parser keeps the clauses in order by comparing the ranks of their groups, where the grammar has
one group after the other. The two agree because a list whose ranks never fall is the
concatenation of its groups.
-/

namespace TableSchema.Ddl

open Ddl.Parser Grammar

/-! ## Columns -/

/-- The tokens that end a clause. -/
def EndsClause (k : TokenKind) : Prop := k = .symbol .comma ∨ k = .symbol .rightParen

/-- A list of names is read between its parentheses, whatever follows it. -/
theorem reads_names : Reads names Names Anything :=
  reads_parenthesized (reads_commaSeparated reads_identifier) fun _ => by simp

/-- The arguments of a type without their parentheses. -/
inductive BareArguments : List String → List TokenKind → Prop where
  | size (n : String) : BareArguments [n] [.number n]
  | precision (n m : String) : BareArguments [n, m] [.number n, .symbol .comma, .number m]

/-- The sizes of a type stand between parentheses, or there are none. -/
theorem typeArguments_iff {arguments : List String} {w : List TokenKind} :
    TypeArguments arguments w ↔
      (∃ v, BareArguments arguments v ∧ w = .symbol .leftParen :: v ++ [.symbol .rightParen]) ∨
        arguments = [] ∧ w = [] := by
  refine ⟨?_, ?_⟩
  · intro h
    cases h with
    | none => exact .inr ⟨rfl, rfl⟩
    | size n => exact .inl ⟨_, .size n, rfl⟩
    | precision n m => exact .inl ⟨_, .precision n m, rfl⟩
  · rintro (⟨v, hv, rfl⟩ | ⟨rfl, rfl⟩)
    · cases hv with
      | size n => exact .size n
      | precision n m => exact .precision n m
    · exact .none

/-- Up to two sizes are read, and a comma behind the first one goes on to the second. -/
theorem reads_typeArguments :
    Reads typeArguments BareArguments (fun _ k => k ≠ .symbol .comma) := by
  refine (reads_number.andThen fun size => Reads.ifConsumed (isFixed_symbol .comma)
    (reads_number.map (fun second => [size, second]) fun _ _ _ => trivial)
    (Reads.pure [size]) ?_).respell fun arguments w => ?_
  · rintro a v k ⟨-, rfl⟩ hk
    exact hk
  · refine ⟨?_, ?_⟩
    · rintro ⟨size, _, _, rfl, ⟨_, ⟨second, rfl, rfl⟩, rfl⟩ | ⟨rfl, rfl⟩, rfl⟩
      · exact .precision size second
      · exact .size size
    · intro h
      cases h with
      | size n => exact ⟨n, _, [], rfl, .inr ⟨rfl, rfl⟩, rfl⟩
      | precision n m => exact ⟨n, _, _, rfl, .inl ⟨_, ⟨m, rfl, rfl⟩, rfl⟩, rfl⟩

/-- A type is read before anything that does not open its arguments. -/
theorem reads_typeSpec :
    Reads typeSpec (fun t w => ∃ v, TypeArguments t.arguments v ∧ w = .identifier t.name :: v)
      (fun _ k => k ≠ .symbol .leftParen) := by
  refine (reads_identifier.andThen fun name => Reads.ifConsumed (isFixed_symbol .leftParen)
    (reads_typeArguments.bind (fun arguments => (reads_symbol .rightParen).andThen fun _ =>
      Reads.pure ({ name, arguments } : TypeSpec)) ?_)
    (Reads.pure ({ name, arguments := [] } : TypeSpec)) ?_).respell fun t w => ?_
  · -- the arguments are followed by their closing parenthesis, which is no comma
    rintro _ b _ k ⟨_, _, _, rfl, -, rfl⟩ - h
    cases h
  · rintro a v k ⟨-, rfl⟩ hk
    exact hk
  · obtain ⟨name, arguments⟩ := t
    simp only [typeArguments_iff]
    refine ⟨?_, ?_⟩
    · rintro ⟨_, _, _, rfl, ⟨_, ⟨_, u, _, hu, ⟨_, _, _, rfl, ⟨ht, rfl⟩, rfl⟩, rfl⟩, rfl⟩ |
        ⟨ht, rfl⟩, rfl⟩ <;> cases ht
      · exact ⟨_, .inl ⟨u, hu, rfl⟩, by simp⟩
      · exact ⟨[], .inr ⟨rfl, rfl⟩, rfl⟩
    · rintro ⟨_, ⟨u, hu, rfl⟩ | ⟨rfl, rfl⟩, rfl⟩
      · exact ⟨name, _, _, rfl,
          .inl ⟨_, ⟨arguments, u, _, hu, ⟨(), _, _, rfl, ⟨rfl, rfl⟩, rfl⟩, rfl⟩, rfl⟩, rfl⟩
      · exact ⟨name, _, [], rfl, .inr ⟨rfl, rfl⟩, rfl⟩

/-! ### Modifiers -/

/-- The kinds that give a default value are those that spell it. -/
theorem defaultOfKind?_eq_some {k : TokenKind} {v : DefaultValue} :
    defaultOfKind? k = some v ↔ BareDefault v [k] := by
  refine ⟨?_, ?_⟩
  · intro h
    unfold defaultOfKind? at h
    split at h <;> cases h
    · exact .identifier _
    · exact .number _
    · exact .string _
    · exact .null
  · intro h
    cases h <;> rfl

/-- A default value is one token. -/
theorem bareDefault_singleton {v : DefaultValue} {w : List TokenKind} (h : BareDefault v w) :
    ∃ k, w = [k] ∧ defaultOfKind? k = some v := by
  cases h <;> exact ⟨_, rfl, rfl⟩

/-- A default value is taken from one token of four kinds. -/
theorem takesOne_bareDefault :
    TakesOne bareDefault defaultOfKind?
      [.identifier "", .number "", .string "", .keyword .null] := by
  intro c
  rcases hv : defaultOfKind? c.current.kind <;>
    simp only [bareDefault, runFrom_bind, runFrom_current, hv, runFrom_next, runFrom_pure,
      runFrom_failExpecting]

theorem reads_bareDefault : Reads bareDefault BareDefault Anything := by
  refine (takesOne_bareDefault.reads rfl).respell fun v w => ?_
  refine ⟨?_, ?_⟩
  · rintro ⟨k, hk, rfl⟩
    exact defaultOfKind?_eq_some.mp hk
  · intro h
    obtain ⟨k, rfl, hk⟩ := bareDefault_singleton h
    exact ⟨k, hk, rfl⟩

/-- A default value may stand between parentheses. -/
theorem reads_defaultValue :
    Reads defaultValue (fun v w => Parenthesized BareDefault v w ∨ BareDefault v w) Anything := by
  refine (Reads.ifConsumed (isFixed_symbol .leftParen)
    (reads_bareDefault.andThen fun value => (reads_symbol .rightParen).andThen fun _ =>
      Reads.pure value) reads_bareDefault ?_).respell fun v w => ?_
  · intro v w k hw _
    cases hw <;> simp
  · refine or_congr ?_ Iff.rfl
    refine ⟨?_, ?_⟩
    · rintro ⟨_, ⟨_, u, _, hu, ⟨_, _, _, rfl, ⟨rfl, rfl⟩, rfl⟩, rfl⟩, rfl⟩
      exact ⟨u, hu, by simp⟩
    · rintro ⟨u, hu, rfl⟩
      exact ⟨_, ⟨v, u, _, hu, ⟨(), _, _, rfl, ⟨rfl, rfl⟩, rfl⟩, rfl⟩, rfl⟩

/-- How a modifier goes on after its first token. -/
def modifierBranch : TokenKind → Option (Parser (Option Modifier))
  | .keyword .not => some (do
    keyword .null
    return some .notNull)
  | .keyword .notNull => some (return some .notNull)
  | .keyword .default => some (return some (.default (← defaultValue)))
  | .keyword .autoIncrement => some (return some .autoIncrement)
  | _ => none

/-- The current token decides which modifier comes next, or that none does. -/
theorem runFrom_modifier? (c : Cursor) :
    modifier?.runFrom c = (modifierBranch c.current.kind).elim
      ((return none : Parser (Option Modifier)).runFrom c) (·.runFrom c.advance) := by
  simp only [modifier?, runFrom_bind, runFrom_current]
  generalize c.current.kind = k
  unfold modifierBranch
  split <;> simp only [runFrom_bind, runFrom_next, Option.elim]

/-- Behind its first token, a modifier is read to its end. -/
theorem reads_modifierBranch {k : TokenKind} {r : Parser (Option Modifier)}
    (h : modifierBranch k = some r) :
    Reads r (fun o v => ∃ m, o = some m ∧ ModifierSpelling m (k :: v)) Anything := by
  unfold modifierBranch at h
  split at h <;> cases h
  · refine ((reads_keyword .null).andThen fun _ =>
      Reads.pure (some Modifier.notNull)).respell fun o v => ?_
    refine ⟨?_, ?_⟩
    · rintro ⟨_, _, _, rfl, ⟨rfl, rfl⟩, rfl⟩
      exact ⟨_, rfl, .notNull⟩
    · rintro ⟨m, rfl, hm⟩
      cases hm
      exact ⟨(), _, [], rfl, ⟨rfl, rfl⟩, rfl⟩
  · refine (Reads.pure (some Modifier.notNull)).respell fun o v => ?_
    refine ⟨?_, ?_⟩
    · rintro ⟨rfl, rfl⟩
      exact ⟨_, rfl, .notNullWord⟩
    · rintro ⟨m, rfl, hm⟩
      cases hm
      exact ⟨rfl, rfl⟩
  · refine (reads_defaultValue.map (G := Anything) (fun v => some (Modifier.default v))
      fun _ _ _ => trivial).respell fun o v => ?_
    refine ⟨?_, ?_⟩
    · rintro ⟨d, hd | hd, rfl⟩
      · exact ⟨_, rfl, .parenthesizedDefault hd⟩
      · exact ⟨_, rfl, .default hd⟩
    · rintro ⟨m, rfl, hm⟩
      cases hm with
      | default hd => exact ⟨_, .inr hd, rfl⟩
      | parenthesizedDefault hd => exact ⟨_, .inl hd, rfl⟩
  · refine (Reads.pure (some Modifier.autoIncrement)).respell fun o v => ?_
    refine ⟨?_, ?_⟩
    · rintro ⟨rfl, rfl⟩
      exact ⟨_, rfl, .autoIncrement⟩
    · rintro ⟨m, rfl, hm⟩
      cases hm
      exact ⟨rfl, rfl⟩

/-- The first token of a modifier is one that announces it. -/
theorem modifierBranch_of_spelling {m : Modifier} {w : List TokenKind} (h : ModifierSpelling m w) :
    ∃ k v r, w = k :: v ∧ modifierBranch k = some r := by
  cases h <;> exact ⟨_, _, _, rfl, rfl⟩

/-- One modifier, or nothing before a token that starts none. -/
theorem reads_modifier? :
    Reads (do return (← modifier?).map (·, ()))
      (StepSpelling (fun _ m _ w => ModifierSpelling m w) ())
      (StepFollows (fun _ => True) fun k => modifierBranch k = none) := by
  have hmodifier : Reads modifier? _ fun o k => o = none → modifierBranch k = none :=
    Reads.dispatch runFrom_modifier? rfl
      (fun hb => (reads_modifierBranch hb).congr (fun _ _ => Iff.rfl) fun _ _ _ => trivial)
      (Reads.pure none) (by rintro _ _ k ⟨rfl, rfl⟩ hk; exact hk rfl)
  refine (hmodifier.map (·.map (·, ())) ?_).respell ?_
  · rintro (_ | m) k hk ho
    · exact hk
    · cases ho
  · rintro (_ | ⟨m, ⟨⟩⟩) w
    · refine ⟨?_, ?_⟩
      · rintro ⟨_ | m, h | ⟨-, rfl⟩, ho⟩
        · obtain ⟨_, _, _, _, ⟨_, h, -⟩, -⟩ := h
          cases h
        · rfl
        · cases ho
        · cases ho
      · rintro rfl
        exact ⟨none, .inr ⟨rfl, rfl⟩, rfl⟩
    · refine ⟨?_, ?_⟩
      · rintro ⟨o, ⟨k, r, v, hb, ⟨m', rfl, hm⟩, rfl⟩ | ⟨rfl, -⟩, ho⟩
        · cases ho
          exact hm
        · cases ho
      · intro hm
        obtain ⟨k, v, r, rfl, hb⟩ := modifierBranch_of_spelling hm
        exact ⟨some m, .inl ⟨k, r, v, hb, ⟨m, rfl, hm⟩, rfl⟩, rfl⟩

/-- Modifiers come one after the other, with nothing between them. -/
theorem modifiers_iff_repeated {ms : List Modifier} {w : List TokenKind} :
    Modifiers ms w ↔ Repeated (fun (_ : Unit) m _ w => ModifierSpelling m w) () ms w := by
  refine ⟨?_, ?_⟩
  · intro h
    induction h with
    | nil => exact .nil
    | cons hm _ ih => exact .cons hm ih
  · intro h
    generalize () = s at h
    induction h with
    | nil => exact .nil
    | cons hm _ ih => exact .cons hm ih

/-- Modifiers are read up to a token that announces none. -/
theorem reads_modifiers :
    Reads modifiers Modifiers (fun _ k => modifierBranch k = none) := by
  refine (reads_collect (F := fun _ => True) (fun hm => ?_) (fun _ => trivial)
    (fun _ => reads_modifier?) ()).respell fun ms w => modifiers_iff_repeated.symm
  obtain ⟨k, v, r, rfl, -⟩ := modifierBranch_of_spelling hm
  exact ⟨k, v, rfl, trivial⟩

/-! ### Declarations -/

/-- A token that ends a clause announces no modifier. -/
theorem EndsClause.modifierBranch_eq_none {k : TokenKind} (h : EndsClause k) :
    modifierBranch k = none := by
  rcases h with rfl | rfl <;> rfl

theorem EndsClause.ne_leftParen {k : TokenKind} (h : EndsClause k) : k ≠ .symbol .leftParen := by
  rcases h with rfl | rfl <;> simp

theorem EndsClause.ne_keyword {k : TokenKind} (h : EndsClause k) (word : Keyword) :
    k ≠ .keyword word := by
  rcases h with rfl | rfl <;> simp

/-- Modifiers never start with a parenthesis, which would be taken for arguments of the type. -/
theorem headD_ne_leftParen {ms : List Modifier} {w : List TokenKind} {k : TokenKind}
    (h : Modifiers ms w) (hk : EndsClause k) : w.headD k ≠ .symbol .leftParen := by
  cases h with
  | nil => exact hk.ne_leftParen
  | cons hm _ => cases hm <;> simp

/-- A column is read up to the comma or parenthesis behind it. -/
theorem reads_column : Reads column ColumnSpelling (fun _ => EndsClause) := by
  refine (reads_identifier.andThen fun name => reads_typeSpec.bind (fun type =>
    reads_modifiers.map (G := fun _ => EndsClause)
      (fun modifiers => ({ name, type, modifiers } : Column))
      fun _ _ hk => hk.modifierBranch_eq_none) ?_).respell fun d w => ?_
  · -- what follows the type is a modifier or the end of the clause
    rintro t d v k ⟨ms, hms, rfl⟩ hk
    exact headD_ne_leftParen hms hk
  · refine ⟨?_, ?_⟩
    · rintro ⟨name, _, _, rfl, ⟨t, _, v, ⟨u, hu, rfl⟩, ⟨ms, hms, rfl⟩, rfl⟩, rfl⟩
      exact ⟨u, v, hu, hms, by simp⟩
    · rintro ⟨u, v, hu, hms, rfl⟩
      exact ⟨d.name, _, _, rfl, ⟨d.type, _, v, ⟨u, hu, rfl⟩, ⟨d.modifiers, hms, rfl⟩, rfl⟩, by simp⟩

/-! ## Table clauses -/

/-- What is referred to is read to its closing parenthesis. -/
theorem reads_tableReference : Reads tableReference Reference Anything := by
  refine (reads_identifier.andThen fun table => reads_names.map (G := Anything)
    (fun columns => ({ table, columns } : TableReference)) fun _ _ _ => trivial).respell
    fun r w => ?_
  refine ⟨?_, ?_⟩
  · rintro ⟨table, _, _, rfl, ⟨columns, hcolumns, rfl⟩, rfl⟩
    exact ⟨_, hcolumns, rfl⟩
  · rintro ⟨v, hv, rfl⟩
    exact ⟨r.table, _, _, rfl, ⟨r.columns, hv, rfl⟩, rfl⟩

/-- A primary key is read to its closing parenthesis. -/
theorem reads_primaryKey :
    Reads primaryKey (fun columns w => ClauseSpelling (.primaryKey columns) w) Anything := by
  refine ((reads_keyword .primary).andThen fun _ => (reads_keyword .key).andThen fun _ =>
    reads_names).respell fun columns w => ?_
  refine ⟨?_, ?_⟩
  · rintro ⟨_, _, _, rfl, ⟨_, _, v, rfl, hv, rfl⟩, rfl⟩
    exact .primaryKey hv
  · rintro (_ | hv)
    exact ⟨(), _, _, rfl, ⟨(), _, _, rfl, hv, rfl⟩, rfl⟩

/-- A foreign key is read to the end of what it refers to. -/
theorem reads_foreignKey :
    Reads foreignKey (fun key w => ClauseSpelling (.foreignKey key) w) Anything := by
  refine ((reads_keyword .foreign).andThen fun _ => (reads_keyword .key).andThen fun _ =>
    reads_names.andThen fun columns => (reads_keyword .references).andThen fun _ =>
    reads_tableReference.map (G := Anything)
      (fun references => ({ columns, references } : ForeignKey)) fun _ _ _ => trivial).respell
    fun key w => ?_
  refine ⟨?_, ?_⟩
  · rintro ⟨_, _, _, rfl, ⟨_, _, _, rfl, ⟨columns, u, _, hu, ⟨_, _, v, rfl, ⟨r, hr, rfl⟩, rfl⟩,
      rfl⟩, rfl⟩, rfl⟩
    exact .foreignKey (k := { columns, references := r }) hu hr
  · intro h
    -- the clause must be a variable before the spelling can be taken apart
    generalize hc : Clause.foreignKey key = c at h
    cases h <;> cases hc
    next u v hu hv =>
    exact ⟨(), _, _, rfl, ⟨(), _, _, rfl, ⟨key.columns, u, _, hu,
      ⟨(), _, v, rfl, ⟨key.references, hv, rfl⟩, rfl⟩, rfl⟩, rfl⟩, by simp⟩

/-- The kind of constraint that a token announces. -/
def constraintKind? : TokenKind → Option ConstraintKind
  | .keyword .primary => some .primaryKey
  | .keyword .foreign => some .foreignKey
  | _ => none

/-- The kind of a constraint is taken from one keyword of two. -/
theorem takesOne_constraintKind :
    TakesOne constraintKind constraintKind? [.keyword .primary, .keyword .foreign] := by
  intro c
  have hrun := fun word => (isFixed_keyword word).runFrom_consumeIf
  by_cases hprimary : c.current.kind = .keyword .primary
  · simp [constraintKind, runFrom_bind, hrun, hprimary, constraintKind?]
  · by_cases hforeign : c.current.kind = .keyword .foreign
    · simp [constraintKind, runFrom_bind, hrun, hforeign, constraintKind?]
    · have hnone : constraintKind? c.current.kind = none := by
        unfold constraintKind?
        split <;> first | contradiction | rfl
      simp [constraintKind, runFrom_bind, hrun, hprimary, hforeign, hnone]

theorem reads_constraintKind :
    Reads constraintKind (fun kind w => w = [.keyword (constraintWord kind)]) Anything := by
  refine (takesOne_constraintKind.reads rfl).respell fun kind w => ?_
  refine ⟨?_, ?_⟩
  · rintro ⟨k, hk, rfl⟩
    unfold constraintKind? at hk
    split at hk <;> cases hk <;> rfl
  · rintro rfl
    cases kind <;> exact ⟨_, rfl, rfl⟩

/-- The references of a constraint are read before anything that does not announce them. -/
theorem reads_optionalReference {α : Type} (f : Option TableReference → α) :
    Reads
      (do
        if ← consumeIf (.keyword .references) then return f (some (← tableReference))
        else return f none)
      (fun a w => ∃ r, OptionalReference r w ∧ a = f r) fun _ => EndsClause := by
  refine (Reads.ifConsumed (isFixed_keyword .references)
    (reads_tableReference.map (fun r => f (some r)) fun _ _ _ => trivial)
    (Reads.pure (f none)) ?_).respell fun a w => ?_
  · rintro _ _ k ⟨-, rfl⟩ hk
    exact hk.ne_keyword .references
  · refine ⟨?_, ?_⟩
    · rintro (⟨v, ⟨r, hr, rfl⟩, rfl⟩ | ⟨rfl, rfl⟩)
      · exact ⟨_, .some hr, rfl⟩
      · exact ⟨_, .none, rfl⟩
    · rintro ⟨_, _ | hr, rfl⟩
      · exact .inr ⟨rfl, rfl⟩
      · exact .inl ⟨_, ⟨_, hr, rfl⟩, rfl⟩

/-- A named constraint is read up to the comma or parenthesis behind it, as it may go on with what
it refers to. -/
theorem reads_namedConstraint :
    Reads namedConstraint (fun c w => ClauseSpelling (.constraint c) w) fun _ => EndsClause := by
  refine ((reads_keyword .constraint).andThen fun _ => reads_identifier.andThen fun name =>
    reads_constraintKind.andThen fun kind => (reads_keyword .key).andThen fun _ =>
    reads_names.andThen fun columns => reads_optionalReference fun references =>
      ({ name, kind, columns, references } : NamedConstraint)).respell fun c w => ?_
  refine ⟨?_, ?_⟩
  · rintro ⟨_, _, _, rfl, ⟨name, _, _, rfl, ⟨kind, _, _, rfl, ⟨_, _, _, rfl, ⟨columns, u, v, hu,
      ⟨r, hr, rfl⟩, rfl⟩, rfl⟩, rfl⟩, rfl⟩, rfl⟩
    simpa using ClauseSpelling.constraint (c := ⟨name, kind, columns, r⟩) hu hr
  · intro h
    generalize hc : Clause.constraint c = d at h
    cases h <;> cases hc
    next u v hu hv =>
    exact ⟨(), _, _, rfl, ⟨c.name, _, _, rfl, ⟨c.kind, _, _, rfl, ⟨(), _, _, rfl,
      ⟨c.columns, u, v, hu, ⟨c.references, hv, rfl⟩, rfl⟩, rfl⟩, rfl⟩, rfl⟩, by simp⟩

/-- The value of a check that a kind carries. -/
def checkValue? : TokenKind → Option CheckValue
  | .number text => some (.number text)
  | .string text => some (.string text)
  | _ => none

/-- A value of a check is taken from one token, a number or a string. -/
theorem takesOne_checkValue : TakesOne checkValue checkValue? [.number "", .string ""] := by
  intro c
  rcases hk : c.current.kind <;>
    simp only [checkValue, runFrom_bind, runFrom_current, hk, runFrom_next, runFrom_pure,
      runFrom_failExpecting, checkValue?]

theorem reads_checkValue : Reads checkValue CheckValueSpelling Anything := by
  refine (takesOne_checkValue.reads rfl).respell fun v w => ?_
  refine ⟨?_, ?_⟩
  · rintro ⟨k, hk, rfl⟩
    unfold checkValue? at hk
    split at hk <;> cases hk
    · exact .number _
    · exact .string _
  · intro h
    cases h <;> exact ⟨_, rfl, rfl⟩

/-- A check is read to its closing parenthesis. -/
theorem reads_check : Reads check (fun c w => ClauseSpelling (.check c) w) Anything := by
  have hvalues := reads_parenthesized (reads_commaSeparated reads_checkValue) fun _ => by simp
  have hbody : Reads
      (do
        let column ← identifier
        keyword .in_
        return ({ column, values := ← parenthesized (commaSeparated checkValue) } : Check))
      CheckBody Anything := by
    refine (reads_identifier.andThen fun column => (reads_keyword .in_).andThen fun _ =>
      hvalues.map (G := Anything) (fun values => ({ column, values } : Check))
        fun _ _ _ => trivial).respell fun c w => ?_
    refine ⟨?_, ?_⟩
    · rintro ⟨column, _, _, rfl, ⟨_, _, _, rfl, ⟨values, hv, rfl⟩, rfl⟩, rfl⟩
      exact ⟨_, hv, rfl⟩
    · rintro ⟨v, hv, rfl⟩
      exact ⟨c.column, _, _, rfl, ⟨(), _, _, rfl, ⟨c.values, hv, rfl⟩, rfl⟩, rfl⟩
  refine ((reads_keyword .check).andThen fun _ =>
    reads_parenthesized hbody fun _ => trivial).respell fun c w => ?_
  · refine ⟨?_, ?_⟩
    · rintro ⟨_, _, v, rfl, hv, rfl⟩
      exact .check hv
    · rintro (_ | _ | _ | _ | hv)
      exact ⟨(), _, _, rfl, hv, rfl⟩

/-! ## Clauses in order -/

/-- Clauses of a group are read where their contents are, as long as all of them are made in the
same way. -/
theorem Reads.toClause {α : Type} {p : Parser α} {F : α → TokenKind → Prop} {g : ClauseGroup}
    (f : α → Clause) (hp : Reads p (fun a w => ClauseSpelling (f a) w) F)
    (hF : ∀ a k, EndsClause k → F a k) (hg : ∀ c : Clause, c.group = g ↔ ∃ a, c = f a) :
    Reads (do return f (← p)) (fun c w => ClauseSpelling c w ∧ c.group = g)
      (fun _ => EndsClause) := by
  refine (hp.map f hF).respell fun c w => ?_
  rw [hg]
  refine ⟨?_, ?_⟩
  · rintro ⟨a, ha, rfl⟩
    exact ⟨ha, a, rfl⟩
  · rintro ⟨hc, a, rfl⟩
    exact ⟨a, hc, rfl⟩

/-- A clause of any group is read up to the comma or parenthesis behind it. -/
theorem reads_clause (g : ClauseGroup) :
    Reads (clause g) (fun c w => ClauseSpelling c w ∧ c.group = g) (fun _ => EndsClause) := by
  cases g with
  | columns =>
    refine (reads_column.respell fun d w => ?_).toClause .column (fun _ _ hk => hk) fun c => ?_
    · exact ⟨.column, fun h => by cases h; assumption⟩
    · cases c <;> simp [Clause.group]
  | primaryKeys =>
    exact reads_primaryKey.toClause .primaryKey (fun _ _ _ => trivial) fun c => by
      cases c <;> simp [Clause.group]
  | foreignKeys =>
    exact reads_foreignKey.toClause .foreignKey (fun _ _ _ => trivial) fun c => by
      cases c <;> simp [Clause.group]
  | constraints =>
    exact reads_namedConstraint.toClause .constraint (fun _ _ hk => hk) fun c => by
      cases c <;> simp [Clause.group]
  | checks =>
    exact reads_check.toClause .check (fun _ _ _ => trivial) fun c => by
      cases c <;> simp [Clause.group]

/-- The first token of a clause tells its group. -/
theorem groupOfKind?_of_spelling {c : Clause} {w : List TokenKind} (h : ClauseSpelling c w) :
    ∃ k v, w = k :: v ∧ groupOfKind? k = some c.group := by
  cases h with
  | column hd =>
    obtain ⟨_, _, -, -, rfl⟩ := hd
    exact ⟨_, _, rfl, rfl⟩
  | primaryKey _ => exact ⟨_, _, rfl, rfl⟩
  | foreignKey _ _ => exact ⟨_, _, rfl, rfl⟩
  | constraint _ _ => exact ⟨_, _, rfl, rfl⟩
  | check _ => exact ⟨_, _, rfl, rfl⟩

/-- A clause that may come once the clauses have reached a group. -/
def LaterClause (reached : ClauseGroup) (c : Clause) (g : ClauseGroup) (w : List TokenKind) :
    Prop :=
  ClauseSpelling c w ∧ c.group = g ∧ reached.rank ≤ g.rank

/-- Behind a comma, a clause is read if its group does not come before the one reached. -/
theorem reads_laterClause (reached : ClauseGroup) :
    Reads (laterClause reached) (fun x w => LaterClause reached x.1 x.2 w)
      (fun _ => EndsClause) := by
  have hclause := fun g => (reads_clause g).map (G := fun _ => EndsClause) (·, g) fun _ _ hk => hk
  constructor
  · intro c c' x h
    simp only [laterClause, runFrom_bind _ _ c, runFrom_current] at h
    split at h
    · cases h
    · next g _ =>
      split at h
      · cases h
      · next hle =>
        obtain ⟨front, hc, hend, a, ⟨ha, hg⟩, rfl⟩ := (hclause g).sound h
        exact ⟨front, hc, hend, ha, hg, Nat.le_of_not_lt hle⟩
  · rintro c front ⟨a, g⟩ ⟨ha, hg, hle⟩ hk
    obtain ⟨k, v, hw, hgroup⟩ := groupOfKind?_of_spelling ha
    obtain ⟨t, back, rfl, rfl, -⟩ := List.map_eq_cons_iff.mp hw
    rw [hg] at hgroup
    simp only [laterClause, runFrom_bind_of_ok (runFrom_current _), Cursor.current_putBack_cons,
      hgroup, Nat.not_lt.mpr hle, if_false]
    exact (hclause g).complete ⟨a, ⟨ha, hg⟩, rfl⟩ hk

/-- Clauses whose ranks never fall, the first of which declares a column. -/
def InOrder (cs : List Clause) : Prop :=
  cs.Pairwise (fun a b => a.group.rank ≤ b.group.rank) ∧ ∀ c ∈ cs.head?, c.group = .columns

/-- Clauses that each may come where the ones before it end are clauses whose ranks never fall. -/
theorem repeated_laterClause_iff {g : ClauseGroup} {cs : List Clause} {w : List TokenKind} :
    Repeated (AfterComma LaterClause) g cs w ↔
      Repeated (AfterComma fun (_ : Unit) c _ => ClauseSpelling c) () cs w ∧
        (∀ c ∈ cs, g.rank ≤ c.group.rank) ∧
          cs.Pairwise fun a b => a.group.rank ≤ b.group.rank := by
  refine ⟨?_, ?_⟩
  · intro h
    -- each step starts from the group of the clause before it, so its rank bounds all that follow
    induction h with
    | nil => exact ⟨.nil, by simp, .nil⟩
    | cons hs _ ih =>
      obtain ⟨u, ⟨hc, rfl, hle⟩, rfl⟩ := hs
      obtain ⟨hrep, hall, hpw⟩ := ih
      refine ⟨.cons ⟨u, hc, rfl⟩ hrep, ?_, List.pairwise_cons.mpr ⟨hall, hpw⟩⟩
      exact List.forall_mem_cons.mpr ⟨hle, fun d hd => Nat.le_trans hle (hall d hd)⟩
  · rintro ⟨hrep, hall, hpw⟩
    generalize () = s at hrep
    induction hrep generalizing g with
    | nil => exact .nil
    | cons hs _ ih =>
      obtain ⟨u, hc, rfl⟩ := hs
      obtain ⟨hle, -⟩ := List.forall_mem_cons.mp hall
      obtain ⟨hall', hpw'⟩ := List.pairwise_cons.mp hpw
      exact .cons ⟨u, ⟨hc, rfl, hle⟩, rfl⟩ (ih hall' hpw')

/-- Stopping before a closing parenthesis, and failing anywhere else. -/
theorem reads_beforeParen {α : Type} (a : α) (wanted : List TokenKind) :
    Reads
      (do
        if ← currentIs (.symbol .rightParen) then return a
        else failExpecting wanted)
      (fun b w => b = a ∧ w = []) (fun _ k => k = .symbol .rightParen) := by
  have hfixed := isFixed_symbol .rightParen
  constructor
  · intro c c' b h
    simp only [runFrom_bind _ _ c, runFrom_currentIs] at h
    split at h
    · exact (Reads.pure (F := Anything) a).sound h
    · cases h
  · rintro c front b ⟨rfl, hw⟩ hk
    obtain rfl := List.map_eq_nil_iff.mp hw
    simp [runFrom_bind, hfixed.currentIs, hk]

/-- The clauses of a table are read up to the closing parenthesis, in the order of their groups. -/
theorem reads_clauses :
    Reads clauses (fun cs w => CommaSeparated ClauseSpelling cs w ∧ InOrder cs)
      (fun _ k => k = .symbol .rightParen) := by
  have hothers := reads_collect (F := EndsClause) (E := fun k => k = .symbol .rightParen)
    (S := AfterComma LaterClause) (fun ⟨u, _, hw⟩ => ⟨_, u, hw, .inl rfl⟩) .inr
    (fun reached => reads_afterComma
      (((reads_laterClause reached).map some fun _ _ hk => hk).respell fun o w =>
        ⟨fun ⟨⟨a, g⟩, hs, ho⟩ => ⟨a, g, ho, hs⟩, fun ⟨a, g, ho, hs⟩ => ⟨(a, g), hs, ho⟩⟩)
      .inr (by simp)) .columns
  refine ((reads_clause .columns).bind (fun first => hothers.bind (fun others =>
    reads_beforeParen (first :: others) [.symbol .comma, .symbol .rightParen]) ?_) ?_).respell
    fun cs w => ?_
  · rintro others _ _ k ⟨-, rfl⟩ hk
    exact hk
  · -- the first column is followed by a comma or by the closing parenthesis, which end a clause
    rintro first _ _ k ⟨others, u, _, hrep, ⟨-, rfl⟩, rfl⟩ hk
    rw [List.append_nil]
    exact hrep.headD (fun ⟨u, _, hw⟩ => ⟨_, u, hw, .inl rfl⟩) .inr hk
  · rw [commaSeparated_iff_repeated]
    refine ⟨?_, ?_⟩
    · rintro ⟨first, u, _, ⟨hfirst, hg⟩, ⟨others, v, _, hrep, ⟨rfl, rfl⟩, rfl⟩, rfl⟩
      obtain ⟨hrep, hall, hpw⟩ := repeated_laterClause_iff.mp hrep
      refine ⟨⟨first, others, u, v, hfirst, hrep, rfl, by simp⟩, ?_, by simpa using hg⟩
      rw [List.pairwise_cons, hg]
      exact ⟨hall, hpw⟩
    · rintro ⟨⟨first, others, u, v, hfirst, hrep, rfl, rfl⟩, hpw, hhead⟩
      have hg : first.group = .columns := hhead first rfl
      rw [List.pairwise_cons, hg] at hpw
      exact ⟨first, u, v, ⟨hfirst, hg⟩, ⟨others, v, [], repeated_laterClause_iff.mpr ⟨hrep, hpw⟩,
        ⟨rfl, rfl⟩, by simp⟩, rfl⟩

/-! ### Groups -/

/-- The contents of clauses, made into clauses again, are the clauses of one group. -/
theorem map_filterMap_eq_filter {α : Type} {f : α → Clause} {f? : Clause → Option α}
    {g : ClauseGroup} (hf : ∀ c a, f? c = some a → c = f a)
    (hg : ∀ c : Clause, c.group = g ↔ (f? c).isSome) (cs : List Clause) :
    (cs.filterMap f?).map f = cs.filter (·.group = g) := by
  induction cs with
  | nil => rfl
  | cons c cs ih =>
    rcases h : f? c with _ | a
    · have hne : ¬ c.group = g := by simp [hg, h]
      simp [h, hne, ih]
    · have heq : c.group = g := by simp [hg, h]
      obtain rfl := hf c a h
      simp [h, heq, ih]

/-- Where the ranks have reached that of a group, no clause of a lower group is left. -/
theorem filter_group_eq_nil {cs : List Clause} {g : ClauseGroup}
    (h : ∀ c ∈ cs, g.rank ≤ c.group.rank) (g' : ClauseGroup) (hlt : g'.rank < g.rank) :
    cs.filter (·.group = g') = [] := by
  rw [List.filter_eq_nil_iff]
  intro c hc hg
  have hle := h c hc
  rw [of_decide_eq_true hg] at hle
  omega

/-- Clauses whose ranks never fall are their groups, one after the other. -/
theorem filter_groups_of_pairwise {cs : List Clause}
    (h : cs.Pairwise fun a b => a.group.rank ≤ b.group.rank) :
    cs.filter (·.group = .columns) ++ cs.filter (·.group = .primaryKeys) ++
      cs.filter (·.group = .foreignKeys) ++ cs.filter (·.group = .constraints) ++
      cs.filter (·.group = .checks) = cs := by
  induction cs with
  | nil => rfl
  | cons c cs ih =>
    obtain ⟨hle, hpw⟩ := List.pairwise_cons.mp h
    have hcs := ih hpw
    -- behind a clause of some group there is none of a lower group, so it starts the whole list
    have hnil := filter_group_eq_nil hle
    cases hg : c.group with
    | columns => simpa [hg] using hcs
    | primaryKeys =>
      rw [hg] at hnil
      simpa [hg, hnil .columns (by decide)] using hcs
    | foreignKeys =>
      rw [hg] at hnil
      simpa [hg, hnil .columns (by decide), hnil .primaryKeys (by decide)] using hcs
    | constraints =>
      rw [hg] at hnil
      simpa [hg, hnil .columns (by decide), hnil .primaryKeys (by decide),
        hnil .foreignKeys (by decide)] using hcs
    | checks =>
      rw [hg] at hnil
      simpa [hg, hnil .columns (by decide), hnil .primaryKeys (by decide),
        hnil .foreignKeys (by decide), hnil .constraints (by decide)] using hcs

/-- Clauses whose ranks never fall are the grouped clauses of the statement that they make up. -/
theorem groupedClauses_ofClauses (table : String) (ifNotExists : Bool) {cs : List Clause}
    (h : cs.Pairwise fun a b => a.group.rank ≤ b.group.rank) :
    groupedClauses (.ofClauses table ifNotExists cs) (cs.filterMap Clause.primaryKey?) = cs := by
  calc groupedClauses (.ofClauses table ifNotExists cs) (cs.filterMap Clause.primaryKey?)
    _ = cs.filter (·.group = .columns) ++ cs.filter (·.group = .primaryKeys) ++
          cs.filter (·.group = .foreignKeys) ++ cs.filter (·.group = .constraints) ++
          cs.filter (·.group = .checks) := by
      simp only [groupedClauses, Statement.ofClauses]
      congr 1; congr 1; congr 1; congr 1
      all_goals
        refine map_filterMap_eq_filter (fun c a hc => ?_) (fun c => ?_) cs
        · cases c <;> cases hc
          rfl
        · cases c <;> simp [Clause.group, Clause.column?, Clause.primaryKey?, Clause.foreignKey?,
            Clause.constraint?, Clause.check?]
    _ = cs := filter_groups_of_pairwise h

/-- Clauses that are grouped stand in the order of their groups. -/
theorem pairwise_groupedClauses (s : Statement) (primaryKeys : List (List String)) :
    (groupedClauses s primaryKeys).Pairwise fun a b => a.group.rank ≤ b.group.rank := by
  simp [groupedClauses, List.pairwise_append, List.pairwise_map, Clause.group, ClauseGroup.rank,
    List.pairwise_of_forall]
  grind

/-- A statement is what its grouped clauses make up. -/
theorem ofClauses_groupedClauses {s : Statement} {primaryKeys : List (List String)}
    (h : s.primaryKey = primaryKeys.flatten) :
    .ofClauses s.table s.ifNotExists (groupedClauses s primaryKeys) = s := by
  obtain ⟨table, ifNotExists, columns, primaryKey, foreignKeys, constraints, checks⟩ := s
  subst h
  simp [Statement.ofClauses, groupedClauses, List.filterMap_map, Function.comp_def,
    Clause.column?, Clause.primaryKey?, Clause.foreignKey?, Clause.constraint?, Clause.check?]

/-! ## Statements -/

/-- The words `IF NOT EXISTS` are read if they are there. -/
theorem reads_ifNotExists :
    Reads ifNotExists (fun b w => w = existenceWords b) (fun _ k => k ≠ .keyword .if_) := by
  refine (Reads.ifConsumed (isFixed_keyword .if_) ((reads_keyword .not).andThen fun _ =>
    (reads_keyword .exists_).andThen fun _ => Reads.pure true) (Reads.pure false) ?_).respell
    fun b w => ?_
  · rintro b v k ⟨-, rfl⟩ hk
    exact hk
  · refine ⟨?_, ?_⟩
    · rintro (⟨_, ⟨_, _, _, rfl, ⟨_, _, _, rfl, ⟨rfl, rfl⟩, rfl⟩, rfl⟩, rfl⟩ | ⟨rfl, rfl⟩) <;> rfl
    · rintro rfl
      cases b with
      | false => exact .inr ⟨rfl, rfl⟩
      | true => exact .inl ⟨_, ⟨(), _, _, rfl, ⟨(), _, _, rfl, ⟨rfl, rfl⟩, rfl⟩, rfl⟩, rfl⟩

/-- The words of clauses in order spell the statement that the clauses make up, and every statement
is spelled so. -/
theorem statementSpelling_iff {s : Statement} {w : List TokenKind} :
    StatementSpelling s w ↔
      ∃ cs v, CommaSeparated ClauseSpelling cs v ∧ InOrder cs ∧
        s = .ofClauses s.table s.ifNotExists cs ∧
        w = [.keyword .create, .keyword .table] ++ existenceWords s.ifNotExists ++
          [.identifier s.table, .symbol .leftParen] ++ v ++ [.symbol .rightParen] := by
  refine ⟨?_, ?_⟩
  · rintro ⟨primaryKeys, v, hcolumns, hkeys, hv, rfl⟩
    refine ⟨_, v, hv, ⟨pairwise_groupedClauses s primaryKeys, ?_⟩,
      (ofClauses_groupedClauses hkeys).symm, rfl⟩
    obtain ⟨d, ds, hds⟩ := List.exists_cons_of_ne_nil hcolumns
    simp [groupedClauses, hds, Clause.group]
  · rintro ⟨cs, v, hv, ⟨hpw, hhead⟩, hs, rfl⟩
    refine ⟨cs.filterMap Clause.primaryKey?, v, ?_, ?_, ?_, rfl⟩
    · -- the first clause is the first column
      obtain ⟨c, cs', rfl⟩ : ∃ c cs', cs = c :: cs' := by
        cases hv <;> exact ⟨_, _, rfl⟩
      have hc : c.group = .columns := hhead c rfl
      rw [hs]
      cases c <;> cases hc
      simp [Statement.ofClauses, Clause.column?]
    · rw [hs]
      rfl
    · rw [hs, groupedClauses_ofClauses _ _ hpw]
      exact hv

/-- The parenthesized clauses of a table, made up into its statement. -/
theorem reads_tableBody (table : String) (ifNotExists : Bool) :
    Reads
      (do
        symbol .leftParen
        let clauses ← clauses
        symbol .rightParen
        return Statement.ofClauses table ifNotExists clauses)
      (fun s w => ∃ cs v, CommaSeparated ClauseSpelling cs v ∧ InOrder cs ∧
        s = .ofClauses table ifNotExists cs ∧
        w = .symbol .leftParen :: v ++ [.symbol .rightParen]) Anything := by
  refine ((reads_symbol .leftParen).andThen fun _ => reads_clauses.bind (fun clauses =>
    (reads_symbol .rightParen).andThen fun _ => Reads.pure _) ?_).respell fun s w => ?_
  · rintro _ _ _ k ⟨_, _, _, rfl, -, rfl⟩ -
    rfl
  · refine ⟨?_, ?_⟩
    · rintro ⟨_, _, _, rfl, ⟨cs, v, _, ⟨hv, hcs⟩, ⟨_, _, _, rfl, ⟨rfl, rfl⟩, rfl⟩, rfl⟩, rfl⟩
      exact ⟨cs, v, hv, hcs, rfl, by simp⟩
    · rintro ⟨cs, v, hv, hcs, rfl, rfl⟩
      exact ⟨(), _, _, rfl, ⟨cs, v, _, ⟨hv, hcs⟩, ⟨(), _, _, rfl, ⟨rfl, rfl⟩, rfl⟩, rfl⟩, by simp⟩

/-- A statement is read to its closing parenthesis, whatever follows it. -/
theorem reads_createTable : Reads createTable StatementSpelling Anything := by
  refine ((reads_keyword .create).andThen fun _ => (reads_keyword .table).andThen fun _ =>
    reads_ifNotExists.bind (fun ifNotExists => reads_identifier.andThen fun table =>
      reads_tableBody table ifNotExists) ?_).respell fun s w => ?_
  · rintro _ _ _ k ⟨_, _, _, rfl, -, rfl⟩ -
    simp
  · rw [statementSpelling_iff]
    refine ⟨?_, ?_⟩
    · rintro ⟨_, _, _, rfl, ⟨_, _, _, rfl, ⟨b, _, _, rfl, ⟨table, _, _, rfl,
        ⟨cs, v, hv, hcs, rfl, rfl⟩, rfl⟩, rfl⟩, rfl⟩, rfl⟩
      exact ⟨cs, v, hv, hcs, rfl, by simp [Statement.ofClauses]⟩
    · rintro ⟨cs, v, hv, hcs, hs, rfl⟩
      exact ⟨(), _, _, rfl, ⟨(), _, _, rfl, ⟨s.ifNotExists, _, _, rfl, ⟨s.table, _, _, rfl,
        ⟨cs, v, hv, hcs, hs, rfl⟩, rfl⟩, rfl⟩, rfl⟩, by simp⟩

/-- A statement has no end of input in it. -/
theorem endOfInput_not_mem_of_spelling {s : Statement} {w : List TokenKind}
    (h : StatementSpelling s w) : .endOfInput ∉ w :=
  reads_createTable.endOfInput_not_mem (k := .endOfInput) h trivial

/-! ## Lists of tokens -/

/-- The kinds of the tokens before the first end of input, or of all tokens if there is none. -/
def kindsBeforeEnd (tokens : List Token) : List TokenKind :=
  (tokens.takeWhile fun t => !t.isEnd).map Token.kind

/-- Kinds without an end of input are all that comes before the end. -/
theorem kindsBeforeEnd_append {front rest : List Token} (h : .endOfInput ∉ front.map Token.kind) :
    kindsBeforeEnd (front ++ rest) = front.map Token.kind ++ kindsBeforeEnd rest := by
  have hfront : ∀ t ∈ front, (!t.isEnd) = true := by
    intro t ht
    rw [Bool.not_eq_true', Token.isEnd, beq_eq_false_iff_ne]
    exact fun hk => h (hk ▸ List.mem_map_of_mem ht)
  rw [kindsBeforeEnd, List.takeWhile_append_of_pos hfront, List.map_append]
  rfl

/-- What is missing at the end of a list: the end of input just past the last token, unless that is
an end of input. -/
def closing (tokens : List Token) : List Token :=
  match tokens.getLast? with
  | none => [.soleEnd]
  | some t => if t.isEnd then [] else [t.endAfter]

/-- The cursor of a list has before it the list, closed where it is not. -/
theorem toList_ofTokens_eq_append (tokens : List Token) :
    (Cursor.ofTokens tokens).toList = tokens ++ closing tokens := by
  obtain rfl | ⟨ts, t, rfl⟩ := List.eq_nil_or_concat tokens
  · rfl
  · rw [List.concat_eq_append]
    by_cases ht : t.isEnd = true <;> simp [Cursor.ofTokens, closing, ht, Cursor.toList]

/-- A list that is closed by the end of input is what its cursor has before it. -/
theorem toList_ofTokens {tokens : List Token} {t : Token} (ht : tokens.getLast? = some t)
    (hend : t.isEnd = true) : (Cursor.ofTokens tokens).toList = tokens := by
  simp only [toList_ofTokens_eq_append, closing, ht, hend, if_true, List.append_nil]

/-- The cursor of a list stands before the first part of the list. -/
theorem ofTokens_append (front : List Token) {rest : List Token} (hne : rest ≠ []) :
    Cursor.ofTokens (front ++ rest) = (Cursor.ofTokens rest).putBack front := by
  obtain ⟨ts, t, rfl⟩ := (List.eq_nil_or_concat rest).resolve_left hne
  rw [List.concat_eq_append, ← List.append_assoc]
  by_cases ht : t.isEnd = true <;> simp [Cursor.ofTokens, ht, Cursor.putBack]

theorem takeWhile_concat {α : Type} {f : α → Bool} {a : α} (ha : f a = false) (as : List α) :
    (as ++ [a]).takeWhile f = as.takeWhile f := by
  induction as with
  | nil => simp [ha]
  | cons b bs ih => simp [List.takeWhile_cons, ih]

/-- Closing a list does not change what comes before its first end of input. -/
theorem takeWhile_ahead_ofTokens (tokens : List Token) :
    (Cursor.ofTokens tokens).ahead.takeWhile (fun t => !t.isEnd) =
      tokens.takeWhile fun t => !t.isEnd := by
  rcases ht : tokens.getLast? with _ | t
  · obtain rfl := List.getLast?_eq_none_iff.mp ht
    rfl
  · obtain ⟨ts, rfl⟩ := List.getLast?_eq_some_iff.mp ht
    by_cases hend : t.isEnd = true
    · rw [takeWhile_concat (by simp [hend])]
      simp [Cursor.ofTokens, hend]
    · simp [Cursor.ofTokens, hend]

/-- Every cursor stands some tokens before an end of input. -/
theorem exists_putBack_takeWhile (c : Cursor) :
    ∃ c' : Cursor, c = c'.putBack (c.ahead.takeWhile fun t => !t.isEnd) ∧
      c'.current.isEnd = true := by
  refine ⟨{ c with ahead := c.ahead.dropWhile fun t => !t.isEnd }, ?_, ?_⟩
  · simp [Cursor.putBack]
  · rcases h : c.ahead.dropWhile fun t => !t.isEnd with _ | ⟨t, ts⟩
    · simpa [Cursor.current, h] using c.isEnd_last
    · have ht := List.head?_dropWhile_not (fun t : Token => !t.isEnd) c.ahead
      rw [h] at ht
      simpa [Cursor.current, h] using ht

/-- Where a cursor stands before an end of input, what comes before the end has been passed. -/
theorem takeWhile_ahead_putBack {c : Cursor} {front : List Token}
    (hfront : ∀ t ∈ front, t.isEnd = false) (hc : c.current.isEnd = true) :
    (c.putBack front).ahead.takeWhile (fun t => !t.isEnd) = front := by
  rw [Cursor.ahead_putBack, List.takeWhile_append_of_pos (by simpa using hfront)]
  obtain ⟨_ | ⟨t, ts⟩, last, hlast⟩ := c
  · simp
  · have ht : t.isEnd = true := hc
    simp [ht]

/-- The end of input is wanted behind a statement. -/
theorem takesOne_atEnd :
    TakesOne atEnd (fun k => if k = .endOfInput then some () else none) [.endOfInput] := by
  intro c
  have haccepts : c.currentIs .endOfInput = decide (c.current.kind = .endOfInput) := by
    rw [Cursor.currentIs]
    cases c.current.kind <;> rfl
  by_cases hk : c.current.kind = .endOfInput
  · simp only [atEnd, expect, runFrom_bind, runFrom_currentIs, haccepts, hk, decide_true, if_true,
      runFrom_next, runFrom_pure]
  · simp only [atEnd, expect, runFrom_bind, runFrom_currentIs, haccepts, hk, decide_false,
      Bool.false_eq_true, if_false, runFrom_failExpecting]

/-- A run over a whole statement is one over its tokens that stops at an end of input. -/
theorem runFrom_statement_eq_ok_iff {c : Cursor} {s : Statement} :
    (statement.runFrom c).1 = .ok s ↔
      ∃ c', createTable.runFrom c = (.ok s, c') ∧ c'.current.isEnd = true := by
  refine ⟨?_, ?_⟩
  · intro h
    have hrun : statement.runFrom c = (.ok s, (statement.runFrom c).2) := Prod.ext h rfl
    obtain ⟨s', c', hs, h'⟩ := runFrom_bind_eq_ok hrun
    obtain ⟨_, c'', hend, h''⟩ := runFrom_bind_eq_ok h'
    obtain rfl : s' = s := Except.ok.inj (congrArg Prod.fst h'')
    refine ⟨c', hs, ?_⟩
    by_cases hk : c'.current.kind = .endOfInput
    · rw [Token.isEnd, hk]
      rfl
    · simp only [takesOne_atEnd c', hk, if_false] at hend
      cases hend
  · rintro ⟨c', hs, hend⟩
    have hk : c'.current.kind = .endOfInput := by
      simpa [Token.isEnd] using hend
    rw [statement, runFrom_bind_of_ok hs]
    simp only [runFrom_bind, takesOne_atEnd c', hk, if_true, runFrom_pure]

/-- A list of tokens is a statement if and only if what comes before its first end of input spells
the statement. -/
theorem ofTokens_eq_ok_iff_spelling {tokens : List Token} {s : Statement} :
    Statement.ofTokens tokens = .ok s ↔ StatementSpelling s (kindsBeforeEnd tokens) := by
  rw [kindsBeforeEnd, ← takeWhile_ahead_ofTokens, Statement.ofTokens, runFrom_statement_eq_ok_iff]
  generalize Cursor.ofTokens tokens = c
  refine ⟨?_, ?_⟩
  · rintro ⟨c', hs, hend⟩
    obtain ⟨front, rfl, hfront, hspells⟩ := reads_createTable.sound hs
    rw [takeWhile_ahead_putBack hfront hend]
    exact hspells
  · intro hspells
    obtain ⟨c', hc, hend⟩ := exists_putBack_takeWhile c
    refine ⟨c', ?_, hend⟩
    rw [hc]
    exact reads_createTable.complete hspells trivial

/-- **The parser accepts exactly the grammar.** A list of tokens is a statement if and only if the
kinds before the first end of input spell it. Whatever tokens come after a spelling, up to an end of
input, the parser of a statement gives the statement and stands on the first of them. -/
theorem parser_accepts_grammar :
    (∀ (tokens : List Token) (s : Statement),
      Statement.ofTokens tokens = .ok s ↔ StatementSpelling s (kindsBeforeEnd tokens)) ∧
    ∀ (s : Statement) (front rest : List Token) (t : Token),
      StatementSpelling s (front.map Token.kind) → rest.getLast? = some t → t.isEnd = true →
        createTable.runFrom (.ofTokens (front ++ rest)) = (.ok s, .ofTokens rest) ∧
          (Cursor.ofTokens rest).toList = rest := by
  refine ⟨fun _ _ => ofTokens_eq_ok_iff_spelling, fun s front rest t hspells ht hend => ?_⟩
  rw [ofTokens_append front (List.ne_nil_of_mem (List.mem_of_getLast? ht))]
  exact ⟨reads_createTable.complete hspells trivial, toList_ofTokens ht hend⟩

/-- `CREATE TABLE t (a int, PRIMARY KEY (a))` before a name. -/
theorem parser_accepts_before_name :
    createTable.runFrom (.ofTokens
        ([.keyword .create, .keyword .table, .identifier "t", .symbol .leftParen, .identifier "a",
          .identifier "int", .symbol .comma, .keyword .primary, .keyword .key, .symbol .leftParen,
          .identifier "a", .symbol .rightParen, .symbol .rightParen].map (⟨·, "", .start⟩) ++
          [⟨.identifier "b", "b", .start⟩, .soleEnd])) =
      (.ok ⟨"t", false, [⟨"a", ⟨"int", []⟩, []⟩], ["a"], [], [], []⟩,
        .ofTokens [⟨.identifier "b", "b", .start⟩, .soleEnd]) := by
  have hnames : Names ["a"] [.symbol .leftParen, .identifier "a", .symbol .rightParen] :=
    ⟨_, .single rfl, rfl⟩
  have hcolumn : ColumnSpelling ⟨"a", ⟨"int", []⟩, []⟩ [.identifier "a", .identifier "int"] :=
    ⟨_, _, .none, .nil, rfl⟩
  exact (parser_accepts_grammar.2 _ _ _ _
    ⟨[["a"]], _, by simp, rfl, .more (.column hcolumn) (.single (.primaryKey hnames)), rfl⟩
    rfl rfl).1

end TableSchema.Ddl
