import TableSchema.Proofs.Ddl.Suggestions

/-!
# The rules are candid

Every rule of the grammar is read by a predictive parser, and what it suggests where it fails could
have come there. Each rule is put together as its parser is. What it reads is known already, and only
what may follow a part has to be said once more.

There is one exception. Behind a comma a table may go on with a clause of the group that was reached
or of a later one, but the parser names the first tokens of all groups. A clause of an earlier group
comes too late (`TooLate`) and is refused before any of it is consumed.
-/

namespace TableSchema.Ddl

open Ddl.Parser Grammar

/-! ## Columns -/

/-- A list of names suggests commas, names and parentheses only where they can come. -/
theorem candid_names : Candid names Names Anything :=
  candid_identifier.commaSeparated.parenthesized fun _ => by simp

/-- So do the sizes of a type, where a third size is not suggested. -/
theorem candid_typeArguments :
    Candid typeArguments BareArguments (fun _ k => k ≠ .symbol .comma) := by
  refine (candid_number.andThen fun size => .ifConsumed (isFixed_symbol .comma)
    (candid_number.map (fun second => [size, second]) (fun _ _ _ => trivial)
      fun _ => ⟨.endOfInput, by simp⟩) (.pure [size]) ?_).respell
    (fun _ => ⟨.endOfInput, by simp⟩) reads_typeArguments
  rintro a v k ⟨-, rfl⟩ hk
  exact hk

/-- A type suggests its name, and sizes only behind a parenthesis. -/
theorem candid_typeSpec :
    Candid typeSpec
      (fun t w => ∃ v, TypeArguments t.arguments v ∧ w = .identifier t.name :: v)
      (fun _ k => k ≠ .symbol .leftParen) := by
  refine (candid_identifier.andThen fun name => .ifConsumed (isFixed_symbol .leftParen)
    (candid_typeArguments.bind (fun arguments => (candid_symbol .rightParen).andThen
      fun _ => .pure ({ name, arguments } : TypeSpec)) ?_)
    (.pure ({ name, arguments := [] } : TypeSpec)) ?_).respell
    (fun _ => ⟨.endOfInput, by simp⟩) reads_typeSpec
  · rintro _ b _ k ⟨_, _, _, rfl, -, rfl⟩ - h
    cases h
  · rintro a v k ⟨-, rfl⟩ hk
    exact hk

/-- Where a default value is wanted, any of its four kinds can come. -/
theorem candid_bareDefault : Candid bareDefault BareDefault Anything := by
  refine (takesOne_bareDefault.candid (k := .keyword .null) rfl rfl fun w hw k hk => ?_).respell
    exists_anything reads_bareDefault
  simp only [List.mem_cons, List.not_mem_nil, or_false] at hw
  obtain rfl | rfl | rfl | rfl := hw
  · obtain ⟨name, rfl⟩ := TokenKind.exists_of_accepts_identifier hk
    exact ⟨_, rfl⟩
  · obtain ⟨text, rfl⟩ := TokenKind.exists_of_accepts_number hk
    exact ⟨_, rfl⟩
  · obtain ⟨text, rfl⟩ := TokenKind.exists_of_accepts_string hk
    exact ⟨_, rfl⟩
  · obtain rfl := ((isFixed_keyword .null).2 k).mp hk
    exact ⟨_, rfl⟩

/-- A default value suggests no parenthesis in front of it, as it is tried as a bare one then. -/
theorem candid_defaultValue :
    Candid defaultValue (fun v w => Parenthesized BareDefault v w ∨ BareDefault v w)
      Anything := by
  refine (Candid.ifConsumed (isFixed_symbol .leftParen)
    (candid_bareDefault.andThen fun value => (candid_symbol .rightParen).andThen fun _ =>
      .pure value) candid_bareDefault ?_).respell exists_anything reads_defaultValue
  intro v w k hw _
  cases hw <;> simp

/-- Behind its first token, a modifier suggests how it goes on. -/
theorem candid_modifierBranch {k : TokenKind} {r : Parser (Option Modifier)}
    (h : modifierBranch k = some r) :
    Candid r (fun o v => ∃ m, o = some m ∧ ModifierSpelling m (k :: v)) Anything := by
  have hr := reads_modifierBranch h
  unfold modifierBranch at h
  split at h <;> cases h
  · exact ((candid_keyword .null).andThen fun _ =>
      .pure (some Modifier.notNull)).respell exists_anything hr
  · exact (Candid.pure (some Modifier.notNull)).respell exists_anything hr
  · exact (candid_defaultValue.map (fun v => some (Modifier.default v))
      (fun _ _ _ => trivial) exists_anything).respell exists_anything hr
  · exact (Candid.pure (some Modifier.autoIncrement)).respell exists_anything hr

/-- Modifiers suggest how those go on that are announced. -/
theorem candid_modifiers :
    Candid modifiers Modifiers (fun _ k => modifierBranch k = none) := by
  have hmodifier : Candid modifier? _ fun o k => o = none → modifierBranch k = none :=
    .dispatch runFrom_modifier? rfl
      (fun hb => (candid_modifierBranch hb).mono
        ((reads_modifierBranch hb).congr (fun _ _ => Iff.rfl) fun _ _ _ => trivial) id)
      (.pure none) (by rintro _ _ k ⟨rfl, rfl⟩ hk; exact hk rfl)
  have hstep : Candid (do return (← modifier?).map (·, ()))
      (StepSpelling (fun _ m _ w => ModifierSpelling m w) ())
      (StepFollows (fun _ => True) fun k => modifierBranch k = none) := by
    have hall := exists_stepFollows (α := Modifier) (σ := Unit) (F := fun _ => True)
      (E := fun k => modifierBranch k = none) (fun _ => trivial) ⟨.endOfInput, rfl⟩
    refine (hmodifier.map (·.map (·, ())) ?_ hall).respell hall reads_modifier?
    rintro (_ | m) k hk ho
    · exact hk
    · cases ho
  refine (candid_collect (F := fun _ => True) (fun hm => ?_) (fun _ => trivial)
    (fun _ => hstep) ()).respell (fun _ => ⟨.endOfInput, rfl⟩) reads_modifiers
  obtain ⟨k, v, r, rfl, -⟩ := modifierBranch_of_spelling hm
  exact ⟨k, v, rfl, trivial⟩

/-- There are tokens that end a clause. -/
theorem exists_endsClause {α : Type} (_ : α) : ∃ k, EndsClause k := ⟨.symbol .comma, .inl rfl⟩

/-- A column suggests what its parts do. -/
theorem candid_column : Candid column ColumnSpelling (fun _ => EndsClause) := by
  refine (candid_identifier.andThen fun name => candid_typeSpec.bind (fun type =>
    candid_modifiers.map (G := fun _ => EndsClause)
      (fun modifiers => ({ name, type, modifiers } : Column))
      (fun _ _ hk => hk.modifierBranch_eq_none) exists_endsClause) ?_).respell exists_endsClause
    reads_column
  rintro t d v k ⟨ms, hms, rfl⟩ hk
  exact headD_ne_leftParen hms hk

/-! ## Table clauses -/

/-- A reference suggests a table and then its columns. -/
theorem candid_tableReference : Candid tableReference Reference Anything :=
  (candid_identifier.andThen fun table => candid_names.map (G := Anything)
    (fun columns => ({ table, columns } : TableReference)) (fun _ _ _ => trivial)
    exists_anything).respell exists_anything reads_tableReference

/-- A primary key suggests its words and its columns. -/
theorem candid_primaryKey :
    Candid primaryKey (fun columns w => ClauseSpelling (.primaryKey columns) w) Anything :=
  ((candid_keyword .primary).andThen fun _ => (candid_keyword .key).andThen fun _ =>
    candid_names).respell exists_anything reads_primaryKey

/-- A foreign key suggests its words, its columns and what they refer to. -/
theorem candid_foreignKey :
    Candid foreignKey (fun key w => ClauseSpelling (.foreignKey key) w) Anything :=
  ((candid_keyword .foreign).andThen fun _ => (candid_keyword .key).andThen fun _ =>
    candid_names.andThen fun columns => (candid_keyword .references).andThen fun _ =>
    candid_tableReference.map (G := Anything)
      (fun references => ({ columns, references } : ForeignKey)) (fun _ _ _ => trivial)
      exists_anything).respell exists_anything reads_foreignKey

/-- Where the kind of a constraint is wanted, both keywords can come. -/
theorem candid_constraintKind :
    Candid constraintKind (fun kind w => w = [.keyword (constraintWord kind)]) Anything := by
  refine (takesOne_constraintKind.candid (k := .keyword .primary) rfl rfl
    fun w hw k hk => ?_).respell exists_anything reads_constraintKind
  simp only [List.mem_cons, List.not_mem_nil, or_false] at hw
  obtain rfl | rfl := hw
  · obtain rfl := ((isFixed_keyword .primary).2 k).mp hk
    exact ⟨_, rfl⟩
  · obtain rfl := ((isFixed_keyword .foreign).2 k).mp hk
    exact ⟨_, rfl⟩

/-- A constraint suggests what it may refer to only behind the word for it. -/
theorem candid_optionalReference {α : Type} (f : Option TableReference → α) :
    Candid
      (do
        if ← consumeIf (.keyword .references) then return f (some (← tableReference))
        else return f none)
      (fun a w => ∃ r, OptionalReference r w ∧ a = f r) fun _ => EndsClause := by
  refine (Candid.ifConsumed (isFixed_keyword .references)
    (candid_tableReference.map (fun r => f (some r)) (fun _ _ _ => trivial)
      exists_endsClause) (.pure (f none)) ?_).respell exists_endsClause
    (reads_optionalReference f)
  rintro _ _ k ⟨-, rfl⟩ hk
  exact hk.ne_keyword .references

/-- A named constraint suggests what its parts do. -/
theorem candid_namedConstraint :
    Candid namedConstraint (fun c w => ClauseSpelling (.constraint c) w)
      fun _ => EndsClause :=
  ((candid_keyword .constraint).andThen fun _ => candid_identifier.andThen fun name =>
    candid_constraintKind.andThen fun kind => (candid_keyword .key).andThen fun _ =>
    candid_names.andThen fun columns => candid_optionalReference fun references =>
      ({ name, kind, columns, references } : NamedConstraint)).respell exists_endsClause
    reads_namedConstraint

/-- Where a value of a check is wanted, numbers and strings can come. -/
theorem candid_checkValue : Candid checkValue CheckValueSpelling Anything := by
  refine (takesOne_checkValue.candid (k := .number "") rfl rfl fun w hw k hk => ?_).respell
    exists_anything reads_checkValue
  simp only [List.mem_cons, List.not_mem_nil, or_false] at hw
  obtain rfl | rfl := hw
  · obtain ⟨text, rfl⟩ := TokenKind.exists_of_accepts_number hk
    exact ⟨_, rfl⟩
  · obtain ⟨text, rfl⟩ := TokenKind.exists_of_accepts_string hk
    exact ⟨_, rfl⟩

/-- A check suggests a column, its word and its values. -/
theorem candid_check :
    Candid check (fun c w => ClauseSpelling (.check c) w) Anything := by
  have hvalues := candid_checkValue.commaSeparated.parenthesized fun _ => by simp
  have hbody := candid_identifier.andThen fun column => (candid_keyword .in_).andThen
    fun _ => hvalues.map (G := Anything) (fun values => ({ column, values } : Check))
      (fun _ _ _ => trivial) exists_anything
  exact ((candid_keyword .check).andThen fun _ => hbody.parenthesized
    fun _ => trivial).respell exists_anything reads_check

/-! ## Clauses -/

/-- A clause of any group suggests only what can come in it. -/
theorem candid_clause (g : ClauseGroup) :
    Candid (clause g) (fun c w => ClauseSpelling c w ∧ c.group = g)
      (fun _ => EndsClause) := by
  have hclause := reads_clause g
  cases g with
  | columns =>
    exact (candid_column.map Clause.column (fun _ _ hk => hk) exists_endsClause).respell
      exists_endsClause hclause
  | primaryKeys =>
    exact (candid_primaryKey.map Clause.primaryKey (fun _ _ _ => trivial)
      exists_endsClause).respell exists_endsClause hclause
  | foreignKeys =>
    exact (candid_foreignKey.map Clause.foreignKey (fun _ _ _ => trivial)
      exists_endsClause).respell exists_endsClause hclause
  | constraints =>
    exact (candid_namedConstraint.map Clause.constraint (fun _ _ hk => hk)
      exists_endsClause).respell exists_endsClause hclause
  | checks =>
    exact (candid_check.map Clause.check (fun _ _ _ => trivial)
      exists_endsClause).respell exists_endsClause hclause

/-- How the clause after a comma goes on, by the kind of its first token. -/
def laterClauseOfKind (reached : ClauseGroup) (k : TokenKind) : Parser (Clause × ClauseGroup) :=
  match groupOfKind? k with
  | none =>
    failExpecting [.identifier "", .keyword .primary, .keyword .foreign, .keyword .constraint,
      .keyword .check]
  | some group =>
    if group.rank < reached.rank then do throw (.misplaced (← current))
    else return (← clause group, group)

/-- Behind a comma, the current token decides which clause comes. -/
theorem runFrom_laterClause (reached : ClauseGroup) (c : Cursor) :
    (laterClause reached).runFrom c = (laterClauseOfKind reached c.current.kind).runFrom c := by
  simp only [laterClause, runFrom_bind _ _ c, runFrom_current, laterClauseOfKind]
  cases groupOfKind? c.current.kind with
  | none => rfl
  | some g =>
    by_cases hlt : g.rank < reached.rank
    · simp only [hlt, if_true]
      rfl
    · simp only [hlt, if_false]

/-- Of a kind that starts a clause of a group before the one reached. -/
def StartsEarlier (reached : ClauseGroup) (k : TokenKind) : Prop :=
  ∃ g, groupOfKind? k = some g ∧ g.rank < reached.rank

/-- A token that starts a clause of some group starts a whole one. -/
theorem exists_clause_of_kind {k : TokenKind} {g : ClauseGroup} (h : groupOfKind? k = some g) :
    ∃ c v, ClauseSpelling c (k :: v) ∧ c.group = g := by
  have hnames : Names [""] [.symbol .leftParen, .identifier "", .symbol .rightParen] :=
    ⟨_, .single rfl, rfl⟩
  unfold groupOfKind? at h
  split at h <;> cases h
  · exact ⟨.column ⟨_, ⟨"", []⟩, []⟩, _, .column ⟨[], [], .none, .nil, rfl⟩, rfl⟩
  · exact ⟨_, _, .primaryKey hnames, rfl⟩
  · exact ⟨.foreignKey ⟨[""], ⟨"", [""]⟩⟩, _, .foreignKey hnames ⟨_, hnames, rfl⟩, rfl⟩
  · exact ⟨.constraint ⟨"", .primaryKey, [""], none⟩, _, .constraint hnames .none, rfl⟩
  · exact ⟨.check ⟨"", [.number ""]⟩, _,
      .check ⟨_, ⟨_, ⟨_, .single (.number ""), rfl⟩, rfl⟩, rfl⟩, rfl⟩

/-- The tokens named where no clause starts are those that start one. -/
theorem exists_group_of_accepts {wanted k : TokenKind}
    (hwanted : wanted ∈ [.identifier "", .keyword .primary, .keyword .foreign, .keyword .constraint,
      .keyword .check]) (hk : k.accepts wanted = true) : ∃ g, groupOfKind? k = some g := by
  simp only [List.mem_cons, List.not_mem_nil, or_false] at hwanted
  obtain rfl | rfl | rfl | rfl | rfl := hwanted
  · obtain ⟨name, rfl⟩ := TokenKind.exists_of_accepts_identifier hk
    exact ⟨_, rfl⟩
  all_goals
    obtain rfl := ((isFixed_keyword _).2 k).mp hk
    exact ⟨_, rfl⟩

/-- A clause that comes too late is reported before any of it is consumed: up to there, the tokens
can go on with a clause of the group reached. -/
theorem predictive_laterClause (reached : ClauseGroup) :
    Predictive (laterClause reached) (fun x w => LaterClause reached x.1 x.2 w)
      (fun _ => EndsClause) := by
  have hspelling : ∃ x w, LaterClause reached (x : Clause × ClauseGroup).1 x.2 w := by
    obtain ⟨c, w, hc, hg⟩ := (candid_clause reached).exists_spelling
    exact ⟨(c, reached), w, hc, hg, Nat.le_refl _⟩
  refine { reads_laterClause reached with
    decided := .byCurrent (runFrom_laterClause reached) fun k => ?_
    exists_spelling := hspelling
    exists_completion := fun {c c' e} h => ?_ }
  · unfold laterClauseOfKind
    split
    · exact decidedByKinds_failExpecting _
    · split
      · exact fun c => ⟨[], c, .error (.misplaced c.current), rfl, answersAlike_nil fun _ _ => rfl⟩
      · exact (candid_clause _).decided.map (·, _)
  · rw [runFrom_laterClause, laterClauseOfKind] at h
    split at h
    · cases h
      exact ⟨[], rfl, by simp, hspelling⟩
    · next g _ =>
      split at h
      · cases h
        exact ⟨[], rfl, by simp, hspelling⟩
      · next hle =>
        have hclause := (candid_clause g).toPredictive.map (G := fun _ => EndsClause) (·, g)
          (fun _ _ hk => hk) exists_endsClause
        obtain ⟨front, hc, hend, _, w, d, ⟨hd, hg⟩, rfl⟩ := hclause.exists_completion h
        exact ⟨front, hc, hend, (d, g), w, hd, hg, Nat.le_of_not_lt hle⟩

/-- Of the clauses that are named, those of an earlier group cannot come any more. -/
theorem candidUpTo_laterClause (reached : ClauseGroup) :
    CandidUpTo (laterClause reached) (fun x w => LaterClause reached x.1 x.2 w)
      (fun _ => EndsClause) (fun w k => w = [] ∧ StartsEarlier reached k) where
  toPredictive := predictive_laterClause reached
  suggests := by
    refine .byCurrent (runFrom_laterClause reached) fun k => ?_
    unfold laterClauseOfKind
    split
    · refine .failExpecting fun wanted hwanted k hk => ?_
      obtain ⟨g, hg⟩ := exists_group_of_accepts hwanted hk
      by_cases hlt : g.rank < reached.rank
      · exact .inr ⟨rfl, g, hg, hlt⟩
      · obtain ⟨c, v, hc, hcg⟩ := exists_clause_of_kind hg
        exact .inl ⟨(c, g), v, hc, hcg, Nat.le_of_not_lt hlt⟩
    · next g _ =>
      split
      · intro c c' kinds t h
        cases h
      · next hle =>
        refine ((candid_clause g).suggests.map (·, g)).mono fun h => .inl (h.mono ?_)
        exact fun ⟨hc, hg⟩ => ⟨(_, g), hc, hg, Nat.le_of_not_lt hle⟩

/-! ## Lists of clauses -/

/-- Behind the clauses, the current token decides whether the parenthesis is there. -/
theorem runFrom_beforeParen {α : Type} (a : α) (wanted : List TokenKind) (c : Cursor) :
    (do
        if ← currentIs (.symbol .rightParen) then return a
        else failExpecting wanted : Parser α).runFrom c =
      (if c.current.kind = .symbol .rightParen then Pure.pure a
        else failExpecting wanted : Parser α).runFrom c := by
  simp only [runFrom_bind _ _ c, runFrom_currentIs, (isFixed_symbol .rightParen).currentIs,
    decide_eq_true_eq]

/-- Stopping before a closing parenthesis reads nothing, so all that is named is excepted here: it
belongs to what is around the parser. -/
theorem candidUpTo_beforeParen {α : Type} (a : α) :
    CandidUpTo
      (do
        if ← currentIs (.symbol .rightParen) then return a
        else failExpecting [.symbol .comma, .symbol .rightParen])
      (fun b w => b = a ∧ w = []) (fun _ k => k = .symbol .rightParen)
      (fun w k => w = [] ∧ EndsClause k) := by
  have hrun := runFrom_beforeParen a [.symbol .comma, .symbol .rightParen]
  refine { reads_beforeParen a [.symbol .comma, .symbol .rightParen] with
    decided := .byCurrent (q := fun k => if k = .symbol .rightParen then Pure.pure a
      else failExpecting _) hrun fun k => ?_
    exists_spelling := ⟨a, [], rfl, rfl⟩
    exists_completion := fun {c c' e} h => ?_
    suggests := .byCurrent (q := fun k => if k = .symbol .rightParen then Pure.pure a
      else failExpecting _) hrun fun k => ?_ }
  · split
    · exact decidedByKinds_pure a
    · exact decidedByKinds_failExpecting _
  · rw [hrun] at h
    split at h <;> cases h
    exact ⟨[], rfl, by simp, a, [], rfl, rfl⟩
  · split
    · exact .pure a
    · refine .failExpecting fun wanted hwanted k hk => .inr ⟨rfl, ?_⟩
      simp only [List.mem_cons, List.not_mem_nil, or_false] at hwanted
      obtain rfl | rfl := hwanted
      · exact .inl (((isFixed_symbol .comma).2 k).mp hk)
      · exact .inr (((isFixed_symbol .rightParen).2 k).mp hk)

/-- The step from one clause to the next. -/
theorem candidUpTo_nextClause (reached : ClauseGroup) :
    CandidUpTo
      (do
        if ← consumeIf (.symbol .comma) then return some (← laterClause reached)
        else return none)
      (StepSpelling (AfterComma LaterClause) reached)
      (StepFollows EndsClause fun k => k = .symbol .rightParen)
      (fun w k => w = [.symbol .comma] ∧ StartsEarlier reached k) := by
  have hitem : CandidUpTo (do return some (← laterClause reached))
      (fun o w => ∃ c g, o = some (c, g) ∧ LaterClause reached c g w) (fun _ => EndsClause)
      (fun w k => w = [] ∧ StartsEarlier reached k) := by
    have h := (candidUpTo_laterClause reached).map (G := fun _ => EndsClause) some
      (fun _ _ hk => hk) exists_endsClause
    refine h.respell exists_endsClause (h.toReads.respell fun o w => ⟨?_, ?_⟩) id
    · exact fun ⟨⟨a, g⟩, hs, ho⟩ => ⟨a, g, ho, hs⟩
    · exact fun ⟨a, g, ho, hs⟩ => ⟨(a, g), hs, ho⟩
  have hstep := candidUpTo_afterComma (E := fun k => k = .symbol .rightParen) hitem .inr (by simp)
    ⟨_, rfl⟩
  refine hstep.mono hstep.toReads id ?_
  rintro w k ⟨_, rfl, rfl, hk⟩
  exact ⟨rfl, hk⟩

/-- Clauses in order can be followed by one more. -/
theorem Repeated.exists_nextClause {g : ClauseGroup} {cs : List Clause} {w : List TokenKind}
    (h : Repeated (AfterComma LaterClause) g cs w) :
    ∃ cs' v, Repeated (AfterComma LaterClause) g cs' (w ++ .symbol .comma :: v) := by
  induction h with
  | @nil g =>
    obtain ⟨c, v, hc, hg⟩ := (candid_clause g).exists_spelling
    have hone := Repeated.cons (S := AfterComma LaterClause) ⟨v, ⟨hc, hg, Nat.le_refl _⟩, rfl⟩ .nil
    rw [List.append_nil] at hone
    exact ⟨[c], v, hone⟩
  | cons hs _ ih =>
    obtain ⟨cs', v, hrep⟩ := ih
    have hmore := Repeated.cons hs hrep
    rw [← List.append_assoc] at hmore
    exact ⟨_, v, hmore⟩

/-- Clauses that each may come where the ones before it end, each behind a comma, and then a comma
before a token that starts a clause of an earlier group. -/
abbrev LateClauses : ClauseGroup → List TokenKind → TokenKind → Prop :=
  AfterSteps (AfterComma LaterClause) fun reached w k =>
    w = [.symbol .comma] ∧ StartsEarlier reached k

/-- The clauses of a table up to a token that comes too late. -/
def TooLate (w : List TokenKind) (k : TokenKind) : Prop :=
  ∃ c u v, (ClauseSpelling c u ∧ c.group = .columns) ∧ LateClauses .columns v k ∧ w = u ++ v

/-- The clauses of a table suggest what can come, and behind a comma also what comes too late. -/
theorem candidUpTo_clauses :
    CandidUpTo clauses (fun cs w => CommaSeparated ClauseSpelling cs w ∧ InOrder cs)
      (fun _ k => k = .symbol .rightParen)
      (fun w k => (k = .symbol .rightParen ∧ ∃ cs, CommaSeparated ClauseSpelling cs w ∧ InOrder cs) ∨
        TooLate w k) := by
  have hothers := candidUpTo_collect (F := EndsClause) (E := fun k => k = .symbol .rightParen)
    (S := AfterComma LaterClause) (fun ⟨u, _, hw⟩ => ⟨_, u, hw, .inl rfl⟩) .inr
    candidUpTo_nextClause .columns
  have hrest := fun first : Clause => hothers.bind (Z := fun w k =>
      (k = .symbol .rightParen ∧ ∃ others, Repeated (AfterComma LaterClause) .columns others w) ∨
        LateClauses .columns w k)
    (fun others => candidUpTo_beforeParen (first :: others)) ?_ (fun hx => .inr (.inr hx)) ?_
  · have hall := (candid_clause .columns).behind hrest ?_
    · refine hall.respell (fun _ => ⟨_, rfl⟩) reads_clauses ?_
      rintro w k ⟨first, u, v, hfirst, ⟨rfl, others, hrep⟩ | hlate, rfl⟩
      · refine .inl ⟨rfl, first :: others,
          hall.toReads.spells_of_reads (fun _ => ⟨_, rfl⟩) reads_clauses ?_⟩
        exact ⟨first, u, v, hfirst, ⟨others, v, [], hrep, ⟨rfl, rfl⟩, by simp⟩, rfl⟩
      · exact .inr ⟨first, u, v, hfirst, hlate, rfl⟩
    · rintro first _ _ k ⟨others, u, _, hrep, ⟨-, rfl⟩, rfl⟩ hk
      rw [List.append_nil]
      exact hrep.headD (fun ⟨u, _, hw⟩ => ⟨_, u, hw, .inl rfl⟩) .inr hk
  · rintro others _ _ k ⟨-, rfl⟩ hk
    exact hk
  · -- a comma goes on with one more clause, and a closing parenthesis with what is around
    rintro others u v k hrep ⟨rfl, rfl | rfl⟩
    · obtain ⟨others', v, hmore⟩ := hrep.exists_nextClause
      exact .inl ⟨others', first :: others', _, [], v, hmore, ⟨rfl, rfl⟩, by simp⟩
    · rw [List.append_nil]
      exact .inr (.inl ⟨rfl, others, hrep⟩)

/-! ## Statements -/

/-- The words `IF NOT EXISTS` suggest those that are still missing. -/
theorem candid_ifNotExists :
    Candid ifNotExists (fun b w => w = existenceWords b)
      (fun _ k => k ≠ .keyword .if_) := by
  refine (Candid.ifConsumed (isFixed_keyword .if_) ((candid_keyword .not).andThen fun _ =>
    (candid_keyword .exists_).andThen fun _ => .pure true) (.pure false) ?_).respell
    (fun _ => ⟨.endOfInput, by simp⟩) reads_ifNotExists
  rintro b v k ⟨-, rfl⟩ hk
  exact hk

/-- The parentheses around the clauses keep the exception. -/
theorem candidUpTo_tableBody (table : String) (ifNotExists : Bool) :
    CandidUpTo
      (do
        symbol .leftParen
        let clauses ← clauses
        symbol .rightParen
        return Statement.ofClauses table ifNotExists clauses)
      (fun s w => ∃ cs v, CommaSeparated ClauseSpelling cs v ∧ InOrder cs ∧
        s = .ofClauses table ifNotExists cs ∧
        w = .symbol .leftParen :: v ++ [.symbol .rightParen]) Anything
      (fun w k => ∃ v, TooLate v k ∧ w = .symbol .leftParen :: v) := by
  have hclose := fun clauses => ((candid_symbol .rightParen).andThen fun _ =>
    .pure (F := Anything) (Statement.ofClauses table ifNotExists clauses)).upTo
      (X := fun _ _ => False)
  refine ((candid_symbol .leftParen).behind (fun _ => candidUpTo_clauses.bind (Z := TooLate) hclose
    ?_ ?_ fun _ hy => hy.elim) fun _ _ => trivial).respell exists_anything
    (reads_tableBody table ifNotExists) ?_
  · rintro _ _ _ k ⟨_, _, _, rfl, -, rfl⟩ -
    rfl
  · rintro w k (⟨rfl, cs, hcs⟩ | hlate)
    · exact .inl ⟨cs, _, w, _, [], hcs, ⟨(), _, _, rfl, ⟨rfl, rfl⟩, rfl⟩, rfl⟩
    · exact .inr hlate
  · rintro w k ⟨_, _, v, rfl, hv, rfl⟩
    exact ⟨v, hv, rfl⟩

/-- A statement suggests only what can come, but for what comes too late. -/
theorem candidUpTo_createTable :
    CandidUpTo createTable StatementSpelling Anything fun w k =>
      ∃ ifNotExists table v, TooLate v k ∧
        w = [.keyword .create, .keyword .table] ++ existenceWords ifNotExists ++
          [.identifier table, .symbol .leftParen] ++ v := by
  refine ((candid_keyword .create).behind (fun _ => (candid_keyword .table).behind (fun _ =>
    candid_ifNotExists.behind (fun ifNotExists => candid_identifier.behind (fun table =>
      candidUpTo_tableBody table ifNotExists) fun _ _ => trivial) ?_) fun _ _ => trivial)
    fun _ _ => trivial).respell exists_anything reads_createTable ?_
  · rintro _ _ _ k ⟨_, _, _, rfl, -, rfl⟩ -
    simp
  · rintro w k ⟨_, _, _, rfl, ⟨_, _, _, rfl, ⟨ifNotExists, _, _, rfl, ⟨table, _, _, rfl,
      ⟨v, hv, rfl⟩, rfl⟩, rfl⟩, rfl⟩, rfl⟩
    exact ⟨ifNotExists, table, v, hv, by simp⟩

/-- The tokens that a statement has consumed begin some statement. -/
theorem predictive_createTable : Predictive createTable StatementSpelling Anything :=
  candidUpTo_createTable.toPredictive

end TableSchema.Ddl
