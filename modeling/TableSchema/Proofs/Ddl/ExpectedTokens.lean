import TableSchema.Ddl.Lexer
import TableSchema.Proofs.Ddl.ViablePrefix

/-!
# Expected tokens

Where a list of tokens is refused with kinds that were expected, a token of any of these kinds could
have come there. The one exception is the start of a clause behind a comma, where the groups of clauses
that were left behind are named with the others: a clause of such a group is then refused itself, at its
first token and whatever comes after it (`Refuses`).
-/

namespace TableSchema.Ddl

open Ddl.Parser Grammar

/-! ## Refusals -/

section Refusals

variable {α β : Type} {p : Parser α} {w : List TokenKind} {k : TokenKind}

/-- After tokens of some kinds, a parser refuses a token of a kind as misplaced. -/
def Refuses (p : Parser α) (w : List TokenKind) (k : TokenKind) : Prop :=
  ∀ (c : Cursor) (front : List Token), front.map Token.kind = w → c.current.kind = k →
    p.runFrom (c.putBack front) = (.error (.misplaced c.current), c)

theorem Refuses.bind {q : α → Parser β} (hp : Refuses p w k) : Refuses (p >>= q) w k := by
  intro c front hw hk
  rw [runFrom_bind, hp c front hw hk]

/-- What the second part of a sequence refuses, the sequence refuses behind what the first reads. -/
theorem Refuses.behind {S : α → List TokenKind → Prop} {F : α → TokenKind → Prop}
    {q : α → Parser β} {a : α} {u : List TokenKind} (hp : Reads p S F) (hu : S a u)
    (hF : F a (w.headD k)) (hq : Refuses (q a) w k) : Refuses (p >>= q) (u ++ w) k := by
  intro c front hw hk
  obtain ⟨front, back, rfl, rfl, rfl⟩ := List.map_eq_append_iff.mp hw
  have hfollow : F a (c.putBack back).current.kind := by
    rw [Cursor.kind_current_putBack, hk]
    exact hF
  rw [Cursor.putBack_append, runFrom_bind_of_ok (hp.complete hu hfollow)]
  exact hq c back rfl hk

end Refusals

/-! ## Clauses that come too late -/

theorem refuses_nextClause {reached : ClauseGroup} {k : TokenKind} (hk : StartsEarlier reached k) :
    Refuses
      (do
        if ← consumeIf (.symbol .comma) then return some (← laterClause reached)
        else return none)
      [.symbol .comma] k := by
  have hlater : Refuses (laterClause reached) [] k := by
    rintro c front hw rfl
    obtain rfl := List.map_eq_nil_iff.mp hw
    obtain ⟨g, hg, hlt⟩ := hk
    rw [Cursor.putBack_nil, runFrom_laterClause, laterClauseOfKind, hg]
    simp only [hlt, if_true]
    rfl
  intro c front hw hc
  obtain ⟨t, rfl, ht⟩ := List.map_eq_singleton_iff.mp hw
  rw [runFrom_ifConsumed (isFixed_symbol .comma), Cursor.current_putBack_cons, if_pos ht]
  exact hlater.bind c [] rfl hc

theorem LateClauses.headD_eq_comma {g : ClauseGroup} {w : List TokenKind} {k : TokenKind}
    (h : LateClauses g w k) : w.headD k = .symbol .comma := by
  cases h with
  | here h =>
    rw [h.1]
    rfl
  | step hs _ =>
    obtain ⟨_, -, rfl⟩ := hs
    rfl

/-- A repetition takes the clauses that may come, one after the other, up to the first that comes
too late. -/
theorem LateClauses.refuses {g : ClauseGroup} {w : List TokenKind} {k : TokenKind}
    (h : LateClauses g w k) :
    Refuses
      (collect
        (fun reached => do
          if ← consumeIf (.symbol .comma) then return some (← laterClause reached)
          else return none) g) w k := by
  induction h with
  | here h =>
    obtain ⟨rfl, hk⟩ := h
    exact fun c front hw hc => runFrom_collect_of_error (refuses_nextClause hk c front hw hc)
  | @step g g' a u v k hs hlate ih =>
    intro c front hw hc
    obtain ⟨front, back, rfl, rfl, rfl⟩ := List.map_eq_append_iff.mp hw
    have hfollow : EndsClause (c.putBack back).current.kind := by
      rw [Cursor.kind_current_putBack, hc, LateClauses.headD_eq_comma hlate]
      exact .inl rfl
    have hne : front ≠ [] := by
      rintro rfl
      obtain ⟨_, -, hu⟩ := hs
      cases hu
    have hrun := (candidUpTo_nextClause g).toReads.complete (a := some (a, g')) hs hfollow
    rw [Cursor.putBack_append, runFrom_collect_of_some hne hrun (ih c back rfl hc)]
    rfl

/-- A clause that comes too late is refused by the rule for the clauses. -/
theorem TooLate.refuses {w : List TokenKind} {k : TokenKind} (h : TooLate w k) :
    Refuses clauses w k := by
  obtain ⟨first, u, v, hfirst, hlate, rfl⟩ := h
  refine .behind (reads_clause .columns) hfirst (.inl ?_) (LateClauses.refuses hlate).bind
  exact LateClauses.headD_eq_comma hlate

/-- The clause that comes too late is reported, whatever comes after its first token. -/
theorem refuses_createTable {v : List TokenKind} {k : TokenKind} (h : TooLate v k)
    (ifNotExists : Bool) (table : String) :
    Refuses createTable
      ([.keyword .create, .keyword .table] ++ existenceWords ifNotExists ++
        [.identifier table, .symbol .leftParen] ++ v) k := by
  have hbody : Refuses
      (do
        symbol .leftParen
        let clauses ← clauses
        symbol .rightParen
        return Statement.ofClauses table ifNotExists clauses)
      ([.symbol .leftParen] ++ v) k :=
    .behind (reads_symbol .leftParen) (a := ()) rfl trivial h.refuses.bind
  have hall : Refuses createTable _ k :=
    .behind (reads_keyword .create) (a := ()) rfl trivial <|
      .behind (reads_keyword .table) (a := ()) rfl trivial <|
        .behind reads_ifNotExists rfl (by simp) <|
          .behind reads_identifier rfl trivial hbody
  simpa using hall

/-! ### What is ahead of the comma -/

theorem commaSeparated_concat {α : Type} {S : α → List TokenKind → Prop} {as : List α} {a : α}
    {w u : List TokenKind} (h : CommaSeparated S as w) (ha : S a u) :
    CommaSeparated S (as ++ [a]) (w ++ .symbol .comma :: u) := by
  induction h with
  | single hb => exact .more hb (.single ha)
  | more hb _ ih =>
    rw [List.cons_append, List.append_assoc, List.cons_append]
    exact .more hb ih

theorem InOrder.concat {cs : List Clause} {c d : Clause} (h : InOrder (cs ++ [c]))
    (hle : c.group.rank ≤ d.group.rank) : InOrder (cs ++ [c] ++ [d]) := by
  obtain ⟨hpw, hhead⟩ := h
  have hlast : ∀ b ∈ cs ++ [c], b.group.rank ≤ c.group.rank :=
    List.forall_mem_append.mpr ⟨fun b hb => (List.pairwise_append.mp hpw).2.2 b hb c (by simp),
      by simp⟩
  refine ⟨List.pairwise_append.mpr ⟨hpw, List.pairwise_singleton .., fun b hb e he => ?_⟩, ?_⟩
  · obtain rfl := List.mem_singleton.mp he
    exact Nat.le_trans (hlast b hb) hle
  · rw [List.head?_append_of_ne_nil _ (by simp)]
    exact hhead

/-- The clauses of a table in order, the last of which is of a group. -/
def Reaches (g : ClauseGroup) (w : List TokenKind) : Prop :=
  ∃ cs c, CommaSeparated ClauseSpelling (cs ++ [c]) w ∧ InOrder (cs ++ [c]) ∧ c.group = g

/-- One more clause in order reaches one group further. -/
theorem Reaches.step {g g' : ClauseGroup} {c : Clause} {w u : List TokenKind} (h : Reaches g w)
    (hs : AfterComma LaterClause g c g' u) : Reaches g' (w ++ u) := by
  obtain ⟨cs, d, hcs, horder, rfl⟩ := h
  obtain ⟨u, ⟨hc, rfl, hle⟩, rfl⟩ := hs
  exact ⟨cs ++ [d], c, commaSeparated_concat hcs hc, horder.concat hle, rfl⟩

/-- Behind any clauses in order, a late one is reached at the comma before it. -/
theorem LateClauses.exists_reaches {g : ClauseGroup} {w v : List TokenKind} {k : TokenKind}
    (hlate : LateClauses g v k) (h : Reaches g w) :
    ∃ g' w', Reaches g' w' ∧ StartsEarlier g' k ∧ w ++ v = w' ++ [.symbol .comma] := by
  induction hlate generalizing w with
  | here hk => exact ⟨_, w, h, hk.2, by rw [hk.1]⟩
  | step hs _ ih =>
    obtain ⟨g', w', hw', hk, heq⟩ := ih (h.step hs)
    exact ⟨g', w', hw', hk, by rw [← heq, List.append_assoc]⟩

/-- The beginning of a statement up to a comma behind a clause of a group. -/
def StopsBehind (g : ClauseGroup) (w : List TokenKind) : Prop :=
  ∃ ifNotExists table v, Reaches g v ∧
    w = [.keyword .create, .keyword .table] ++ existenceWords ifNotExists ++
      [.identifier table, .symbol .leftParen] ++ v ++ [.symbol .comma]

theorem TooLate.exists_stopsBehind {v : List TokenKind} {k : TokenKind} (h : TooLate v k)
    (ifNotExists : Bool) (table : String) :
    ∃ g, StartsEarlier g k ∧ StopsBehind g
      ([.keyword .create, .keyword .table] ++ existenceWords ifNotExists ++
        [.identifier table, .symbol .leftParen] ++ v) := by
  obtain ⟨first, u, v, ⟨hfirst, hg⟩, hlate, rfl⟩ := h
  have hreaches : Reaches .columns u :=
    ⟨[], first, .single hfirst, ⟨List.pairwise_singleton .., by simpa using hg⟩, hg⟩
  obtain ⟨g, w, hw, hk, heq⟩ := LateClauses.exists_reaches hlate hreaches
  exact ⟨g, hk, ifNotExists, table, w, hw, by rw [heq, ← List.append_assoc]⟩

/-! ## Expected tokens -/

/-- Where a spelling goes on with a token, the tokens up to there go on to a statement. -/
theorem exists_statement_of_continues {front : List Token} {t : Token}
    (h : Continues StatementSpelling (front.map Token.kind) t.kind) :
    ∃ more s, ClosedByEnd (front ++ t :: more) ∧ Statement.ofTokens (front ++ t :: more) = .ok s := by
  obtain ⟨s, w, hw⟩ := h
  have hw' : StatementSpelling s ((front ++ [t]).map Token.kind ++ w) := by
    rwa [List.map_append, List.append_assoc]
  obtain ⟨more, hclosed, hok⟩ := exists_statement_of_prefix hw'
  rw [List.append_assoc] at hclosed hok
  exact ⟨more, s, hclosed, hok⟩

/-- Where the end of input is expected, it can be put. -/
theorem ofTokens_concat_end {front : List Token} {t : Token} {s : Statement}
    (hs : StatementSpelling s (front.map Token.kind)) (ht : t.isEnd = true) :
    ClosedByEnd (front ++ [t]) ∧ Statement.ofTokens (front ++ [t]) = .ok s := by
  have hend := endOfInput_not_mem_of_spelling hs
  refine ⟨⟨front, t, rfl, ht, fun u hu => ?_⟩, ?_⟩
  · rw [Token.isEnd, beq_eq_false_iff_ne]
    exact fun hk => hend (hk ▸ List.mem_map_of_mem hu)
  · rw [ofTokens_eq_ok_iff_spelling, kindsBeforeEnd_append hend]
    have hnone : kindsBeforeEnd [t] = [] := by simp [kindsBeforeEnd, ht]
    rwa [hnone, List.append_nil]

/-- **Expected tokens can follow.** Where a closed list of tokens is refused with kinds that were
expected, the parser stands at the token that it names as found. Ahead of this token, any token of
any of these kinds goes on to a statement. The exception is behind a comma that follows a clause:
there a token that starts a clause of an earlier group is named too, and is refused whatever comes
after it. -/
theorem expected_tokens_can_follow {tokens : List Token} {kinds : List TokenKind} {found : Token}
    (hclosed : ClosedByEnd tokens)
    (h : Statement.ofTokens tokens = .error (.expected kinds found)) :
    ∃ front rest, tokens = front ++ found :: rest ∧
      (statement.runFrom (.ofTokens tokens)).2.toList = found :: rest ∧
      ∀ wanted ∈ kinds, ∀ t : Token, t.kind.accepts wanted = true →
        (∃ more s, ClosedByEnd (front ++ t :: more) ∧
          Statement.ofTokens (front ++ t :: more) = .ok s) ∨
        ∃ g, StopsBehind g (front.map Token.kind) ∧ StartsEarlier g t.kind ∧
          ∀ more, Statement.ofTokens (front ++ t :: more) = .error (.misplaced t) := by
  rw [Statement.ofTokens] at h
  rcases hrun : createTable.runFrom (.ofTokens tokens) with ⟨e | s, c⟩
  · -- the statement is given up inside of its `CREATE TABLE`
    rw [runFrom_statement, hrun] at h ⊢
    obtain rfl : e = .expected kinds found := Except.error.inj h
    obtain rfl : found = c.current := predictive_createTable.decided.found_eq_current hrun
    obtain ⟨front, hc, hkinds⟩ := candidUpTo_createTable.suggests hrun
    obtain ⟨rest, hrest⟩ := c.exists_toList
    refine ⟨front, rest, ?_, hrest, fun wanted hwanted t ht => ?_⟩
    · rw [← hrest, ← Cursor.toList_putBack, ← hc, hclosed.toList_ofTokens]
    · obtain hgoes | ⟨ifNotExists, table, v, hlate, hfront⟩ := hkinds wanted hwanted t.kind ht
      · exact .inl (exists_statement_of_continues hgoes)
      · obtain ⟨g, hearlier, hstops⟩ := hlate.exists_stopsBehind ifNotExists table
        refine .inr ⟨g, hfront ▸ hstops, hearlier, fun more => ?_⟩
        obtain ⟨d, hd, rfl⟩ := exists_cursor front more t
        rw [Statement.ofTokens, hd, runFrom_statement,
          refuses_createTable hlate ifNotExists table d front hfront rfl]
  · -- the `CREATE TABLE` is read, and something else than the end of input comes next
    obtain ⟨front, hc, -, hs⟩ := predictive_createTable.sound hrun
    rw [runFrom_statement, hrun] at h ⊢
    by_cases hend : c.current.kind = .endOfInput
    · simp only [hend, if_true] at h
      cases h
    · simp only [hend, if_false, Except.error.injEq, ParseError.expected.injEq] at h ⊢
      obtain ⟨rfl, rfl⟩ := h
      obtain ⟨rest, hrest⟩ := c.exists_toList
      refine ⟨front, rest, ?_, hrest, fun wanted hwanted t ht => .inl ⟨[], s, ?_⟩⟩
      · rw [← hrest, ← Cursor.toList_putBack, ← hc, hclosed.toList_ofTokens]
      · obtain rfl := List.mem_singleton.mp hwanted
        refine ofTokens_concat_end hs ?_
        cases hk : t.kind <;> simp [hk, TokenKind.accepts, Token.isEnd] at ht ⊢

/-- `CREATE TABLE t (a int, PRIMARY KEY (a), )`, with a comma too many. -/
def danglingComma : List Token :=
  [⟨.keyword .create, "CREATE", ⟨0, 1, 1⟩⟩, ⟨.keyword .table, "TABLE", ⟨7, 1, 8⟩⟩,
    ⟨.identifier "t", "t", ⟨13, 1, 14⟩⟩, ⟨.symbol .leftParen, "(", ⟨15, 1, 16⟩⟩,
    ⟨.identifier "a", "a", ⟨16, 1, 17⟩⟩, ⟨.identifier "int", "int", ⟨18, 1, 19⟩⟩,
    ⟨.symbol .comma, ",", ⟨21, 1, 22⟩⟩, ⟨.keyword .primary, "PRIMARY", ⟨23, 1, 24⟩⟩,
    ⟨.keyword .key, "KEY", ⟨31, 1, 32⟩⟩, ⟨.symbol .leftParen, "(", ⟨35, 1, 36⟩⟩,
    ⟨.identifier "a", "a", ⟨36, 1, 37⟩⟩, ⟨.symbol .rightParen, ")", ⟨37, 1, 38⟩⟩,
    ⟨.symbol .comma, ",", ⟨38, 1, 39⟩⟩, ⟨.symbol .rightParen, ")", ⟨40, 1, 41⟩⟩,
    ⟨.endOfInput, "", ⟨41, 1, 42⟩⟩]

theorem closedByEnd_danglingComma : ClosedByEnd danglingComma :=
  ⟨danglingComma.dropLast, ⟨.endOfInput, "", ⟨41, 1, 42⟩⟩, rfl, rfl, by decide⟩

theorem ofTokens_danglingComma : Statement.ofTokens danglingComma =
    .error (.expected [.identifier "", .keyword .primary, .keyword .foreign, .keyword .constraint,
      .keyword .check] ⟨.symbol .rightParen, ")", ⟨40, 1, 41⟩⟩) := by
  decide +kernel

/-- Behind the comma, a check could have come. -/
theorem check_can_follow_dangling_comma :
    ∃ front rest, danglingComma = front ++ ⟨.symbol .rightParen, ")", ⟨40, 1, 41⟩⟩ :: rest ∧
      ∃ more s, ClosedByEnd (front ++ ⟨.keyword .check, "CHECK", ⟨40, 1, 41⟩⟩ :: more) ∧
        Statement.ofTokens (front ++ ⟨.keyword .check, "CHECK", ⟨40, 1, 41⟩⟩ :: more) = .ok s := by
  obtain ⟨front, rest, hsplit, -, hfollow⟩ :=
    expected_tokens_can_follow closedByEnd_danglingComma ofTokens_danglingComma
  refine ⟨front, rest, hsplit, (hfollow (.keyword .check) (by simp) ⟨.keyword .check, "CHECK", _⟩
    rfl).resolve_right ?_⟩
  -- checks are the last group, which comes before no other
  rintro ⟨g, -, ⟨g', hg', hlt⟩, -⟩
  cases hg'
  cases g <;> revert hlt <;> decide

/-- A name is expected behind the comma too, but no name can come there: the tokens up to it do not
go on to a statement. -/
theorem name_cannot_follow_dangling_comma :
    tokenize "CREATE TABLE t (a int, PRIMARY KEY (a), )" = .ok danglingComma ∧
      ClosedByEnd danglingComma ∧ danglingComma.Nodup ∧
      (∃ kinds, .identifier "" ∈ kinds ∧
        Statement.ofTokens danglingComma = .error (.expected kinds danglingComma[13])) ∧
      ∀ (t : Token) (more : List Token) (s : Statement), t.kind.accepts (.identifier "") = true →
        Statement.ofTokens (danglingComma.take 13 ++ t :: more) ≠ .ok s := by
  refine ⟨by decide +kernel, closedByEnd_danglingComma, by decide +kernel,
    ⟨_, List.mem_cons_self, ofTokens_danglingComma⟩, fun t more s ht hok => ?_⟩
  obtain ⟨name, hname⟩ := TokenKind.exists_of_accepts_identifier ht
  have hcolumn : ColumnSpelling ⟨"a", ⟨"int", []⟩, []⟩ [.identifier "a", .identifier "int"] :=
    ⟨[], [], .none, .nil, rfl⟩
  have hkey : ClauseSpelling (.primaryKey ["a"]) [.keyword .primary, .keyword .key,
      .symbol .leftParen, .identifier "a", .symbol .rightParen] :=
    .primaryKey ⟨_, .single rfl, rfl⟩
  have hearlier : StartsEarlier .primaryKeys t.kind := ⟨.columns, by rw [hname]; rfl, by decide⟩
  have hlate : TooLate _ t.kind :=
    ⟨_, _, _, ⟨.column hcolumn, rfl⟩,
      .step ⟨_, ⟨hkey, rfl, by decide⟩, rfl⟩ (.here ⟨rfl, hearlier⟩), rfl⟩
  obtain ⟨c, hc, rfl⟩ := exists_cursor (danglingComma.take 13) more t
  rw [Statement.ofTokens, hc, runFrom_statement,
    refuses_createTable hlate false "t" c (danglingComma.take 13) rfl rfl] at hok
  cases hok

end TableSchema.Ddl
