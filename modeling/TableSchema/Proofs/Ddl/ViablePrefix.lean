import TableSchema.Proofs.Ddl.Rules

/-!
# Errors at the first hopeless token

Statements are read by a predictive parser: what it has consumed when it fails is the beginning of
something that it reads, and the token where it stopped has decided the failure. So an error is
about the first token with which the tokens before it no longer begin a statement.
-/

namespace TableSchema.Ddl

open Ddl.Parser Grammar

/-! ## Lists of tokens -/

/-- The last token of a list is an end of input, and the only one. -/
def ClosedByEnd (tokens : List Token) : Prop :=
  ∃ words close, tokens = words ++ [close] ∧ close.isEnd = true ∧ ∀ t ∈ words, t.isEnd = false

theorem ClosedByEnd.toList_ofTokens {tokens : List Token} (h : ClosedByEnd tokens) :
    (Cursor.ofTokens tokens).toList = tokens := by
  obtain ⟨words, close, rfl, hclose, -⟩ := h
  exact Ddl.toList_ofTokens (List.getLast?_concat ..) hclose

theorem Cursor.exists_toList (c : Cursor) : ∃ rest, c.toList = c.current :: rest := by
  obtain ⟨_ | ⟨t, ts⟩, last, _⟩ := c
  · exact ⟨[], rfl⟩
  · exact ⟨ts ++ [last], rfl⟩

/-- Before any token of a list there is a cursor on it. -/
theorem exists_cursor (front rest : List Token) (t : Token) :
    ∃ c : Cursor, Cursor.ofTokens (front ++ t :: rest) = c.putBack front ∧ c.current = t := by
  refine ⟨.ofTokens (t :: rest), ofTokens_append front (List.cons_ne_nil t rest), ?_⟩
  obtain ⟨rest', hrest⟩ := (Cursor.ofTokens (t :: rest)).exists_toList
  exact (List.cons.inj (hrest.symm.trans (toList_ofTokens_eq_append (t :: rest)))).1

/-- A run over a statement goes on from the one over its `CREATE TABLE`: the end of input has to
come next. -/
theorem runFrom_statement (c : Cursor) :
    statement.runFrom c =
      match createTable.runFrom c with
      | (.error e, c') => (.error e, c')
      | (.ok s, c') =>
        if c'.current.kind = .endOfInput then (.ok s, c'.advance)
        else (.error (.expected [.endOfInput] c'.current), c') := by
  rw [statement, runFrom_bind]
  rcases createTable.runFrom c with ⟨_ | s, c'⟩
  · rfl
  · simp only [runFrom_bind, takesOne_atEnd c']
    by_cases hk : c'.current.kind = .endOfInput
    · simp only [hk, if_true, runFrom_pure]
    · simp only [hk, if_false]

theorem fst_runFrom_statement {c c' : Cursor} {answer : Except ParseError Statement}
    (h : createTable.runFrom c = (answer, c')) :
    (statement.runFrom c).1 = answer.bind fun s =>
      if c'.current.kind = .endOfInput then .ok s
      else .error (.expected [.endOfInput] c'.current) := by
  rw [runFrom_statement, h]
  cases answer with
  | error e => rfl
  | ok s => exact apply_ite Prod.fst _ _ _

/-- Some token of a closed list decides what the list is. Lists whose tokens have the same kinds up
to there are the same statement, or are refused for the same reason at that token, and what comes
before it is the beginning of a statement. -/
theorem exists_decisive_token {tokens : List Token} (h : ClosedByEnd tokens) :
    ∃ (front : List Token) (t : Token) (rest : List Token) (answer : Except ParseError Statement),
      tokens = front ++ t :: rest ∧
        (∀ front' t' rest', front'.map Token.kind = front.map Token.kind → t'.kind = t.kind →
          ClosedByEnd (front' ++ t' :: rest') →
            Statement.ofTokens (front' ++ t' :: rest') = answer.mapError (·.reportedAt t')) ∧
        ∃ s w, StatementSpelling s (front.map Token.kind ++ w) := by
  obtain ⟨front, c, answer, hc, halike⟩ :=
    predictive_createTable.decided (Cursor.ofTokens tokens)
  obtain ⟨rest, hrest⟩ := c.exists_toList
  refine ⟨front, c.current, rest, answer.bind fun s =>
    if c.current.kind = .endOfInput then .ok s
    else .error (.expected [.endOfInput] c.current), ?_, ?_, ?_⟩
  · rw [← h.toList_ofTokens, hc, Cursor.toList_putBack, hrest]
  · intro front' t' rest' hfront hkind hclosed
    obtain ⟨d, hd, rfl⟩ := exists_cursor front' rest' t'
    rw [Statement.ofTokens, hd, fst_runFrom_statement (halike d front' hfront hkind), hkind]
    cases answer with
    | error e => rfl
    | ok s =>
      by_cases hend : c.current.kind = .endOfInput
      · simp only [Except.mapError, Except.bind, hend, if_true]
      · simp only [Except.mapError, Except.bind, hend, if_false, ParseError.reportedAt]
  · have hrun := halike c front rfl rfl
    cases answer with
    | error e =>
      -- the run failed, and what it consumed can be completed
      obtain ⟨front', hfront, -, s, w, hw⟩ := predictive_createTable.exists_completion hrun
      obtain rfl := Cursor.putBack_inj hfront
      exact ⟨s, w, hw⟩
    | ok s =>
      obtain ⟨front', hfront, -, hw⟩ := predictive_createTable.sound hrun
      obtain rfl := Cursor.putBack_inj hfront
      exact ⟨s, [], by rwa [List.append_nil]⟩

/-- Tokens that begin a statement can be continued to one. -/
theorem exists_statement_of_prefix {front : List Token} {s : Statement} {w : List TokenKind}
    (hw : StatementSpelling s (front.map Token.kind ++ w)) :
    ∃ rest, ClosedByEnd (front ++ rest) ∧ Statement.ofTokens (front ++ rest) = .ok s := by
  let more : List Token := w.map (⟨·, "", .start⟩)
  have hmore : (front ++ more).map Token.kind = front.map Token.kind ++ w := by
    simp [more, Function.comp_def]
  rw [← hmore] at hw
  have hend := endOfInput_not_mem_of_spelling hw
  refine ⟨more ++ [.soleEnd], ⟨front ++ more, .soleEnd, (List.append_assoc ..).symm, rfl, ?_⟩, ?_⟩
  · intro t ht
    rw [Token.isEnd, beq_eq_false_iff_ne]
    exact fun hk => hend (hk ▸ List.mem_map_of_mem ht)
  · rw [ofTokens_eq_ok_iff_spelling, ← List.append_assoc, kindsBeforeEnd_append hend]
    exact (List.append_nil _).symm ▸ hw

/-- **An error is found at the first token that no statement could have there.** Where a closed list
of tokens is refused, the error is about a token of the list such that every closed list that agrees
with it up to this token is refused with the same error, while some closed list that agrees with it
before this token is a statement. -/
theorem error_at_first_hopeless_token (tokens : List Token) (e : ParseError)
    (hclosed : ClosedByEnd tokens) (he : Statement.ofTokens tokens = .error e) :
    ∃ (k : Nat) (hk : k < tokens.length), e.found = tokens[k] ∧
      (∀ tokens', ClosedByEnd tokens' → tokens'.take (k + 1) = tokens.take (k + 1) →
        Statement.ofTokens tokens' = .error e) ∧
      ∃ tokens' s, ClosedByEnd tokens' ∧ tokens'.take k = tokens.take k ∧
        Statement.ofTokens tokens' = .ok s := by
  obtain ⟨front, t, rest, answer, rfl, halike, s, w, hw⟩ := exists_decisive_token hclosed
  rw [halike front t rest rfl rfl hclosed] at he
  obtain ⟨e', rfl⟩ : ∃ e', answer = .error e' := by
    cases answer with
    | error e' => exact ⟨e', rfl⟩
    | ok s => cases he
  obtain rfl : e'.reportedAt t = e := Except.error.inj he
  refine ⟨front.length, by simp, by simp, ?_, ?_⟩
  · intro tokens' hclosed' htake
    have hsplit : tokens' = front ++ t :: tokens'.drop (front.length + 1) := by
      rw [List.take_length_add_append] at htake
      calc tokens' = tokens'.take (front.length + 1) ++ tokens'.drop (front.length + 1) :=
            (List.take_append_drop ..).symm
        _ = front ++ t :: tokens'.drop (front.length + 1) := by
            rw [htake, List.append_assoc]
            rfl
    rw [hsplit] at hclosed' ⊢
    exact halike front t _ rfl rfl hclosed'
  · obtain ⟨rest', hclosed', hok⟩ := exists_statement_of_prefix hw
    exact ⟨front ++ rest', s, hclosed', by simp, hok⟩

/-- `CREATE TABLE t (a int, PRIMARY KEY (a), b int)`, where the column `b` comes too late. -/
def lateColumn : List Token :=
  ([.keyword .create, .keyword .table, .identifier "t", .symbol .leftParen, .identifier "a",
    .identifier "int", .symbol .comma, .keyword .primary, .keyword .key, .symbol .leftParen,
    .identifier "a", .symbol .rightParen, .symbol .comma, .identifier "b", .identifier "int",
    .symbol .rightParen, .endOfInput] : List TokenKind).map (⟨·, "", .start⟩)

/-- The column is refused at its name, whatever comes after it. -/
theorem error_at_late_column :
    ∃ (k : Nat) (hk : k < lateColumn.length), lateColumn[k].kind = .identifier "b" ∧
      ∀ tokens, ClosedByEnd tokens → tokens.take (k + 1) = lateColumn.take (k + 1) →
        Statement.ofTokens tokens = .error (.misplaced ⟨.identifier "b", "", .start⟩) := by
  obtain ⟨k, hk, hfound, halike, -⟩ := error_at_first_hopeless_token lateColumn
    (.misplaced ⟨.identifier "b", "", .start⟩)
    ⟨lateColumn.dropLast, .soleEnd, rfl, rfl, by decide⟩ (by decide +kernel)
  exact ⟨k, hk, congrArg Token.kind hfound.symm, halike⟩

end TableSchema.Ddl
