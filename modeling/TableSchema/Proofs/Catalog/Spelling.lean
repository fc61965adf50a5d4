import TableSchema.Proofs.Catalog.Meaning
import TableSchema.Proofs.Ddl.Respelling
import TableSchema.Proofs.Ddl.ViablePrefix

/-!
# The spelling of a definition does not matter

Two texts whose tokens have the same kinds define the same table, or are refused for the same
reason; where an error is about a token, it is about the tokens in the same place. And there are
many texts with tokens of the same kinds: blanks, the case of reserved words and the quotes of names
can be chosen anew at every token of a text.
-/

namespace TableSchema.Catalog

open Ddl

/-- The tokens of a text are closed by the end of the text. -/
theorem closedByEnd_of_tokenize {text : String} {tokens : List Token}
    (h : tokenize text = .ok tokens) : ClosedByEnd tokens := by
  obtain ⟨words, close, rfl, hclose, -, -, hwords⟩ := (covers_of_tokenize h).exists_close
  exact ⟨words, close, rfl, beq_iff_eq.mpr hclose,
    fun t ht => beq_eq_false_iff_ne.mpr (hwords t ht).1⟩

/-- Tokens of the same kinds are the same statement, or are refused for the same reason at the
token in the same place. -/
theorem ofTokens_of_same_kinds {tokens tokens' : List Token} (h : ClosedByEnd tokens)
    (h' : ClosedByEnd tokens') (hkinds : tokens.map Token.kind = tokens'.map Token.kind) :
    (∃ s, Statement.ofTokens tokens = .ok s ∧ Statement.ofTokens tokens' = .ok s) ∨
      ∃ (e e' : ParseError) (k : Nat), Statement.ofTokens tokens = .error e ∧
        Statement.ofTokens tokens' = .error e' ∧ e' = e.reportedAt e'.found ∧
        tokens[k]? = some e.found ∧ tokens'[k]? = some e'.found := by
  obtain ⟨front, t, rest, answer, rfl, halike, -⟩ := exists_decisive_token h
  rw [List.map_append, List.map_cons] at hkinds
  obtain ⟨front', rest', rfl, hfront, hrest⟩ := List.map_eq_append_iff.mp hkinds.symm
  obtain ⟨t', rest', rfl, ht, -⟩ := List.map_eq_cons_iff.mp hrest
  rw [halike front t rest rfl rfl h, halike front' t' rest' hfront ht h']
  cases answer with
  | ok s => exact .inl ⟨s, rfl, rfl⟩
  | error e =>
    refine .inr ⟨e.reportedAt t, e.reportedAt t', front.length, rfl, rfl, ?_, ?_, ?_⟩
    · cases e <;> rfl
    · simp
    · have hlength : front.length = front'.length := by
        simpa using (congrArg List.length hfront).symm
      rw [hlength]
      simp

/-- **The spelling of a definition does not matter.** Texts whose tokens have the same kinds define
the same table, lack a meaning for the same type name, or fail to parse for the same reason at the
token in the same place.

The tokens of a text stay of the same kinds when gaps are exchanged for others, reserved words
change the case of their letters and bare names are quoted. -/
theorem spelling_does_not_matter :
    (∀ (types : TypeTable) (text text' : String) (tokens tokens' : List Token),
      tokenize text = .ok tokens → tokenize text' = .ok tokens' →
      tokens.map Token.kind = tokens'.map Token.kind →
        (∃ table, Table.ofText types text = .ok table ∧ Table.ofText types text' = .ok table) ∨
        (∃ e, Table.ofText types text = .error (.unknownType e) ∧
          Table.ofText types text' = .error (.unknownType e)) ∨
        ∃ (e e' : ParseError) (k : Nat), Table.ofText types text = .error (.parse e) ∧
          Table.ofText types text' = .error (.parse e') ∧ e' = e.reportedAt e'.found ∧
          tokens[k]? = some e.found ∧ tokens'[k]? = some e'.found) ∧
    ∀ (text : String) (tokens : List Token), tokenize text = .ok tokens →
      ∃ blanks, gaps text.toList 0 tokens = blanks.map some ∧
        interleave blanks tokens = text.toList ∧
        ∀ text' : String, Respelled blanks tokens text'.toList →
          ∃ tokens', tokenize text' = .ok tokens' ∧
            tokens'.map Token.kind = tokens.map Token.kind := by
  refine ⟨fun types text text' tokens tokens' h h' hkinds => ?_, fun text tokens h => ?_⟩
  · rcases ofTokens_of_same_kinds (closedByEnd_of_tokenize h) (closedByEnd_of_tokenize h') hkinds
      with ⟨s, hs, hs'⟩ | ⟨e, e', k, he, he', hsame, hk, hk'⟩
    · cases hmodel : Table.ofStatement types s with
      | ok t =>
        exact .inl ⟨t, (ofText_eq_ok_iff h hs).mpr hmodel, (ofText_eq_ok_iff h' hs').mpr hmodel⟩
      | error e =>
        exact .inr (.inl ⟨e, (ofText_eq_unknownType_iff h hs).mpr hmodel,
          (ofText_eq_unknownType_iff h' hs').mpr hmodel⟩)
    · exact .inr (.inr ⟨e, e', k, (ofText_eq_parse_iff h).mpr he, (ofText_eq_parse_iff h').mpr he',
        hsame, hk, hk'⟩)
  · obtain ⟨blanks, hgaps, hblank, htext⟩ := (covers_of_tokenize h).exists_gaps
    exact ⟨blanks, hgaps, htext, fun text' => kinds_of_respelled h hblank htext⟩

/-- The tokens of `1EXISTS a`. -/
def numberAndExists : List Token :=
  [⟨.number "1", "1", ⟨0, 1, 1⟩⟩, ⟨.keyword .exists_, "EXISTS", ⟨1, 1, 2⟩⟩,
    ⟨.identifier "a", "a", ⟨8, 1, 9⟩⟩, ⟨.endOfInput, "", ⟨9, 1, 10⟩⟩]

/-- The number does not run on into the word, whose first letter could start an exponent, and the
backticks end the blank before them. -/
theorem spelling_does_not_matter_after_number :
    ∃ tokens', tokenize "1eXists\t\x60a\x60" = .ok tokens' ∧
      ∀ types, ∃ (e e' : ParseError) (k : Nat),
        Table.ofText types "1EXISTS a" = .error (.parse e) ∧
        Table.ofText types "1eXists\t\x60a\x60" = .error (.parse e') ∧
        e' = e.reportedAt e'.found ∧
        numberAndExists[k]? = some e.found ∧ tokens'[k]? = some e'.found := by
  have htokens : tokenize "1EXISTS a" = .ok numberAndExists := by decide +kernel
  have hrefused : Statement.ofTokens numberAndExists =
      .error (.expected [.keyword .create] ⟨.number "1", "1", ⟨0, 1, 1⟩⟩) := by rfl
  obtain ⟨hsame, hrespell⟩ := spelling_does_not_matter
  obtain ⟨blanks, hblanks, -, hrespelled⟩ := hrespell _ _ htokens
  obtain rfl : blanks = [[], [], [' '], []] := by
    have hgaps : gaps "1EXISTS a".toList 0 numberAndExists =
        [some [], some [], some [' '], some []] := by decide +kernel
    exact (List.map_inj_right fun _ _ => Option.some.inj).mp (hblanks.symm.trans hgaps)
  have hnew : Respelled [[], [], [' '], []] numberAndExists
      ([] ++ (['1'] ++ ([] ++ ("eXists".toList ++ (['\t'] ++ (['\x60', 'a', '\x60'] ++
        ([] ++ ([] ++ [])))))))) :=
    .cons (by simp [AreBlank]) id .same <|
      .cons (by simp [AreBlank]) id (.recased rfl (by unfold LexicalGrammar.Spells; decide)) <|
        .cons (by simp [AreBlank, Text.isBlank]) (by simp) (.quoted rfl rfl (.inr rfl)) <|
          .cons (by simp [AreBlank]) id .same .nil
  obtain ⟨tokens', htokens', hkinds⟩ := hrespelled "1eXists\t\x60a\x60" hnew
  refine ⟨tokens', htokens', fun types => ?_⟩
  have herror : Table.ofText types "1EXISTS a" = .error (.parse _) :=
    (ofText_eq_parse_iff htokens).mpr hrefused
  rcases hsame types _ _ _ _ htokens htokens' hkinds.symm with ⟨t, ht, -⟩ | ⟨e, he, -⟩ | hparse
  · rw [herror] at ht
    cases ht
  · rw [herror] at he
    cases he
  · exact hparse

end TableSchema.Catalog
