import TableSchema.Ddl.Rendering
import TableSchema.Proofs.Ddl.Acceptance
import TableSchema.Proofs.Ddl.Coverage
import TableSchema.Proofs.Ddl.Spacing

/-!
# Statements and their texts

The statements that texts say are the well-formed ones.

* A spelling is made of kinds that can be written if and only if the statement that it spells can
  be written (`reflects_statement`), and the lexer finds only such kinds.
* A well-formed statement has a spelling, and the words of that spelling, with a space between each
  two, are lexemes between blanks. So the lexer reads the spelling back, and the parser the
  statement.
-/

namespace TableSchema.Ddl

open Lexeme LexicalGrammar Grammar Lexer

/-! ## Kinds that can be written -/

/-- Kinds of tokens that can all be written. -/
def AllWellFormed (w : List TokenKind) : Prop := ∀ k ∈ w, k.WellFormed

@[simp] theorem allWellFormed_nil : AllWellFormed [] := fun _ h => absurd h List.not_mem_nil

@[simp] theorem allWellFormed_cons {k : TokenKind} {w : List TokenKind} :
    AllWellFormed (k :: w) ↔ k.WellFormed ∧ AllWellFormed w :=
  List.forall_mem_cons

/-- A list of kinds is well formed if its parts are. -/
@[simp] theorem allWellFormed_append {u v : List TokenKind} :
    AllWellFormed (u ++ v) ↔ AllWellFormed u ∧ AllWellFormed v :=
  List.forall_mem_append

@[simp] theorem wellFormed_keyword (k : Keyword) : (TokenKind.keyword k).WellFormed := trivial

@[simp] theorem wellFormed_symbol (mark : Symbol) : (TokenKind.symbol mark).WellFormed := trivial

/-- What stands in a text is well formed. -/
theorem wellFormed_of_isLexeme {front : List Char} {k : TokenKind} (h : IsLexeme front k) :
    k.WellFormed := by
  cases h with
  | keyword => trivial
  | symbol => trivial
  | name hword =>
    -- a bare word may be a name too, and holds neither quote
    have hquote : ¬IsWordPart '"' := by
      unfold IsWordPart IsWordStart
      decide
    rw [TokenKind.WellFormed, WellFormedName, String.toList_ofList]
    exact .inl fun hmem => hquote (isWordPart_of_mem hword _ hmem)
  | number hnumber =>
    rw [TokenKind.WellFormed, WellFormedNumber, String.toList_ofList]
    exact hnumber
  | string hbody =>
    rw [TokenKind.WellFormed, WellFormedString, String.toList_ofList]
    exact hbody
  | quotedName hquote hbody =>
    rw [TokenKind.WellFormed, WellFormedName, String.toList_ofList]
    obtain rfl | rfl := hquote
    · exact .inl hbody
    · exact .inr hbody

/-- Keywords are spelled as words. -/
theorem isWord_text (k : Keyword) : IsWord k.text.toList := by
  have htext : ∃ c cs, k.text.toList = c :: cs ∧ startsWord c = true ∧ cs.all inWord = true := by
    cases k <;> exact ⟨_, _, rfl, rfl, rfl⟩
  obtain ⟨c, cs, htext, hc, hcs⟩ := htext
  rw [htext]
  exact ⟨startsWord_iff.mp hc, fun d hd => inWord_iff.mp (List.all_eq_true.mp hcs d hd)⟩

/-- A kind is written as a lexeme of the kind. -/
theorem isLexeme_of_writtenAs {k : TokenKind} {word : List Char} (hk : k.WellFormed)
    (h : WrittenAs k word) : IsLexeme word k := by
  cases h with
  | keyword k => exact .keyword (isWord_text k) (by cases k <;> rfl)
  | symbol mark =>
    have hmark : (mark.text.toList, mark) ∈ spellings := by cases mark <;> decide
    exact .symbol hmark
  | @identifier quote name hquote hname =>
    have h : IsLexeme (quote :: name.toList ++ [quote]) _ := .quotedName hquote hname
    rwa [String.ofList_toList] at h
  | number text =>
    have h : IsLexeme text.toList _ := .number hk
    rwa [String.ofList_toList] at h
  | string text =>
    have h : IsLexeme ('\'' :: text.toList ++ ['\'']) _ := .string hk
    rwa [String.ofList_toList] at h

/-! ## Spellings that can be written -/

section Reflects

variable {α : Type} {S : α → List TokenKind → Prop} {P : α → Prop}

/-- The spellings of what has a property are those that can be written. -/
def Reflects (S : α → List TokenKind → Prop) (P : α → Prop) : Prop :=
  ∀ a w, S a w → (AllWellFormed w ↔ P a)

/-- A list between commas has something in it. -/
theorem ne_nil_of_commaSeparated {as : List α} {w : List TokenKind} (h : CommaSeparated S as w) :
    as ≠ [] := by
  cases h <;> exact List.cons_ne_nil _ _

/-- Every separated item has a spelling of its own. -/
theorem exists_spelling_of_commaSeparated {as : List α} {w : List TokenKind}
    (h : CommaSeparated S as w) : ∀ a ∈ as, ∃ v, S a v := by
  induction h with
  | single ha => exact List.forall_mem_singleton.mpr ⟨_, ha⟩
  | more ha _ ih => exact List.forall_mem_cons.mpr ⟨⟨_, ha⟩, ih⟩

/-- In a list between commas, each part is well formed. -/
theorem reflects_commaSeparated (h : Reflects S P) :
    Reflects (CommaSeparated S) fun as => ∀ a ∈ as, P a := by
  intro as w hw
  induction hw with
  | single ha => exact (h _ _ ha).trans List.forall_mem_singleton.symm
  | more ha _ ih =>
    rw [allWellFormed_append, allWellFormed_cons, and_iff_right (wellFormed_symbol _)]
    exact (and_congr (h _ _ ha) ih).trans List.forall_mem_cons.symm

/-- Parentheses are well formed in any case, so that what they enclose decides. -/
theorem reflects_parenthesized (h : Reflects S P) : Reflects (Parenthesized S) P := by
  rintro a _ ⟨v, hv, rfl⟩
  rw [← h a v hv]
  simp

end Reflects

/-- A name is well formed if its token is. -/
theorem reflects_name : Reflects Name WellFormedName := by
  rintro name _ rfl
  simp [TokenKind.WellFormed]

theorem ne_nil_of_names {names : List String} {w : List TokenKind} (h : Names names w) :
    names ≠ [] := by
  obtain ⟨v, hv, -⟩ := h
  exact ne_nil_of_commaSeparated hv

/-- So are the names of a list, of which there is one at least. -/
theorem reflects_names : Reflects Names WellFormedNames := by
  intro names w h
  rw [WellFormedNames, and_iff_right (ne_nil_of_names h)]
  exact reflects_parenthesized (reflects_commaSeparated reflects_name) names w h

/-- The sizes of a type are numbers, two at most. -/
theorem reflects_typeArguments :
    Reflects TypeArguments fun as => as.length ≤ 2 ∧ ∀ n ∈ as, WellFormedNumber n := by
  intro as w h
  cases h <;> simp [TokenKind.WellFormed]

/-- A default value is well formed if its token is. -/
theorem reflects_bareDefault : Reflects BareDefault DefaultValue.WellFormed := by
  intro v w h
  cases h <;> simp [TokenKind.WellFormed, DefaultValue.WellFormed]

/-- A modifier is well formed if its tokens are. -/
theorem reflects_modifierSpelling : Reflects ModifierSpelling Modifier.WellFormed := by
  intro m w h
  cases h with
  | notNull => simp [Modifier.WellFormed]
  | notNullWord => simp [Modifier.WellFormed]
  | autoIncrement => simp [Modifier.WellFormed]
  | default hv => simpa [Modifier.WellFormed] using reflects_bareDefault _ _ hv
  | parenthesizedDefault hv =>
    simpa [Modifier.WellFormed] using reflects_parenthesized reflects_bareDefault _ _ hv

theorem reflects_modifiers : Reflects Modifiers fun ms => ∀ m ∈ ms, m.WellFormed := by
  intro ms w h
  induction h with
  | nil => simp
  | cons hm _ ih =>
    rw [allWellFormed_append]
    exact (and_congr (reflects_modifierSpelling _ _ hm) ih).trans List.forall_mem_cons.symm

/-- A column is well formed if its tokens are. -/
theorem reflects_column : Reflects ColumnSpelling Column.WellFormed := by
  rintro c _ ⟨arguments, modifiers, harguments, hmodifiers, rfl⟩
  simp only [allWellFormed_append, allWellFormed_cons, allWellFormed_nil,
    reflects_typeArguments _ _ harguments, reflects_modifiers _ _ hmodifiers, TokenKind.WellFormed,
    Column.WellFormed, and_true, and_assoc]

/-- The table and the columns that are referred to are well formed if their tokens are. -/
theorem reflects_reference : Reflects Reference TableReference.WellFormed := by
  rintro r _ ⟨columns, hcolumns, rfl⟩
  rw [allWellFormed_cons, reflects_names _ _ hcolumns]
  rfl

theorem reflects_optionalReference :
    Reflects OptionalReference fun o => ∀ r ∈ o, r.WellFormed := by
  intro o w h
  cases h with
  | none => simp
  | some hr => simpa using reflects_reference _ _ hr

/-- A value of a check is well formed if its token is. -/
theorem reflects_checkValue : Reflects CheckValueSpelling CheckValue.WellFormed := by
  intro v w h
  cases h <;> simp [TokenKind.WellFormed, CheckValue.WellFormed]

theorem reflects_checkBody : Reflects CheckBody Check.WellFormed := by
  rintro c _ ⟨values, hvalues, rfl⟩
  have hne : c.values ≠ [] := by
    obtain ⟨v, hv, -⟩ := hvalues
    exact ne_nil_of_commaSeparated hv
  simp only [allWellFormed_append, allWellFormed_cons, allWellFormed_nil,
    reflects_parenthesized (reflects_commaSeparated reflects_checkValue) _ _ hvalues,
    TokenKind.WellFormed, Check.WellFormed, and_true, ne_eq, hne, not_false_iff, true_and]

/-- A clause of any group is well formed if its tokens are. -/
theorem reflects_clause : Reflects ClauseSpelling Clause.WellFormed := by
  intro c w h
  cases h with
  | column hd => exact reflects_column _ _ hd
  | primaryKey hnames => simpa [Clause.WellFormed] using reflects_names _ _ hnames
  | foreignKey hnames hreference =>
    simp [reflects_names _ _ hnames, reflects_reference _ _ hreference, Clause.WellFormed,
      ForeignKey.WellFormed]
  | constraint hnames hreference =>
    simp [reflects_names _ _ hnames, reflects_optionalReference _ _ hreference, Clause.WellFormed,
      NamedConstraint.WellFormed, TokenKind.WellFormed]
  | check hbody =>
    simpa [Clause.WellFormed] using reflects_parenthesized reflects_checkBody _ _ hbody

/-- What holds of all clauses of a statement holds of those of each group. -/
theorem forall_mem_groupedClauses {P : Clause → Prop} {s : Statement}
    {primaryKeys : List (List String)} :
    (∀ c ∈ groupedClauses s primaryKeys, P c) ↔
      (∀ d ∈ s.columns, P (.column d)) ∧ (∀ names ∈ primaryKeys, P (.primaryKey names)) ∧
        (∀ k ∈ s.foreignKeys, P (.foreignKey k)) ∧ (∀ c ∈ s.constraints, P (.constraint c)) ∧
          ∀ c ∈ s.checks, P (.check c) := by
  simp only [groupedClauses, List.forall_mem_append, List.forall_mem_map, and_assoc]

/-- The spellings of well-formed statements are those that can be written. -/
theorem reflects_statement : Reflects StatementSpelling Statement.WellFormed := by
  rintro s _ ⟨primaryKeys, v, hcolumns, hkey, hv, rfl⟩
  have hexistence : AllWellFormed (existenceWords s.ifNotExists) := by
    unfold existenceWords
    split <;> simp
  -- a statement keeps the columns of its primary keys only, so an empty clause would be lost
  have hne : ∀ names ∈ primaryKeys, names ≠ [] := by
    intro names hnames
    obtain ⟨w, hw⟩ := (forall_mem_groupedClauses.mp (exists_spelling_of_commaSeparated hv)).2.1
      names hnames
    cases hw with
    | primaryKey hw => exact ne_nil_of_names hw
  have hkeys : (∀ names ∈ primaryKeys, WellFormedNames names) ↔
      ∀ n ∈ s.primaryKey, WellFormedName n := by
    rw [hkey, List.forall_mem_flatten]
    exact forall₂_congr fun names hnames => and_iff_right (hne names hnames)
  have hclauses : AllWellFormed v ↔ ∀ c ∈ groupedClauses s primaryKeys, c.WellFormed :=
    reflects_commaSeparated reflects_clause _ _ hv
  rw [forall_mem_groupedClauses] at hclauses
  simp only [Clause.WellFormed, hkeys] at hclauses
  simp only [allWellFormed_append, allWellFormed_cons, allWellFormed_nil, TokenKind.WellFormed,
    Statement.WellFormed, hexistence, hclauses, hcolumns, and_true, true_and, ne_eq, not_false_iff]

/-! ## Kinds that spell a statement -/

/-- The kinds of the parts, with commas between them, spell the list. -/
theorem commaSeparated_kinds {α : Type} {S : α → List TokenKind → Prop} {f : α → List TokenKind}
    {as : List α} (hne : as ≠ []) (h : ∀ a ∈ as, S a (f a)) :
    CommaSeparated S as (commaKinds (as.map f)) := by
  induction as with
  | nil => exact absurd rfl hne
  | cons a as ih =>
    obtain ⟨ha, has⟩ := List.forall_mem_cons.mp h
    cases as with
    | nil => exact .single ha
    | cons b bs => exact .more ha (ih (List.cons_ne_nil b bs) has)

theorem names_kinds {names : List String} (h : names ≠ []) : Names names (nameKinds names) :=
  ⟨_, commaSeparated_kinds h fun _ _ => rfl, rfl⟩

/-- Up to two sizes can be spelled. -/
theorem typeArguments_kinds {arguments : List String} (h : arguments.length ≤ 2) :
    TypeArguments arguments (argumentKinds arguments) := by
  match arguments, h with
  | [], _ => exact .none
  | [n], _ => exact .size n
  | [n, m], _ => exact .precision n m

theorem bareDefault_kinds (v : DefaultValue) : BareDefault v [v.tokenKind] := by
  cases v with
  | identifier name => exact .identifier name
  | number text => exact .number text
  | string text => exact .string text
  | null => exact .null

/-- Each modifier is spelled by the kinds that are chosen for it. -/
theorem modifierSpelling_kinds (m : Modifier) : ModifierSpelling m m.kinds := by
  cases m with
  | notNull => exact .notNull
  | autoIncrement => exact .autoIncrement
  | default v => exact .default (bareDefault_kinds v)

theorem modifiers_kinds (ms : List Modifier) : Modifiers ms (ms.flatMap Modifier.kinds) := by
  induction ms with
  | nil => exact .nil
  | cons m ms ih => exact .cons (modifierSpelling_kinds m) ih

/-- A column is spelled by the kinds that are chosen for it, if its type has no more than two sizes.
-/
theorem column_kinds {c : Column} (h : c.type.arguments.length ≤ 2) : ColumnSpelling c c.kinds :=
  ⟨_, _, typeArguments_kinds h, modifiers_kinds c.modifiers, rfl⟩

theorem reference_kinds {r : TableReference} (h : r.columns ≠ []) : Reference r r.kinds :=
  ⟨_, names_kinds h, rfl⟩

theorem checkValue_kinds (v : CheckValue) : CheckValueSpelling v [v.tokenKind] := by
  cases v with
  | number text => exact .number text
  | string text => exact .string text

/-- A check is spelled by the kinds that are chosen for it, if it has values. -/
theorem check_kinds {c : Check} (h : c.values ≠ []) :
    ClauseSpelling (.check c) (Clause.check c).kinds :=
  .check ⟨_, ⟨_, ⟨_, commaSeparated_kinds h fun v _ => checkValue_kinds v, rfl⟩, rfl⟩, rfl⟩

/-- Every well-formed clause can be spelled. -/
theorem clause_kinds {c : Clause} (h : c.WellFormed) : ClauseSpelling c c.kinds := by
  cases c with
  | column d => exact .column (column_kinds h.2.2.1)
  | primaryKey names => exact .primaryKey (names_kinds h.1)
  | foreignKey k => exact .foreignKey (names_kinds h.1.1) (reference_kinds h.2.2.1)
  | constraint c =>
    obtain ⟨name, kind, columns, _ | r⟩ := c
    · exact .constraint (names_kinds h.2.1.1) .none
    · exact .constraint (names_kinds h.2.1.1) (.some (reference_kinds (h.2.2 r rfl).2.1))
  | check c => exact check_kinds h.2.1

/-- The primary key of a statement can be declared in one clause. -/
theorem flatten_primaryKeyClauses (s : Statement) : s.primaryKeyClauses.flatten = s.primaryKey := by
  unfold Statement.primaryKeyClauses
  split
  · next h => exact (List.isEmpty_iff.mp h).symm
  · exact List.append_nil _

/-- A well-formed statement is spelled by its kinds. -/
theorem statement_kinds {s : Statement} (h : s.WellFormed) : StatementSpelling s s.kinds := by
  obtain ⟨htable, hcolumns, hcolumn, hkey, hforeign, hconstraint, hcheck⟩ := h
  have hkeys : ∀ names ∈ s.primaryKeyClauses, WellFormedNames names := by
    unfold Statement.primaryKeyClauses
    split
    · exact fun _ h => absurd h List.not_mem_nil
    · next hne => exact List.forall_mem_singleton.mpr ⟨fun hnil => hne (by simp [hnil]), hkey⟩
  have hclauses : ∀ c ∈ groupedClauses s s.primaryKeyClauses, ClauseSpelling c c.kinds := by
    refine forall_mem_groupedClauses.mpr ⟨?_, ?_, ?_, ?_, ?_⟩
    · exact fun d hd => clause_kinds (hcolumn d hd)
    · exact fun names hnames => clause_kinds (hkeys names hnames)
    · exact fun k hk => clause_kinds (hforeign k hk)
    · exact fun c hc => clause_kinds (hconstraint c hc)
    · exact fun c hc => clause_kinds (hcheck c hc)
  have hne : groupedClauses s s.primaryKeyClauses ≠ [] := by
    obtain ⟨d, ds, hd⟩ := List.exists_cons_of_ne_nil hcolumns
    simp [groupedClauses, hd]
  refine ⟨s.primaryKeyClauses, _, hcolumns, (flatten_primaryKeyClauses s).symm,
    commaSeparated_kinds hne hclauses, ?_⟩
  simp [Statement.kinds, parenthesizedKinds]

/-! ## Texts of a statement -/

/-- More blanks in front change nothing. -/
theorem Spaced.blank {ks : List TokenKind} {text : List Char} (h : Spaced ks text) {c : Char}
    (hc : Text.isBlank c = true) : Spaced ks (c :: text) := by
  cases h with
  | finish hgap => exact .finish (List.forall_mem_cons.mpr ⟨hc, hgap⟩)
  | lexeme hgap hfront hblank hrest =>
    exact .lexeme (List.forall_mem_cons.mpr ⟨hc, hgap⟩) hfront hblank hrest

/-- Words with a space between each two are spaced lexemes. -/
theorem spaced_of_spacedAs {ks : List TokenKind} {text : List Char} (hks : AllWellFormed ks)
    (h : SpacedAs ks text) : Spaced ks text := by
  induction h with
  | @single k word hword =>
    have hk := (allWellFormed_cons.mp hks).1
    have hspaced : Spaced [k] ([] ++ (word ++ [])) :=
      .lexeme (fun _ h => absurd h List.not_mem_nil) (isLexeme_of_writtenAs hk hword)
        (fun _ h => by cases h) (.finish fun _ h => absurd h List.not_mem_nil)
    rwa [List.nil_append, List.append_nil] at hspaced
  | @more k ks word text hword htext ih =>
    obtain ⟨hk, hks⟩ := allWellFormed_cons.mp hks
    have hspaced : Spaced (k :: ks) ([] ++ (word ++ ' ' :: text)) :=
      .lexeme (fun _ h => absurd h List.not_mem_nil) (isLexeme_of_writtenAs hk hword)
        (fun c hc => by obtain rfl := Option.some.inj hc; rfl) ((ih hks).blank rfl)
    rwa [List.nil_append] at hspaced

/-- Every well-formed kind can be written. -/
theorem writtenAs_word {k : TokenKind} (h : k.WellFormed) : WrittenAs k k.word := by
  cases k with
  | keyword k => exact .keyword k
  | symbol mark => exact .symbol mark
  | number text => exact .number text
  | string text => exact .string text
  | endOfInput => exact h.elim
  | identifier name =>
    unfold TokenKind.word
    by_cases hquote : '"' ∈ name.toList
    · simp only [hquote, if_true]
      exact .identifier (.inr rfl) (h.resolve_left (not_not_intro hquote))
    · simp only [hquote, if_false]
      exact .identifier (.inl rfl) hquote

/-- Words with a blank between any two of them are spaced. -/
theorem spacedAs_words {ks : List TokenKind} (hne : ks ≠ []) (h : AllWellFormed ks) :
    SpacedAs ks ([' '].intercalate (ks.map TokenKind.word)) := by
  induction ks with
  | nil => exact absurd rfl hne
  | cons k ks ih =>
    obtain ⟨hk, hks⟩ := allWellFormed_cons.mp h
    cases ks with
    | nil =>
      have hsingle : SpacedAs [k] k.word := .single (writtenAs_word hk)
      simpa [List.intercalate] using hsingle
    | cons k' ks =>
      have hmore := SpacedAs.more (writtenAs_word hk) (ih (List.cons_ne_nil k' ks) hks)
      simpa [List.intercalate] using hmore

/-- The kinds before the end of tokens that are closed by their only end. -/
theorem kindsBeforeEnd_eq {tokens : List Token} {ks : List TokenKind}
    (h : tokens.map Token.kind = ks ++ [.endOfInput]) (hks : AllWellFormed ks) :
    kindsBeforeEnd tokens = ks := by
  have hfalse : ∀ k ∈ ks, (!(k == TokenKind.endOfInput)) = true := by
    intro k hk
    rw [Bool.not_eq_true', beq_eq_false_iff_ne]
    rintro rfl
    exact hks _ hk
  have hmap : kindsBeforeEnd tokens =
      (tokens.map Token.kind).takeWhile fun k => !(k == TokenKind.endOfInput) := by
    rw [List.takeWhile_map]
    rfl
  rw [hmap, h, List.takeWhile_append_of_pos hfalse]
  simp

/-- A text with lexemes between blanks that spell a statement says the statement. -/
theorem exists_tokens_of_spelling {s : Statement} {ks : List TokenKind} {text : String}
    (hspells : StatementSpelling s ks) (hks : AllWellFormed ks) (htext : Spaced ks text.toList) :
    ∃ tokens, tokenize text = .ok tokens ∧ Statement.ofTokens tokens = .ok s := by
  obtain ⟨tokens, htokens, hkinds⟩ :=
    tokens_of_spaced htext (standsAfter_start text.toList) rfl
  refine ⟨tokens, htokens, ofTokens_eq_ok_iff_spelling.mpr ?_⟩
  rwa [kindsBeforeEnd_eq hkinds hks]

/-- The lexer finds only kinds that can be written. -/
theorem allWellFormed_kindsBeforeEnd {text : String} {tokens : List Token}
    (h : tokenize text = .ok tokens) : AllWellFormed (kindsBeforeEnd tokens) := by
  have hcovers := covers_tokens (standsAfter_start text.toList) h
  intro k hk
  obtain ⟨t, ht, rfl⟩ := List.mem_map.mp hk
  have hend : t.isEnd = false := by simpa using mem_takeWhile ht
  obtain ⟨front, hfront⟩ := hcovers.exists_lexeme ((List.takeWhile_prefix _).subset ht) hend
  exact wellFormed_of_isLexeme hfront

/-- **Statements and texts.** A statement that a text says is well formed. A well-formed statement
has a text in which a space stands between each two words and marks, and every such text says the
statement, whichever quotes stand around its names. -/
theorem statements_of_texts :
    (∀ (text : String) (tokens : List Token) (s : Statement),
      tokenize text = .ok tokens → Statement.ofTokens tokens = .ok s → s.WellFormed) ∧
    ∀ s : Statement, s.WellFormed →
      SpacedAs s.kinds s.render.toList ∧
      ∀ text : String, SpacedAs s.kinds text.toList →
        ∃ tokens, tokenize text = .ok tokens ∧ Statement.ofTokens tokens = .ok s := by
  refine ⟨fun text tokens s htokens hs => ?_, fun s hs => ?_⟩
  · exact (reflects_statement _ _ (ofTokens_eq_ok_iff_spelling.mp hs)).mp
      (allWellFormed_kindsBeforeEnd htokens)
  · have hspells := statement_kinds hs
    have hks := (reflects_statement _ _ hspells).mpr hs
    refine ⟨?_, fun text htext => ?_⟩
    · rw [Statement.render, String.toList_ofList]
      exact spacedAs_words (by simp [Statement.kinds]) hks
    · exact exists_tokens_of_spelling hspells hks (spaced_of_spacedAs hks htext)

/-- A name may hold a quote, be empty, or be a reserved word. -/
theorem statements_of_texts_odd_names :
    ∃ tokens,
      tokenize (Statement.render
        ⟨"a\"b", true, [⟨"", ⟨"CREATE", ["-.5"]⟩, [.default (.string "\"")]⟩], [""], [], [], []⟩) =
          .ok tokens ∧
      Statement.ofTokens tokens =
        .ok ⟨"a\"b", true, [⟨"", ⟨"CREATE", ["-.5"]⟩, [.default (.string "\"")]⟩], [""], [], [],
          []⟩ := by
  have hnumber : WellFormedNumber "-.5" :=
    ⟨['-'], [], ['.'], ['5'], [], .inr (.inr rfl), by simp [AreDigits], .inr rfl,
      by simp [AreDigits], by simp, .inl rfl, rfl⟩
  have hcolumn : Column.WellFormed ⟨"", ⟨"CREATE", ["-.5"]⟩, [.default (.string "\"")]⟩ := by
    refine ⟨.inl (by decide), .inl (by decide), by decide, ?_, ?_⟩
    · exact List.forall_mem_singleton.mpr hnumber
    · exact List.forall_mem_singleton.mpr (by simp [Modifier.WellFormed, DefaultValue.WellFormed,
        WellFormedString])
  have hname : WellFormedName "" := .inl (by decide)
  obtain ⟨hrender, hsays⟩ := statements_of_texts.2
    ⟨"a\"b", true, [⟨"", ⟨"CREATE", ["-.5"]⟩, [.default (.string "\"")]⟩], [""], [], [], []⟩
    ⟨.inr (by decide), List.cons_ne_nil _ _, List.forall_mem_singleton.mpr hcolumn,
      List.forall_mem_singleton.mpr hname, by simp, by simp, by simp⟩
  exact hsays _ hrender

end TableSchema.Ddl
