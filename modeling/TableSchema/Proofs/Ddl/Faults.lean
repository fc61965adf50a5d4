import TableSchema.Proofs.Ddl.Places

/-!
# Where faults are found

A text is at fault at the first character behind which no lexeme can begin, or at a quote that is
not closed. What is ahead of the fault does not depend on it: it has its tokens when the text ends
before the fault, and the same ones whatever follows the character at fault. So a fault by an
unexpected character stays the same when the text goes on in another way, and an open quote can be
closed at the end of the text.

What has to be shown is that no lexeme ahead runs on into the character at fault. A quoted lexeme
ends at its second quote. A bare one has only characters that are lexemes on their own, with the
exception of the exclamation mark in front of an equals sign (`alone_of_bare`), and the character at
fault is none of these.
-/

namespace TableSchema.Ddl

open Lexeme LexicalGrammar Text Lexer

/-! ## Characters at fault -/

/-- A character that is a lexeme on its own. -/
def IsAlone (c : Char) : Prop := ∃ k, IsLexeme [c] k

theorem isAlone_of_isDigit {c : Char} (h : c.isDigit = true) : IsAlone c :=
  ⟨_, .number ⟨[], [], [], [c], [], .inl rfl, by simp [AreDigits], .inl rfl,
    List.forall_mem_singleton.mpr h, List.cons_ne_nil c [], .inl rfl, rfl⟩⟩

theorem isAlone_of_isWordStart {c : Char} (h : IsWordStart c) : IsAlone c :=
  have hword : IsWord [c] := ⟨h, fun _ hd => absurd hd List.not_mem_nil⟩
  ⟨_, isLexeme_wordKind hword⟩

theorem isAlone_of_mem_spellings {c : Char} (h : [c] ∈ spellings.map Prod.fst) : IsAlone c := by
  obtain ⟨⟨_, mark⟩, hmem, rfl⟩ := List.mem_map.mp h
  exact ⟨_, .symbol hmem⟩

theorem alone_of_mem_spellings : ∀ p ∈ spellings,
    p.1 = ['!', '='] ∨ p.1.all (fun c => [c] ∈ spellings.map Prod.fst) = true := by
  decide

/-- Every character of a bare lexeme is one on its own, except in `!=`. -/
theorem alone_of_bare {cs : List Char} {k : TokenKind} (h : IsLexeme cs k)
    (hquote : ∀ c ∈ cs.head?, c ∉ quotes) : cs = ['!', '='] ∨ ∀ c ∈ cs, IsAlone c := by
  have hword : IsWord cs → ∀ c ∈ cs, IsAlone c := by
    intro hcs c hc
    obtain hstart | hdigit := isWordPart_of_mem hcs c hc
    · exact isAlone_of_isWordStart hstart
    · exact isAlone_of_isDigit hdigit
  cases h with
  | keyword hcs _ => exact .inr (hword hcs)
  | name hcs _ => exact .inr (hword hcs)
  | number hcs =>
    refine .inr (forall_mem_of_isNumber (fun _ => isAlone_of_isDigit) ?_ hcs)
    simp only [List.forall_mem_cons]
    refine ⟨?_, ?_, ?_, ?_, ?_, fun _ hc => absurd hc List.not_mem_nil⟩
    · exact isAlone_of_mem_spellings (by decide)
    · exact isAlone_of_mem_spellings (by decide)
    · exact isAlone_of_mem_spellings (by decide)
    · exact isAlone_of_isWordStart (.inl rfl)
    · exact isAlone_of_isWordStart (.inl rfl)
  | string _ => exact absurd (by simp [quotes]) (hquote _ rfl)
  | quotedName hname _ => exact absurd (mem_quotes_of_quotedName hname) (hquote _ rfl)
  | symbol hcs =>
    rcases alone_of_mem_spellings _ hcs with hpair | halone
    · exact .inl hpair
    · refine .inr fun c hc => isAlone_of_mem_spellings ?_
      exact of_decide_eq_true (List.all_eq_true.mp halone c hc)

/-- A character at fault is no lexeme. -/
theorem not_isAlone_of_fault {c : Char} {cs : List Char} {fault : Fault}
    (h : recognise (c :: cs) = .error fault) : ¬IsAlone c := by
  rintro ⟨k, hk⟩
  obtain ⟨_, _, hr, -⟩ := recognise_append hk cs
  rw [List.singleton_append, h] at hr
  cases hr

theorem faultAt_eq_unexpected_iff {c d : Char} :
    faultAt c = .unexpected d ↔ c ∉ quotes ∧ c = d := by
  by_cases hc : c ∈ quotes
  · simp only [faultAt, hc, if_true, not_true, false_and, iff_false]
    split <;> simp
  · rw [faultAt_of_not_quote hc, Fault.unexpected.injEq, and_iff_right hc]

theorem faultAt_eq_openString_iff {c : Char} : faultAt c = .openString ↔ c = '\'' := by
  rw [faultAt]
  split_ifs <;> simp_all

theorem faultAt_eq_openIdentifier_iff {c : Char} :
    faultAt c = .openIdentifier ↔ c = '"' ∨ c = '\x60' := by
  rw [faultAt]
  split_ifs <;> simp_all [quotes]

/-- An unexpected character stays unexpected whatever follows it, unless it becomes `!=`. -/
theorem recognise_of_unexpected {c : Char} {cs : List Char}
    (h : recognise (c :: cs) = .error (.unexpected c)) {later : List Char}
    (hlater : c = '!' → later.head? ≠ some '=') :
    recognise (c :: later) = .error (.unexpected c) := by
  have hquote : c ∉ quotes := (faultAt_eq_unexpected_iff.mp (recognise_eq_faultAt h).symm).1
  rw [← faultAt_of_not_quote hquote]
  refine recognise_of_not_isLexeme fun front k hfront hstarts => ?_
  obtain ⟨d, ds, rfl, -⟩ := head_isLexeme hfront
  obtain ⟨tail, htail⟩ := hstarts
  obtain ⟨rfl, rfl⟩ := List.cons.inj htail
  have hbare : ∀ e ∈ (d :: ds).head?, e ∉ quotes := by
    rintro e ⟨⟩
    exact hquote
  rcases alone_of_bare hfront hbare with hpair | halone
  · obtain ⟨rfl, rfl⟩ := List.cons.inj hpair
    exact hlater rfl rfl
  · exact not_isAlone_of_fault h (halone d List.mem_cons_self)

/-! ## What is ahead of a fault -/

/-- A lexeme ahead of a fault is recognised too where the text ends before the fault or goes on in
another way behind the character at fault. -/
theorem recognise_of_cut {front mid after tail : List Char} {c : Char} {k : TokenKind}
    (hfront : IsLexeme front k)
    (h : recognise (front ++ (mid ++ c :: after)) = .ok (k, front.length)) (hc : ¬IsAlone c)
    (htail : ∀ d ∈ tail.head?, d = c) :
    recognise (front ++ (mid ++ tail)) = .ok (k, front.length) := by
  refine recognise_of_no_longer hfront ?_
  intro x k' hx hlong
  obtain ⟨-, hbare⟩ | ⟨quote, body, hquote, hbody, rfl⟩ := bare_or_quoted hfront
  · obtain ⟨d, ds, rfl, -⟩ := head_isLexeme hfront
    obtain hpair | halone := alone_of_bare hlong hbare
    · -- the exclamation mark in front would be a lexeme without the equals sign
      obtain ⟨rfl, hrest⟩ : d = '!' ∧ ds ++ x = ['='] := List.cons.inj hpair
      by_contra hne
      obtain ⟨rfl, -⟩ : ds = [] ∧ x = ['='] := by
        simpa [hne] using List.append_eq_singleton_iff.mp hrest
      have hfault : recognise ['!'] = .error (.unexpected '!') := rfl
      exact not_isAlone_of_fault hfault ⟨k, hfront⟩
    · -- a longer lexeme would not reach the character at fault
      have hmid : x <+: mid := prefix_of_prefix_append hx fun d hd hmem =>
        hc (htail d hd ▸ halone d (List.mem_append_right _ hmem))
      exact eq_nil_of_recognise h (hmid.trans (List.prefix_append _ _)) hlong
  · exact eq_nil_of_quoted_append hquote hbody hlong

/-- Ahead of a fault are words that are read in front of every tail that ends the text there or
starts with the character at fault. -/
theorem exists_words_of_error {consumed rest : List Char} {e : LexicalError}
    (h : (between consumed rest).tokens = .error e) :
    ∃ mid c cs words, rest = mid ++ c :: cs ∧ isBlank c = false ∧
      recognise (c :: cs) = .error e.fault ∧ e.offset = byteLength (consumed ++ mid) ∧
      ∀ tail, (∀ d ∈ tail.head?, d = c) →
        (between consumed (mid ++ tail)).tokens =
          (between (consumed ++ mid) tail).tokens.map (words ++ ·) := by
  induction consumed, rest using lexeme_induction with
  | nothing consumed gap hgap =>
    rw [← List.append_nil gap, tokens_between_blanks hgap, tokens_between_end] at h
    cases h
  | fault consumed gap c cs hgap hc hr =>
    obtain ⟨_, _, -, hnext⟩ := next_between_fault hc hr (consumed ++ gap)
    rw [tokens_between_blanks hgap, tokens_of_error hnext] at h
    cases h
    refine ⟨gap, c, cs, [], rfl, hc, hr, rfl, fun tail _ => ?_⟩
    rw [tokens_between_blanks hgap]
    cases (between (consumed ++ gap) tail).tokens <;> rfl
  | lexeme consumed gap front rest k hgap hfront hr ih =>
    rw [tokens_between_blanks hgap, tokens_between_lexeme hfront hr] at h
    have htail : (between (consumed ++ gap ++ front) rest).tokens = .error e := by
      cases htokens : (between (consumed ++ gap ++ front) rest).tokens with
      | ok ts =>
        rw [htokens] at h
        cases h
      | error e' =>
        rw [htokens] at h
        exact congrArg _ (Except.error.inj h)
    obtain ⟨mid, c, cs, words, rfl, hc, hfault, hoffset, hahead⟩ := ih htail
    refine ⟨gap ++ front ++ mid, c, cs,
      ⟨k, String.ofList front, .behind (consumed ++ gap)⟩ :: words, by simp, hc, hfault,
      by simpa using hoffset, fun tail hcut => ?_⟩
    have hr' := recognise_of_cut hfront hr (not_isAlone_of_fault hfault) hcut
    rw [List.append_assoc, List.append_assoc, tokens_between_blanks hgap,
      tokens_between_lexeme hfront hr', hahead tail hcut]
    simp only [List.append_assoc]
    cases (between (consumed ++ (gap ++ (front ++ mid))) tail).tokens <;> rfl

/-! ## Texts -/

theorem tokenize_ofList (text : List Char) :
    tokenize (String.ofList text) = (between [] text).tokens := by
  rw [tokenize, String.toList_ofList, start_eq_between]

/-- The fault of a text is at a character behind words that are read whatever that character is
followed by, if by anything. -/
theorem exists_words_ahead {text : String} {fault : Fault} {offset : Nat}
    (h : tokenize text = .error ⟨fault, offset⟩) :
    ∃ before c after words, text.toList = before ++ c :: after ∧ isBlank c = false ∧
      recognise (c :: after) = .error (faultAt c) ∧ fault = faultAt c ∧
      offset = byteLength before ∧
      ∀ tail, (∀ d ∈ tail.head?, d = c) →
        tokenize (String.ofList (before ++ tail)) =
          (between before tail).tokens.map (words ++ ·) := by
  rw [tokenize, start_eq_between] at h
  obtain ⟨before, c, after, words, htext, hc, hr, hoffset, hahead⟩ := exists_words_of_error h
  refine ⟨before, c, after, words, htext, hc, recognise_eq_faultAt hr ▸ hr,
    recognise_eq_faultAt hr, hoffset, fun tail htail => ?_⟩
  rw [tokenize_ofList, hahead tail htail]
  rfl

/-! ### Open quotes -/

/-- A quote that is closed where the text ends is the last lexeme of the text. -/
theorem tokens_between_quoted {quote : Char} {body : List Char} (hquote : quote ∈ quotes)
    (hbody : quote ∉ body) (consumed : List Char) :
    (between consumed (quote :: body ++ [quote])).tokens =
      .ok [⟨quotedKind quote body, String.ofList (quote :: body ++ [quote]), .behind consumed⟩,
        ⟨.endOfInput, "", .endOf (consumed ++ (quote :: body ++ [quote]))⟩] := by
  have hr := recognise_quoted hquote hbody []
  have hlexeme := tokens_between_lexeme (isLexeme_quoted hquote hbody) (by rw [hr]; simp) consumed
  rw [List.append_nil, tokens_between_end] at hlexeme
  exact hlexeme

/-- A quote behind a part of a text is open: it does not occur again in what is behind it, the part
ahead of it has tokens, and the same quote at the end of the text makes one more token of a kind. -/
structure OpenBehind (before : List Char) (quote : Char) (after : List Char) (kind : TokenKind) :
    Prop where
  not_mem : quote ∉ after
  exists_words : ∃ words,
    tokenize (String.ofList before) = .ok (words ++ [⟨.endOfInput, "", .endOf before⟩]) ∧
      tokenize (String.ofList (before ++ quote :: after ++ [quote])) =
        .ok (words ++ [⟨kind, String.ofList (quote :: after ++ [quote]), .behind before⟩,
          ⟨.endOfInput, "", .endOf (before ++ quote :: after ++ [quote])⟩])

/-- A quote at fault is open. -/
theorem exists_openBehind {text : String} {fault : Fault} {offset : Nat}
    (h : tokenize text = .error ⟨fault, offset⟩) (hfault : ∀ c, fault ≠ .unexpected c) :
    ∃ before quote after, text.toList = before ++ quote :: after ∧ offset = byteLength before ∧
      fault = faultAt quote ∧ OpenBehind before quote after (quotedKind quote after) := by
  obtain ⟨before, quote, after, words, htext, -, hr, rfl, rfl, hahead⟩ := exists_words_ahead h
  have hquote : quote ∈ quotes := by
    by_contra hnot
    exact hfault quote (faultAt_of_not_quote hnot)
  have hafter : quote ∉ after := by
    intro hmem
    rw [recognise_quote hquote, quoted?, if_pos hmem] at hr
    cases hr
  refine ⟨before, quote, after, htext, rfl, rfl, hafter, words, ?_, ?_⟩
  · have hbefore := hahead [] (by simp)
    rw [List.append_nil, tokens_between_end] at hbefore
    exact hbefore
  · have hclosed := hahead (quote :: after ++ [quote]) (by simp)
    rw [tokens_between_quoted hquote hafter, ← List.append_assoc] at hclosed
    exact hclosed

/-! ### Both kinds of faults -/

/-- **Faults are where they are reported.** An unexpected character is no blank, what is ahead of it
has tokens, and nothing that may follow it changes the error, save an equals sign behind an
exclamation mark. An open quote does not occur again, what is ahead of it has tokens, and closing it
at the end of the text adds one token to these: a string or a name, of all that is behind the
quote. -/
theorem lexical_errors_are_located :
    (∀ text c offset, tokenize text = .error ⟨.unexpected c, offset⟩ →
      ∃ before after, text.toList = before ++ c :: after ∧ offset = byteLength before ∧
        isBlank c = false ∧ (∃ tokens, tokenize (String.ofList before) = .ok tokens) ∧
        ∀ later, (c = '!' → later.head? ≠ some '=') →
          tokenize (String.ofList (before ++ c :: later)) = .error ⟨.unexpected c, offset⟩) ∧
    (∀ text offset, tokenize text = .error ⟨.openString, offset⟩ →
      ∃ before after, text.toList = before ++ '\'' :: after ∧ offset = byteLength before ∧
        OpenBehind before '\'' after (.string (String.ofList after))) ∧
    ∀ text offset, tokenize text = .error ⟨.openIdentifier, offset⟩ →
      ∃ before quote after, text.toList = before ++ quote :: after ∧ offset = byteLength before ∧
        (quote = '"' ∨ quote = '\x60') ∧
        OpenBehind before quote after (.identifier (String.ofList after)) := by
  refine ⟨?_, ?_, ?_⟩
  · intro text c offset h
    obtain ⟨before, d, after, words, htext, hd, hr, hfault, rfl, hahead⟩ := exists_words_ahead h
    obtain ⟨-, rfl⟩ := faultAt_eq_unexpected_iff.mp hfault.symm
    rw [← hfault] at hr
    refine ⟨before, after, htext, rfl, hd, ?_, ?_⟩
    · have hbefore := hahead [] (by simp)
      rw [List.append_nil, tokens_between_end] at hbefore
      exact ⟨_, hbefore⟩
    · intro later hlater
      have hlater' := hahead (d :: later) (by simp)
      obtain ⟨_, _, -, hnext⟩ := next_between_fault hd (recognise_of_unexpected hr hlater) before
      rw [tokens_of_error hnext] at hlater'
      exact hlater'
  · intro text offset h
    obtain ⟨before, quote, after, htext, hoffset, hfault, hopen⟩ := exists_openBehind h (by simp)
    obtain rfl := faultAt_eq_openString_iff.mp hfault.symm
    exact ⟨before, after, htext, hoffset, hopen⟩
  · intro text offset h
    obtain ⟨before, quote, after, htext, hoffset, hfault, hopen⟩ := exists_openBehind h (by simp)
    obtain rfl | rfl := faultAt_eq_openIdentifier_iff.mp hfault.symm
    · exact ⟨before, _, after, htext, hoffset, .inl rfl, hopen⟩
    · exact ⟨before, _, after, htext, hoffset, .inr rfl, hopen⟩

/-- An exclamation mark behind what could begin an exponent, a string with another quote in it, and
a name in backticks behind an accented string. -/
theorem lexical_errors_are_located_behind_neighbours :
    (tokenize "1e!+" = .error ⟨.unexpected '!', 2⟩ ∧
      tokenize "1e!!=" = .error ⟨.unexpected '!', 2⟩) ∧
    (tokenize "-'\"x" = .error ⟨.openString, 1⟩ ∧
      OpenBehind ['-'] '\'' ['"', 'x'] (.string "\"x")) ∧
    (tokenize "'é'\x60" = .error ⟨.openIdentifier, 4⟩ ∧
      OpenBehind ['\'', 'é', '\''] '\x60' [] (.identifier "")) := by
  have hmark : tokenize "1e!+" = .error ⟨.unexpected '!', 2⟩ := by decide +kernel
  have hstring : tokenize "-'\"x" = .error ⟨.openString, 1⟩ := by decide +kernel
  have hname : tokenize "'é'\x60" = .error ⟨.openIdentifier, 4⟩ := by decide +kernel
  -- the offset tells how much of the text is ahead
  have hahead : ∀ {text before rest : List Char} {offset : Nat}, text = before ++ rest →
      offset = byteLength before → takeBytes? offset text = some before := by
    rintro _ before rest _ rfl rfl
    exact takeBytes?_append before rest
  obtain ⟨hunexpected, hopenString, hopenName⟩ := lexical_errors_are_located
  refine ⟨⟨hmark, ?_⟩, ⟨hstring, ?_⟩, hname, ?_⟩
  · obtain ⟨before, after, htext, hoffset, -, -, hlater⟩ := hunexpected _ _ _ hmark
    obtain rfl : ['1', 'e'] = before := Option.some.inj (hahead htext hoffset)
    exact hlater ['!', '='] (by simp)
  · obtain ⟨before, after, htext, hoffset, hopen⟩ := hopenString _ _ hstring
    obtain rfl : ['-'] = before := Option.some.inj (hahead htext hoffset)
    obtain rfl : ['"', 'x'] = after := congrArg (List.drop 2) htext
    exact hopen
  · obtain ⟨before, quote, after, htext, hoffset, -, hopen⟩ := hopenName _ _ hname
    obtain rfl : ['\'', 'é', '\''] = before := Option.some.inj (hahead htext hoffset)
    obtain ⟨rfl, rfl⟩ : '\x60' = quote ∧ [] = after :=
      List.cons.inj (congrArg (List.drop 3) htext : _ = quote :: after)
    exact hopen

end TableSchema.Ddl
