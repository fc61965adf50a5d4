import TableSchema.Proofs.Ddl.LexemeLengths

/-!
# The longest lexeme is recognised

Of all the lexemes that a text starts with, the longest is the one recognised
(`isLongest_iff`), and a text that starts with none is at fault at its first character.

The first character tells the classes apart, except for a number with a sign or a leading point,
which is longer than the lone sign or point. So the first class that has a lexeme at the front of a
text has the longest one.
-/

namespace TableSchema.Ddl

open Lexeme LexicalGrammar

/-! ## Quotes -/

/-- The characters that open a string or a quoted name. -/
def quotes : List Char := ['\'', '"', '\x60']

/-- The kind of what stands between two quotes. -/
def quotedKind (quote : Char) (body : List Char) : TokenKind :=
  if quote = '\'' then .string (String.ofList body) else .identifier (String.ofList body)

/-- The fault of a text that starts with no lexeme but with this character. -/
def faultAt (c : Char) : Fault :=
  if c = '\'' then .openString else if c ∈ quotes then .openIdentifier else .unexpected c

/-- Only a quote can be left open. -/
theorem faultAt_of_not_quote {c : Char} (h : c ∉ quotes) : faultAt c = .unexpected c := by
  have hne : c ≠ '\'' := by
    rintro rfl
    exact h List.mem_cons_self
  rw [faultAt, if_neg hne, if_neg h]

theorem mem_quotes_of_quotedName {quote : Char} (h : quote = '"' ∨ quote = '\x60') :
    quote ∈ quotes := by
  obtain rfl | rfl := h <;> simp [quotes]

/-- What stands between two quotes, without that quote in it, is a lexeme. -/
theorem isLexeme_quoted {quote : Char} {body : List Char} (hquote : quote ∈ quotes)
    (hbody : quote ∉ body) : IsLexeme (quote :: body ++ [quote]) (quotedKind quote body) := by
  have hcases : quote = '\'' ∨ quote = '"' ∨ quote = '\x60' := by simpa [quotes] using hquote
  obtain rfl | rfl | rfl := hcases
  · exact .string hbody
  · exact .quotedName (.inl rfl) hbody
  · exact .quotedName (.inr rfl) hbody

/-- The next quote closes what is quoted. -/
theorem quoted?_append {quote : Char} {body : List Char} (h : quote ∉ body) (rest : List Char) :
    quoted? quote (body ++ quote :: rest) = some body := by
  have hbody : ∀ c ∈ body, decide (c ≠ quote) = true :=
    fun c hc => decide_eq_true fun heq => h (heq ▸ hc)
  rw [quoted?, if_pos (by simp), List.takeWhile_append_of_pos hbody,
    List.takeWhile_cons_of_neg (by simp), List.append_nil]

/-- What is quoted ends at the next quote. -/
theorem exists_of_quoted? {quote : Char} {cs body : List Char} (h : quoted? quote cs = some body) :
    quote ∉ body ∧ ∃ rest, cs = body ++ quote :: rest := by
  by_cases hmem : quote ∈ cs
  · obtain ⟨before, rest, rfl, hbefore⟩ := List.eq_append_cons_of_mem hmem
    obtain rfl := Option.some.inj ((quoted?_append hbefore rest).symm.trans h)
    exact ⟨hbefore, rest, rfl⟩
  · rw [quoted?, if_neg hmem] at h
    cases h

/-! ## Symbols -/

/-- What a symbol starts with cannot start any other lexeme but a number, and a symbol that starts
like a number is one character long. -/
theorem head_spellings :
    ∀ p ∈ spellings, p.1 ≠ [] ∧ ∀ c ∈ p.1.head?, c ∉ quotes ∧ c.isDigit = false ∧
      startsWord c = false ∧ (c ∈ ['+', '-', '.'] → p.1.length = 1) := by
  simp [spellings, quotes, startsWord]

/-- What is found of a symbol is its spelling. -/
theorem mem_spellings_of_symbol? {cs : List Char} {mark : Symbol} {n : Nat}
    (h : symbol? cs = some (mark, n)) :
    n ≤ cs.length ∧ (cs.take n, mark) ∈ spellings := by
  unfold symbol? at h
  split at h <;> cases h <;> simp [spellings]

/-- A `<` is a symbol, alone or with what follows. -/
theorem symbol?_less (cs : List Char) :
    symbol? ('<' :: cs) = some (.less, 1) ∨ ∃ mark, symbol? ('<' :: cs) = some (mark, 2) := by
  cases cs with
  | nil => exact .inl rfl
  | cons c cs =>
    by_cases hequals : c = '='
    · subst hequals
      exact .inr ⟨_, rfl⟩
    · by_cases hgreater : c = '>'
      · subst hgreater
        exact .inr ⟨_, rfl⟩
      · exact .inl (by simp [symbol?, hequals, hgreater])

/-- A `>` is a symbol, alone or with what follows. -/
theorem symbol?_greater (cs : List Char) :
    symbol? ('>' :: cs) = some (.greater, 1) ∨ ∃ mark, symbol? ('>' :: cs) = some (mark, 2) := by
  cases cs with
  | nil => exact .inl rfl
  | cons c cs =>
    by_cases hequals : c = '='
    · subst hequals
      exact .inr ⟨_, rfl⟩
    · exact .inl (by simp [symbol?, hequals])

/-- Of two spellings that a text starts with, the longer one is found. -/
theorem symbol?_append {front : List Char} {mark : Symbol} (h : (front, mark) ∈ spellings)
    (rest : List Char) :
    ∃ mark' n, symbol? (front ++ rest) = some (mark', n) ∧ front.length ≤ n ∧
      (front.length = n → mark' = mark) := by
  have hshort : ∀ {c : Char} {mark : Symbol},
      symbol? (c :: rest) = some (mark, 1) ∨ (∃ mark', symbol? (c :: rest) = some (mark', 2)) →
      ∃ mark' n, symbol? ([c] ++ rest) = some (mark', n) ∧ 1 ≤ n ∧ (1 = n → mark' = mark) := by
    rintro c mark (h | ⟨mark', h⟩)
    · exact ⟨mark, 1, h, Nat.le_refl 1, fun _ => rfl⟩
    · exact ⟨mark', 2, h, by decide, fun h => absurd h (by decide)⟩
  have hlong : ∀ {c d : Char} {mark : Symbol}, symbol? (c :: d :: rest) = some (mark, 2) →
      ∃ mark' n, symbol? ([c, d] ++ rest) = some (mark', n) ∧ 2 ≤ n ∧ (2 = n → mark' = mark) :=
    fun h => ⟨_, 2, h, Nat.le_refl 2, fun _ => rfl⟩
  simp only [spellings, List.mem_cons, Prod.mk.injEq, List.not_mem_nil, or_false] at h
  rcases h with ⟨rfl, rfl⟩ | ⟨rfl, rfl⟩ | ⟨rfl, rfl⟩ | ⟨rfl, rfl⟩ | ⟨rfl, rfl⟩ | ⟨rfl, rfl⟩ |
    ⟨rfl, rfl⟩ | ⟨rfl, rfl⟩ | ⟨rfl, rfl⟩ | ⟨rfl, rfl⟩ | ⟨rfl, rfl⟩ | ⟨rfl, rfl⟩ | ⟨rfl, rfl⟩ |
    ⟨rfl, rfl⟩ | ⟨rfl, rfl⟩ | ⟨rfl, rfl⟩
  -- only `<` and `>` look at what follows them
  all_goals
    first
    | exact hlong rfl
    | exact hshort (.inl rfl)
    | exact hshort (symbol?_less rest)
    | exact hshort (symbol?_greater rest)

/-! ## Reserved words -/

/-- A word is a keyword if it spells one in any case of letters. -/
theorem ofWord?_eq_some_iff {word : String} {k : Keyword} :
    Keyword.ofWord? word = some k ↔ Spells word.toList k := by
  have hupper : word.toUpper.toList = word.toList.map Char.toUpper := String.toList_map
  rw [Spells, ← hupper, String.toList_inj]
  refine ⟨fun h => ?_, fun h => ?_⟩
  · rw [Keyword.ofWord?, List.find?_eq_some_iff_append] at h
    have hfound := h.1
    exact (beq_iff_eq.mp hfound).symm
  · rw [Keyword.ofWord?, h]
    cases k <;> rfl

/-- Every word is a lexeme, a keyword or a name. -/
theorem isLexeme_wordKind {cs : List Char} (h : IsWord cs) :
    IsLexeme cs (wordKind (String.ofList cs)) := by
  cases hword : Keyword.ofWord? (String.ofList cs) with
  | some k =>
    rw [wordKind, hword]
    exact .keyword h (by simpa using ofWord?_eq_some_iff.mp hword)
  | none =>
    rw [wordKind, hword]
    refine .name h fun k hk => ?_
    rw [ofWord?_eq_some_iff.mpr (by simpa using hk)] at hword
    cases hword

/-- A word that spells a keyword is that keyword. -/
theorem wordKind_of_spells {cs : List Char} {k : Keyword} (h : Spells cs k) :
    wordKind (String.ofList cs) = .keyword k := by
  rw [wordKind, ofWord?_eq_some_iff.mpr (by simpa using h)]

/-- A word that spells no keyword is a name. -/
theorem wordKind_of_not_spells {cs : List Char} (h : ∀ k, ¬Spells cs k) :
    wordKind (String.ofList cs) = .identifier (String.ofList cs) := by
  cases hword : Keyword.ofWord? (String.ofList cs) with
  | some k => exact absurd (by simpa using ofWord?_eq_some_iff.mp hword) (h k)
  | none => rw [wordKind, hword]

/-! ## Recognition -/

/-- Where no quote is in front, a number goes before a word and a word before a symbol. -/
theorem recognise_of_not_quote {c : Char} (h : c ∉ quotes) (cs : List Char) :
    recognise (c :: cs) =
      if numberLength (c :: cs) ≠ 0 then
        .ok (.number (String.ofList ((c :: cs).take (numberLength (c :: cs)))),
          numberLength (c :: cs))
      else if wordLength (c :: cs) ≠ 0 then
        .ok (wordKind (String.ofList ((c :: cs).take (wordLength (c :: cs)))),
          wordLength (c :: cs))
      else
        match symbol? (c :: cs) with
        | some (mark, n) => .ok (.symbol mark, n)
        | none => .error (.unexpected c) := by
  simp only [quotes, List.mem_cons, List.not_mem_nil, or_false, not_or] at h
  obtain ⟨hstring, hdouble, hback⟩ := h
  have hname : (c == '"' || c == '\x60') = false := by simp [hdouble, hback]
  unfold recognise
  split
  · next heq => cases heq
  · next heq => exact absurd (List.cons.inj heq).1 hstring
  · next heq =>
    obtain ⟨rfl, rfl⟩ := List.cons.inj heq
    rw [hname]
    rfl

/-- At a quote, nothing but what is quoted is recognised. -/
theorem recognise_quote {quote : Char} (h : quote ∈ quotes) (cs : List Char) :
    recognise (quote :: cs) =
      (quoted? quote cs).elim (.error (faultAt quote))
        fun body => .ok (quotedKind quote body, body.length + 2) := by
  have hcases : quote = '\'' ∨ quote = '"' ∨ quote = '\x60' := by simpa [quotes] using h
  obtain rfl | rfl | rfl := hcases
  · cases hbody : quoted? '\'' cs <;> simp [recognise, hbody, quotedKind, faultAt]
  · cases hbody : quoted? '"' cs <;> simp [recognise, hbody, quotedKind, faultAt, quotes]
  · cases hbody : quoted? '\x60' cs <;> simp [recognise, hbody, quotedKind, faultAt, quotes]

/-- A text that starts with a quoted lexeme is read as that lexeme. -/
theorem recognise_quoted {quote : Char} {body : List Char} (hquote : quote ∈ quotes)
    (hbody : quote ∉ body) (rest : List Char) :
    recognise (quote :: body ++ [quote] ++ rest) =
      .ok (quotedKind quote body, body.length + 2) := by
  rw [List.cons_append, List.cons_append, List.append_assoc, List.singleton_append,
    recognise_quote hquote, quoted?_append hbody]
  rfl

theorem take_quoted (quote : Char) (body rest : List Char) :
    (quote :: (body ++ quote :: rest)).take (body.length + 2) = quote :: body ++ [quote] := by
  rw [List.take_succ_cons, List.take_length_add_append, List.take_succ_cons, List.take_zero,
    List.cons_append]

/-- What is recognised at the front of a text is a lexeme. -/
theorem isLexeme_of_recognise {text : List Char} {kind : TokenKind} {n : Nat} (hne : text ≠ [])
    (h : recognise text = .ok (kind, n)) :
    n ≤ text.length ∧ IsLexeme (text.take n) kind := by
  obtain ⟨c, cs, rfl⟩ := List.exists_cons_of_ne_nil hne
  by_cases hc : c ∈ quotes
  · rw [recognise_quote hc] at h
    cases hbody : quoted? c cs with
    | none =>
      rw [hbody] at h
      cases h
    | some body =>
      rw [hbody] at h
      cases h
      obtain ⟨hmem, rest, rfl⟩ := exists_of_quoted? hbody
      refine ⟨?_, take_quoted c body rest ▸ isLexeme_quoted hc hmem⟩
      simp only [List.length_cons, List.length_append]
      omega
  · rw [recognise_of_not_quote hc] at h
    split at h
    · next hnumber =>
      obtain ⟨hle, hfront⟩ := measures_numberLength.take hnumber
      cases h
      exact ⟨hle, .number hfront⟩
    · split at h
      · next hword =>
        obtain ⟨hle, hfront⟩ := measures_wordLength.take hword
        cases h
        exact ⟨hle, isLexeme_wordKind hfront⟩
      · split at h
        · next hsymbol =>
          obtain ⟨hle, hfront⟩ := mem_spellings_of_symbol? hsymbol
          cases h
          exact ⟨hle, .symbol hfront⟩
        · cases h

/-- No lexeme is longer than the text. -/
theorem length_le_of_recognise {text : List Char} {kind : TokenKind} {n : Nat}
    (h : recognise text = .ok (kind, n)) : n ≤ text.length := by
  by_cases hne : text = []
  · subst hne
    cases h
    exact Nat.le_refl 0
  · exact (isLexeme_of_recognise hne h).1

/-- A number starts with a digit, a sign or a point. -/
theorem numberLength_cons_eq_zero {c : Char} (hdigit : c.isDigit = false) (hc : c ∉ ['+', '-', '.'])
    (cs : List Char) : numberLength (c :: cs) = 0 := by
  by_cases h : numberLength (c :: cs) = 0
  · exact h
  · obtain ⟨front, rest, htext, -, hfront⟩ := measures_numberLength.exists_split h
    obtain ⟨d, ds, rfl, hd | ⟨hd, -⟩⟩ := exists_cons_of_isNumber hfront
    · obtain ⟨rfl, -⟩ := List.cons.inj htext
      exact absurd hd (hdigit ▸ Bool.false_ne_true)
    · obtain ⟨rfl, -⟩ := List.cons.inj htext
      exact absurd hd hc

/-- A word starts with a letter or an underscore. -/
theorem wordLength_cons_eq_zero {c : Char} (h : startsWord c = false) (cs : List Char) :
    wordLength (c :: cs) = 0 := by
  simp [wordLength, h]

/-- What a word starts with cannot start a lexeme of another class. -/
theorem of_startsWord {c : Char} (h : startsWord c = true) :
    c ∉ quotes ∧ c.isDigit = false ∧ c ∉ ['+', '-', '.'] := by
  have hother : ∀ {cs : List Char}, (∀ d ∈ cs, startsWord d = false) → c ∉ cs :=
    fun hcs hc => Bool.false_ne_true ((hcs c hc).symm.trans h)
  refine ⟨hother (by simp [quotes, startsWord]), ?_, hother (by simp [startsWord])⟩
  rcases startsWord_iff.mp h with halpha | rfl
  · refine Bool.eq_false_iff.mpr fun hdigit => ?_
    have hlow := toNat_of_isAlpha halpha
    have hhigh := toNat_of_isDigit hdigit
    omega
  · rfl

/-- The first character of a word can start one. -/
theorem head_isWord {cs : List Char} (h : IsWord cs) : ∀ c ∈ cs.head?, startsWord c = true := by
  cases cs with
  | nil => exact h.elim
  | cons c cs =>
    intro d hd
    obtain rfl : c = d := Option.some.inj hd
    exact startsWord_iff.mpr h.1

/-- A text that starts with a word is read as a word. -/
theorem recognise_word {front : List Char} (h : IsWord front) (rest : List Char) :
    ∃ n, recognise (front ++ rest) =
        .ok (wordKind (String.ofList ((front ++ rest).take n)), n) ∧ front.length ≤ n := by
  have hle := measures_wordLength.le_length rest h
  cases front with
  | nil => exact h.elim
  | cons c cs =>
    obtain ⟨hquote, hdigit, hsign⟩ := of_startsWord (startsWord_iff.mpr h.1)
    refine ⟨_, ?_, hle⟩
    rw [List.cons_append] at hle ⊢
    have hpos : wordLength (c :: (cs ++ rest)) ≠ 0 := by
      rw [List.length_cons] at hle
      omega
    have hnumber := numberLength_cons_eq_zero hdigit hsign (cs ++ rest)
    rw [recognise_of_not_quote hquote, if_neg (not_not_intro hnumber), if_pos hpos]

/-- A number starts with no quote. -/
theorem head_isNumber {cs : List Char} (h : IsNumber cs) : ∀ c ∈ cs.head?, c ∉ quotes := by
  obtain ⟨c, cs, rfl, hc⟩ := exists_cons_of_isNumber h
  intro d hd
  obtain rfl : c = d := Option.some.inj hd
  rcases hc with hdigit | ⟨hsign, -⟩
  · have hquotes : ∀ d ∈ quotes, d.isDigit = false := by simp [quotes]
    exact fun hmem => Bool.false_ne_true ((hquotes c hmem).symm.trans hdigit)
  · have hsigns : ∀ d ∈ ['+', '-', '.'], d ∉ quotes := by simp [quotes]
    exact hsigns c hsign

/-- A text that starts with a number is read as a number. -/
theorem recognise_number {front : List Char} (h : IsNumber front) (rest : List Char) :
    ∃ n, recognise (front ++ rest) =
        .ok (.number (String.ofList ((front ++ rest).take n)), n) ∧ front.length ≤ n := by
  have hle := measures_numberLength.le_length rest h
  have hquote := head_isNumber h
  obtain ⟨c, cs, rfl, -⟩ := exists_cons_of_isNumber h
  rw [List.cons_append] at hle ⊢
  have hpos : numberLength (c :: (cs ++ rest)) ≠ 0 := by
    rw [List.length_cons] at hle
    omega
  exact ⟨_, (recognise_of_not_quote (hquote c rfl) _).trans (if_pos hpos), hle⟩

/-- A text that starts with a symbol is read as a symbol, or else as a number, which is longer. -/
theorem recognise_symbol {front : List Char} {mark : Symbol} (h : (front, mark) ∈ spellings)
    (rest : List Char) :
    ∃ kind n, recognise (front ++ rest) = .ok (kind, n) ∧ front.length ≤ n ∧
      (front.length = n → kind = .symbol mark) := by
  obtain ⟨hne, hhead⟩ := head_spellings _ h
  obtain ⟨mark', n, hsymbol, hle, hkind⟩ := symbol?_append h rest
  obtain ⟨c, cs, rfl⟩ := List.exists_cons_of_ne_nil hne
  obtain ⟨hquote, hdigit, hword, hshort⟩ := hhead c rfl
  rw [List.cons_append] at hsymbol ⊢
  by_cases hnumber : numberLength (c :: (cs ++ rest)) = 0
  · refine ⟨.symbol mark', n, ?_, hle, fun hlength => congrArg _ (hkind hlength)⟩
    rw [recognise_of_not_quote hquote, if_neg (not_not_intro hnumber),
      if_neg (not_not_intro (wordLength_cons_eq_zero hword _)), hsymbol]
  · -- a number that starts with a symbol goes on after its sign or point
    obtain ⟨number, rest', htext, hlength, hfront⟩ := measures_numberLength.exists_split hnumber
    obtain ⟨d, ds, rfl, hd⟩ := exists_cons_of_isNumber hfront
    obtain ⟨rfl, -⟩ := List.cons.inj htext
    obtain hd | ⟨hsign, hds⟩ := hd
    · exact absurd hd (hdigit ▸ Bool.false_ne_true)
    · have hone : (c :: cs).length = 1 := hshort hsign
      have hpos := List.length_pos_iff.mpr hds
      rw [List.length_cons] at hlength
      refine ⟨_, _, (recognise_of_not_quote hquote _).trans (if_pos hnumber), ?_, ?_⟩
      · omega
      · intro heq
        omega

/-- Nothing that a text starts with is a longer lexeme than the one recognised, and nothing else as
long is one of another kind. -/
theorem recognise_append {front : List Char} {kind : TokenKind} (h : IsLexeme front kind)
    (rest : List Char) :
    ∃ kind' n, recognise (front ++ rest) = .ok (kind', n) ∧ front.length ≤ n ∧
      (front.length = n → kind' = kind) := by
  cases h with
  | keyword hword hspells =>
    obtain ⟨n, hn, hle⟩ := recognise_word hword rest
    refine ⟨_, n, hn, hle, ?_⟩
    rintro rfl
    rw [List.take_left, wordKind_of_spells hspells]
  | name hword hspells =>
    obtain ⟨n, hn, hle⟩ := recognise_word hword rest
    refine ⟨_, n, hn, hle, ?_⟩
    rintro rfl
    rw [List.take_left, wordKind_of_not_spells hspells]
  | number hnumber =>
    obtain ⟨n, hn, hle⟩ := recognise_number hnumber rest
    refine ⟨_, n, hn, hle, ?_⟩
    rintro rfl
    rw [List.take_left]
  | @string body hbody =>
    exact ⟨_, _, recognise_quoted (by simp [quotes]) hbody rest, by simp, fun _ => rfl⟩
  | @quotedName quote body hquote hbody =>
    have hmem := mem_quotes_of_quotedName hquote
    have hkind : quotedKind quote body = .identifier (String.ofList body) := by
      obtain rfl | rfl := hquote <;> rfl
    exact ⟨_, _, recognise_quoted hmem hbody rest, by simp, fun _ => hkind⟩
  | symbol hmark => exact recognise_symbol hmark rest

/-- No lexeme is empty. -/
theorem not_isLexeme_nil (kind : TokenKind) : ¬IsLexeme [] kind := by
  intro h
  -- the empty text is recognised as the end of input, which is the kind of no lexeme
  obtain ⟨kind', n, hn, -, hkind⟩ := recognise_append h []
  obtain ⟨rfl, rfl⟩ := Prod.mk.inj (Except.ok.inj hn)
  obtain rfl := hkind rfl
  cases h

/-- The end of input is no lexeme. -/
theorem ne_endOfInput_of_isLexeme {front : List Char} {kind : TokenKind}
    (h : IsLexeme front kind) : kind ≠ .endOfInput := by
  rintro rfl
  cases h

/-! ## Longest lexemes -/

/-- The longest lexeme at the front of a text is the one that is recognised there. -/
theorem isLongest_iff {text front : List Char} {kind : TokenKind} :
    IsLongest text front kind ↔
      text ≠ [] ∧ front <+: text ∧ recognise text = .ok (kind, front.length) := by
  refine ⟨?_, ?_⟩
  · -- the recognised lexeme is no shorter, and as a lexeme it is no longer
    rintro ⟨hfront, hstarts, hlongest⟩
    have hne : text ≠ [] := by
      rintro rfl
      exact not_isLexeme_nil kind (List.prefix_nil.mp hstarts ▸ hfront)
    refine ⟨hne, hstarts, ?_⟩
    obtain ⟨rest, rfl⟩ := hstarts
    obtain ⟨kind', n, hn, hle, hkind⟩ := recognise_append hfront rest
    obtain ⟨hn', hlexeme⟩ := isLexeme_of_recognise hne hn
    have hge := hlongest _ _ hlexeme (List.take_prefix n _)
    rw [List.length_take_of_le hn'] at hge
    obtain rfl : front.length = n := Nat.le_antisymm hle hge
    rw [hn, hkind rfl]
  · rintro ⟨hne, hstarts, hrecognise⟩
    obtain ⟨rest, rfl⟩ := hstarts
    obtain ⟨-, hlexeme⟩ := isLexeme_of_recognise hne hrecognise
    rw [List.take_left] at hlexeme
    refine ⟨hlexeme, List.prefix_append front rest, fun other kind' hother hstarts => ?_⟩
    obtain ⟨rest', htext⟩ := hstarts
    obtain ⟨kind'', n, hn, hle, -⟩ := recognise_append hother rest'
    rw [htext, hrecognise] at hn
    obtain ⟨-, rfl⟩ := Prod.mk.inj (Except.ok.inj hn)
    exact hle

/-- A text has one longest lexeme at its front, if it has any. -/
theorem isLongest_unique {text front front' : List Char} {kind kind' : TokenKind}
    (h : IsLongest text front kind) (h' : IsLongest text front' kind') :
    front' = front ∧ kind' = kind := by
  obtain ⟨-, hstarts, hn⟩ := isLongest_iff.mp h
  obtain ⟨-, hstarts', hn'⟩ := isLongest_iff.mp h'
  obtain ⟨hkind, hlength⟩ := Prod.mk.inj (Except.ok.inj (hn'.symm.trans hn))
  exact ⟨(List.prefix_of_prefix_length_le hstarts' hstarts (Nat.le_of_eq hlength)).eq_of_length
    hlength, hkind⟩

/-- No lexeme goes on behind one that is recognised. -/
theorem eq_nil_of_recognise {front x rest : List Char} {kind kind' : TokenKind}
    (h : recognise (front ++ rest) = .ok (kind, front.length)) (hx : x <+: rest)
    (hlong : IsLexeme (front ++ x) kind') : x = [] := by
  obtain ⟨tail, rfl⟩ := hx
  obtain ⟨_, n, hn, hle, -⟩ := recognise_append hlong tail
  rw [List.append_assoc, h] at hn
  obtain ⟨-, rfl⟩ := Prod.mk.inj (Except.ok.inj hn)
  rw [List.length_append] at hle
  exact List.eq_nil_of_length_eq_zero (by omega)

/-- A lexeme is recognised where no longer one goes on into what is behind it. -/
theorem recognise_of_no_longer {front rest : List Char} {kind : TokenKind}
    (h : IsLexeme front kind)
    (hlonger : ∀ x kind', x <+: rest → IsLexeme (front ++ x) kind' → x = []) :
    recognise (front ++ rest) = .ok (kind, front.length) := by
  refine (isLongest_iff.mp ⟨h, List.prefix_append front rest, ?_⟩).2.2
  intro other kind' hother hstarts
  refine Nat.le_of_not_lt fun hlt => ?_
  obtain ⟨x, rfl⟩ : front <+: other :=
    List.prefix_of_prefix_length_le (List.prefix_append front rest) hstarts (Nat.le_of_lt hlt)
  have hx : x <+: rest := (List.prefix_append_right_inj front).mp hstarts
  rw [hlonger x kind' hx hother, List.append_nil] at hlt
  exact Nat.lt_irrefl _ hlt

/-- No lexeme goes on behind the second quote of another one. -/
theorem eq_nil_of_quoted_append {quote : Char} {body x : List Char} {kind : TokenKind}
    (hquote : quote ∈ quotes) (hbody : quote ∉ body)
    (h : IsLexeme (quote :: body ++ [quote] ++ x) kind) : x = [] := by
  have hquoted : recognise (quote :: body ++ [quote] ++ x) =
      .ok (quotedKind quote body, (quote :: body ++ [quote]).length) := by
    rw [recognise_quoted hquote hbody, List.length_append, List.length_cons, List.length_singleton]
  exact eq_nil_of_recognise hquoted List.prefix_rfl h

/-- Which fault there is depends on the first character only. -/
theorem recognise_eq_faultAt {c : Char} {cs : List Char} {fault : Fault}
    (h : recognise (c :: cs) = .error fault) : fault = faultAt c := by
  by_cases hc : c ∈ quotes
  · rw [recognise_quote hc] at h
    cases hbody : quoted? c cs with
    | none =>
      rw [hbody] at h
      exact (Except.error.inj h).symm
    | some body =>
      rw [hbody] at h
      cases h
  · rw [recognise_of_not_quote hc] at h
    rw [faultAt_of_not_quote hc]
    split at h
    · cases h
    · split at h
      · cases h
      · split at h
        · cases h
        · exact (Except.error.inj h).symm

/-- A text that starts with some lexeme starts with a longest one. -/
theorem exists_isLongest {text front : List Char} {kind : TokenKind} (h : IsLexeme front kind)
    (hstarts : front <+: text) : ∃ front' kind', IsLongest text front' kind' := by
  obtain ⟨rest, rfl⟩ := hstarts
  obtain ⟨kind', n, hn, -, -⟩ := recognise_append h rest
  have hne : front ++ rest ≠ [] := fun hnil =>
    not_isLexeme_nil kind ((List.append_eq_nil_iff.mp hnil).1 ▸ h)
  obtain ⟨hle, -⟩ := isLexeme_of_recognise hne hn
  refine ⟨_, kind', isLongest_iff.mpr ⟨hne, List.take_prefix n _, ?_⟩⟩
  rw [List.length_take_of_le hle, hn]

/-- A text that starts with no lexeme is at fault at its first character. -/
theorem recognise_of_not_isLexeme {c : Char} {cs : List Char}
    (h : ∀ front kind, IsLexeme front kind → ¬front <+: c :: cs) :
    recognise (c :: cs) = .error (faultAt c) := by
  cases hr : recognise (c :: cs) with
  | ok found =>
    obtain ⟨-, hlexeme⟩ := isLexeme_of_recognise (List.cons_ne_nil c cs) hr
    exact absurd (List.take_prefix _ _) (h _ _ hlexeme)
  | error fault => rw [recognise_eq_faultAt hr]

end TableSchema.Ddl
