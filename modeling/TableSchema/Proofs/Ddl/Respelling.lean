import TableSchema.Proofs.Ddl.Coverage
import TableSchema.Proofs.Ddl.Spacing

/-!
# Respelled texts

The spelling of a text can change without a change of its kinds: the blanks between tokens can be
others, a reserved word can change the case of its letters, and a bare name can be put between
quotes. What has to be shown is that no lexeme of the new text runs on into the next one.

Only a bare lexeme could, into bare lexemes that follow without blanks. There the new text and the
old one differ in the case of letters at most, and a bare lexeme stays one when the case of its
letters changes. So a lexeme that ran on in the new text would have run on in the old one.
-/

namespace TableSchema.Ddl

open Lexeme LexicalGrammar Text Lexer

/-! ## The case of letters -/

/-- Two texts that differ in the case of letters at most. -/
def SameLetters (cs ds : List Char) : Prop := cs.map Char.toUpper = ds.map Char.toUpper

/-- Only small letters have another capital. -/
theorem toNat_toUpper (c : Char) :
    c.toUpper.toNat =
      if 0x61 ≤ c.toNat ∧ c.toNat ≤ 0x7A then c.toNat - 0x20 else c.toNat := by
  delta Char.toUpper
  split
  · next h =>
    simp only [UInt32.le_iff_toNat_le] at h
    rw [if_pos (show 0x61 ≤ c.toNat ∧ c.toNat ≤ 0x7A from h)]
    have hlow : 0x61 ≤ c.val.toNat := h.1
    have hshift : ('A'.val - 'a'.val).toNat = 2 ^ 32 - 0x20 := by decide
    change (c.val + ('A'.val - 'a'.val)).toNat = c.val.toNat - 0x20
    rw [UInt32.toNat_add, hshift]
    have hhigh : c.val.toNat ≤ 0x7A := h.2
    omega
  · next h =>
    simp only [UInt32.le_iff_toNat_le] at h
    rw [if_neg (show ¬(0x61 ≤ c.toNat ∧ c.toNat ≤ 0x7A) from h)]

/-- Only letters can differ in case. -/
theorem eq_or_isAlpha_of_toUpper_eq {c d : Char} (h : c.toUpper = d.toUpper) :
    c = d ∨ c.isAlpha = true ∧ d.isAlpha = true := by
  have hnat := congrArg Char.toNat h
  rw [toNat_toUpper, toNat_toUpper] at hnat
  rw [isAlpha_iff, isAlpha_iff, ← Char.toNat_inj]
  split at hnat <;> split at hnat <;> omega

/-- Case does not matter for the first character of a word. -/
theorem isWordStart_of_toUpper_eq {c d : Char} (h : c.toUpper = d.toUpper) (hc : IsWordStart c) :
    IsWordStart d := by
  obtain rfl | ⟨-, hd⟩ := eq_or_isAlpha_of_toUpper_eq h
  · exact hc
  · exact .inl hd

/-- Case does not matter for the other characters of a word. -/
theorem isWordPart_of_toUpper_eq {c d : Char} (h : c.toUpper = d.toUpper) (hc : IsWordPart c) :
    IsWordPart d := by
  obtain rfl | ⟨-, hd⟩ := eq_or_isAlpha_of_toUpper_eq h
  · exact hc
  · exact .inl (.inl hd)

/-- A word in another case is a word. -/
theorem SameLetters.isWord {cs ds : List Char} (h : SameLetters cs ds) (hcs : IsWord cs) :
    IsWord ds := by
  cases cs with
  | nil => exact hcs.elim
  | cons c cs =>
    obtain ⟨d, ds, rfl, hd, hds⟩ := List.map_eq_cons_iff.mp h.symm
    refine ⟨isWordStart_of_toUpper_eq hd.symm hcs.1, fun e he => ?_⟩
    have hmem : e.toUpper ∈ cs.map Char.toUpper := hds ▸ List.mem_map_of_mem he
    obtain ⟨c', hc', hupper⟩ := List.mem_map.mp hmem
    exact isWordPart_of_toUpper_eq hupper (hcs.2 c' hc')

/-- A text without letters has one spelling. -/
theorem SameLetters.eq {cs ds : List Char} (h : SameLetters cs ds)
    (hcs : ∀ c ∈ cs, c.isAlpha = false) : ds = cs := by
  induction cs generalizing ds with
  | nil => exact List.map_eq_nil_iff.mp h.symm
  | cons c cs ih =>
    obtain ⟨d, ds, rfl, hd, hds⟩ := List.map_eq_cons_iff.mp h.symm
    obtain ⟨hc, hcs⟩ := List.forall_mem_cons.mp hcs
    rw [ih hds.symm hcs]
    obtain rfl | ⟨-, halpha⟩ := eq_or_isAlpha_of_toUpper_eq hd
    · rfl
    · exact absurd halpha (hc ▸ Bool.false_ne_true)

/-- A text in another case divides where the text does. -/
theorem SameLetters.append_left {as bs ds : List Char} (h : SameLetters (as ++ bs) ds) :
    ∃ as' bs', ds = as' ++ bs' ∧ SameLetters as as' ∧ SameLetters bs bs' := by
  rw [SameLetters, List.map_append] at h
  obtain ⟨as', bs', rfl, has, hbs⟩ := List.map_eq_append_iff.mp h.symm
  exact ⟨as', bs', rfl, has.symm, hbs.symm⟩

/-- Parts in another case make a text in another case. -/
theorem SameLetters.append {as bs as' bs' : List Char} (ha : SameLetters as as')
    (hb : SameLetters bs bs') : SameLetters (as ++ bs) (as' ++ bs') := by
  rw [SameLetters, List.map_append, List.map_append, ha, hb]

theorem isAlpha_eq_false_of_isDigit {c : Char} (h : c.isDigit = true) : c.isAlpha = false := by
  refine Bool.eq_false_iff.mpr fun halpha => ?_
  have hlow := toNat_of_isAlpha halpha
  have hhigh := toNat_of_isDigit h
  omega

theorem noLetter_of_isSign {cs : List Char} (h : IsSign cs) : ∀ c ∈ cs, c.isAlpha = false := by
  obtain rfl | rfl | rfl := h <;> simp

theorem noLetter_of_areDigits {cs : List Char} (h : AreDigits cs) : ∀ c ∈ cs, c.isAlpha = false :=
  fun c hc => isAlpha_eq_false_of_isDigit (h c hc)

/-- An exponent in another case is one. -/
theorem SameLetters.isExponent {cs ds : List Char} (h : SameLetters cs ds) (hcs : IsExponent cs) :
    IsExponent ds := by
  obtain rfl | ⟨e, sign, digits, he, hsign, hdigits, hne, rfl⟩ := hcs
  · exact .inl (h.eq (by simp))
  · obtain ⟨ds, digits', rfl, hds, hdigits'⟩ := h.append_left
    obtain ⟨e', sign', rfl, he', hsign'⟩ := List.map_eq_cons_iff.mp hds.symm
    obtain rfl := hdigits'.eq (noLetter_of_areDigits hdigits)
    obtain rfl : sign' = sign := SameLetters.eq hsign'.symm (noLetter_of_isSign hsign)
    refine .inr ⟨e', _, _, ?_, hsign, hdigits, hne, rfl⟩
    have hupper : e'.toUpper = 'E' := by obtain rfl | rfl := he <;> exact he'
    have hnat := congrArg Char.toNat hupper
    rw [toNat_toUpper] at hnat
    rw [← Char.toNat_inj, ← Char.toNat_inj]
    change e'.toNat = 0x65 ∨ e'.toNat = 0x45
    change _ = 0x45 at hnat
    split at hnat <;> omega

/-- A number in another case is one. -/
theorem SameLetters.isNumber {cs ds : List Char} (h : SameLetters cs ds) (hcs : IsNumber cs) :
    IsNumber ds := by
  obtain ⟨sign, whole, point, digits, exponent, hsign, hwhole, hpoint, hdigits, hne, hexp, rfl⟩ :=
    hcs
  -- only the letter of the exponent can change
  obtain ⟨decimal, exponent', rfl, hdecimal, hexponent⟩ := h.append_left
  have hletters : ∀ c ∈ sign ++ whole ++ point ++ digits, c.isAlpha = false := by
    have hpoint' : ∀ c ∈ point, c.isAlpha = false := by obtain rfl | rfl := hpoint <;> simp
    simp only [List.forall_mem_append]
    exact ⟨⟨⟨noLetter_of_isSign hsign, noLetter_of_areDigits hwhole⟩, hpoint'⟩,
      noLetter_of_areDigits hdigits⟩
  obtain rfl := hdecimal.eq hletters
  exact ⟨sign, whole, point, digits, exponent', hsign, hwhole, hpoint, hdigits, hne,
    hexponent.isExponent hexp, rfl⟩

/-- There are no letters in the spellings of symbols. -/
theorem noLetter_of_mem_spellings : ∀ p ∈ spellings, ∀ c ∈ p.1, c.isAlpha = false := by
  simp [spellings]

/-- A bare lexeme stays one when the case of its letters changes. -/
theorem SameLetters.exists_isLexeme {cs ds : List Char} {k : TokenKind} (h : SameLetters cs ds)
    (hcs : IsLexeme cs k) (hquote : ∀ c ∈ cs.head?, c ∉ quotes) : ∃ k', IsLexeme ds k' := by
  cases hcs with
  | keyword hword _ => exact ⟨_, isLexeme_wordKind (h.isWord hword)⟩
  | name hword _ => exact ⟨_, isLexeme_wordKind (h.isWord hword)⟩
  | number hnumber => exact ⟨_, .number (h.isNumber hnumber)⟩
  | string _ => exact absurd (by simp [quotes]) (hquote _ rfl)
  | quotedName hname _ => exact absurd (mem_quotes_of_quotedName hname) (hquote _ rfl)
  | symbol hmark =>
    obtain rfl := h.eq (noLetter_of_mem_spellings _ hmark)
    exact ⟨_, .symbol hmark⟩

/-! ## Quotes in bare lexemes -/

/-- A text without quotes. -/
def NoQuote (cs : List Char) : Prop := ∀ c ∈ cs, c ∉ quotes

theorem not_mem_quotes_of_isDigit {c : Char} (h : c.isDigit = true) : c ∉ quotes := by
  have hquotes : ∀ d ∈ quotes, d.isDigit = false := by simp [quotes]
  exact fun hmem => Bool.false_ne_true ((hquotes c hmem).symm.trans h)

/-- There is no quote in a word. -/
theorem noQuote_of_isWord {cs : List Char} (h : IsWord cs) : NoQuote cs := by
  intro c hc
  obtain hstart | hdigit := isWordPart_of_mem h c hc
  · exact (of_startsWord (startsWord_iff.mpr hstart)).1
  · exact not_mem_quotes_of_isDigit hdigit

theorem noQuote_of_isNumber {cs : List Char} (h : IsNumber cs) : NoQuote cs :=
  forall_mem_of_isNumber (fun _ => not_mem_quotes_of_isDigit) (by simp [quotes]) h

/-- There is no quote in the spelling of a symbol. -/
theorem noQuote_of_mem_spellings : ∀ p ∈ spellings, NoQuote p.1 := by
  simp [spellings, NoQuote, quotes]

/-- A lexeme that does not start with a quote has none, and no blank either. -/
theorem noQuote_of_bare {cs : List Char} {k : TokenKind} (h : IsLexeme cs k)
    (hquote : ∀ c ∈ cs.head?, c ∉ quotes) : NoQuote cs := by
  cases h with
  | keyword hword _ => exact noQuote_of_isWord hword
  | name hword _ => exact noQuote_of_isWord hword
  | number hnumber => exact noQuote_of_isNumber hnumber
  | string _ => exact absurd (by simp [quotes]) (hquote _ rfl)
  | quotedName hname _ => exact absurd (mem_quotes_of_quotedName hname) (hquote _ rfl)
  | symbol hmark => exact noQuote_of_mem_spellings _ hmark

/-- There is no blank in a lexeme that is not quoted. -/
theorem noBlank_of_bare {cs : List Char} {k : TokenKind} (h : IsLexeme cs k)
    (hquote : ∀ c ∈ cs.head?, c ∉ quotes) : NoBlank cs := by
  obtain ⟨hbare, -⟩ | ⟨quote, body, hmem, -, rfl⟩ := bare_or_quoted h
  · exact hbare
  · exact absurd hmem (hquote quote rfl)

/-! ## Respelled lexemes -/

/-- Another spelling of a lexeme: one that differs in the case of letters at most, or one between
quotes. -/
def SameOrQuoted (front front' : List Char) : Prop :=
  SameLetters front front' ∨ ∀ c ∈ front'.head?, c ∈ quotes

/-- Two texts from whose fronts lexemes of the same kinds can be taken. Those of the second are
other spellings of those of the first, and no blanks between two of them are missing. -/
inductive Alongside : List TokenKind → List Char → List Char → Prop where
  | finish {gap gap' : List Char} : AreBlank gap → AreBlank gap' → Alongside [] gap gap'
  | lexeme {gap gap' front front' rest rest' : List Char} {k : TokenKind} {ks : List TokenKind} :
    AreBlank gap' → (gap' = [] → gap = []) →
      recognise (front ++ rest) = .ok (k, front.length) → IsLexeme front' k →
      SameOrQuoted front front' → Alongside ks rest rest' →
      Alongside (k :: ks) (gap ++ (front ++ rest)) (gap' ++ (front' ++ rest'))

/-- A front without the first character is empty. -/
theorem eq_nil_of_prefix_cons {x cs : List Char} {c : Char} (hx : x <+: c :: cs) (hc : c ∉ x) :
    x = [] := by
  have hx' : x <+: [] ++ c :: cs := hx
  refine List.prefix_nil.mp (prefix_of_prefix_append hx' fun d hd => ?_)
  obtain rfl : c = d := Option.some.inj hd
  exact hc

/-- A front without blanks is empty where a blank comes first. -/
theorem eq_nil_of_prefix_blank {x gap tail : List Char} (hgap : AreBlank gap) (hne : gap ≠ [])
    (hx : x <+: gap ++ tail) (hblank : NoBlank x) : x = [] := by
  obtain ⟨c, cs, rfl⟩ := List.exists_cons_of_ne_nil hne
  refine eq_nil_of_prefix_cons hx fun hc => ?_
  exact Bool.false_ne_true ((hblank c hc).symm.trans (hgap c List.mem_cons_self))

/-- What the second text starts with before any blank and any quote, the first one starts with, up
to the case of letters. -/
theorem Alongside.exists_prefix {ks : List TokenKind} {rest rest' : List Char}
    (h : Alongside ks rest rest') {x : List Char} (hx : x <+: rest') (hblank : NoBlank x)
    (hquote : NoQuote x) : ∃ y, y <+: rest ∧ SameLetters y x := by
  by_cases hnil : x = []
  · exact ⟨[], List.nil_prefix, hnil ▸ rfl⟩
  · induction h generalizing x with
    | @finish gap gap' hgap hgap' =>
      rw [← List.append_nil gap'] at hx
      by_cases hne : gap' = []
      · exact absurd (List.prefix_nil.mp (by simpa [hne] using hx)) hnil
      · exact absurd (eq_nil_of_prefix_blank hgap' hne hx hblank) hnil
    | @lexeme gap gap' front front' rest rest' k ks hgap' hgap hfront hlexeme hrespells _ ih =>
      by_cases hne : gap' = []
      · obtain rfl := hne
        obtain rfl := hgap rfl
        rw [List.nil_append] at hx ⊢
        rcases hrespells with hsame | hhead
        · obtain ⟨tail, htail⟩ := hx
          rcases List.append_eq_append_iff.mp htail with ⟨more, rfl, -⟩ | ⟨more, rfl, hrest⟩
          · -- it ends within the lexeme in front
            obtain ⟨y, y', rfl, hy, -⟩ := SameLetters.append_left (Eq.symm hsame)
            exact ⟨y, by simp [List.append_assoc], Eq.symm hy⟩
          · -- it goes on behind the lexeme in front
            by_cases hmore : more = []
            · refine ⟨front, List.prefix_append front rest, ?_⟩
              rw [hmore, List.append_nil]
              exact hsame
            · obtain ⟨y, hy, hsame'⟩ := ih ⟨tail, hrest.symm⟩
                (List.forall_mem_append.mp hblank).2 (List.forall_mem_append.mp hquote).2 hmore
              exact ⟨front ++ y, (List.prefix_append_right_inj front).mpr hy, hsame.append hsame'⟩
        · obtain ⟨c, cs, rfl, -⟩ := head_isLexeme hlexeme
          exact absurd (eq_nil_of_prefix_cons hx fun hc => hquote c hc (hhead c rfl)) hnil
      · exact absurd (eq_nil_of_prefix_blank hgap' hne hx hblank) hnil

/-- Lexemes of the second text do not run on into those after them. -/
theorem Alongside.recognise {front front' rest rest' : List Char} {k : TokenKind}
    {ks : List TokenKind} (hfront : recognise (front ++ rest) = .ok (k, front.length))
    (hlexeme : IsLexeme front' k) (hrespells : SameOrQuoted front front')
    (h : Alongside ks rest rest') : recognise (front' ++ rest') = .ok (k, front'.length) := by
  refine recognise_of_no_longer hlexeme ?_
  intro x k' hx hlong
  obtain ⟨-, hhead⟩ | ⟨quote, body, hquote, hbody, rfl⟩ := bare_or_quoted hlexeme
  · obtain ⟨c, cs, rfl, -⟩ := head_isLexeme hlexeme
    have hsame : SameLetters front (c :: cs) := by
      rcases hrespells with hsame | hquoted
      · exact hsame
      · exact absurd (hquoted c rfl) (hhead c rfl)
    -- the longer lexeme would be one in the first text too
    obtain ⟨y, hy, hsame'⟩ := h.exists_prefix hx
      (List.forall_mem_append.mp (noBlank_of_bare hlong hhead)).2
      (List.forall_mem_append.mp (noQuote_of_bare hlong hhead)).2
    obtain ⟨_, hlong'⟩ := SameLetters.exists_isLexeme (Eq.symm (hsame.append hsame')) hlong hhead
    obtain rfl := eq_nil_of_recognise hfront hy hlong'
    exact List.map_eq_nil_iff.mp (Eq.symm hsame')
  · exact eq_nil_of_quoted_append hquote hbody hlong

/-- The second text is read as the same kinds. -/
theorem Alongside.readsAs {ks : List TokenKind} {rest rest' : List Char}
    (h : Alongside ks rest rest') : ReadsAs ks rest' := by
  induction h with
  | finish _ hgap' => exact .finish hgap'
  | lexeme hgap' _ hfront hlexeme hrespells htail ih =>
    exact .lexeme hgap' hlexeme (htail.recognise hfront hlexeme hrespells) ih

/-! ## Respelled texts -/

/-- What may stand for the spelling of a token. -/
inductive Respelling (t : Token) : List Char → Prop where
  /-- the spelling itself -/
  | same : Respelling t t.literal.toList
  /-- a reserved word with letters of any case -/
  | recased {k : Keyword} {word : List Char} :
    t.kind = .keyword k → Spells word k → Respelling t word
  /-- a bare name between double quotes or between backticks -/
  | quoted {name : String} {quote : Char} :
    t.kind = .identifier name → t.literal = name → quote = '"' ∨ quote = '\x60' →
      Respelling t (quote :: name.toList ++ [quote])

/-- Other spellings of tokens behind other gaps. A gap stays blank, and it can become empty only if
it was empty. -/
inductive Respelled : List (List Char) → List Token → List Char → Prop where
  | nil : Respelled [] [] []
  | cons {gap gap' word rest : List Char} {gaps : List (List Char)} {t : Token} {ts : List Token} :
    AreBlank gap' → (gap' = [] → gap = []) → Respelling t word → Respelled gaps ts rest →
      Respelled (gap :: gaps) (t :: ts) (gap' ++ (word ++ rest))

/-- A lexeme whose kind carries all of it is a bare name. -/
theorem isWord_of_bare_name {front : List Char}
    (h : IsLexeme front (.identifier (String.ofList front))) : IsWord front := by
  generalize hk : TokenKind.identifier (String.ofList front) = k at h
  cases h with
  | name hword _ => exact hword
  | @quotedName quote body hquote hbody =>
    -- the quotes of a quoted name are not in its kind
    have hlist := String.ofList_injective (TokenKind.identifier.inj hk)
    have hlength := congrArg List.length hlist
    simp only [List.length_append, List.length_cons, List.length_nil] at hlength
    omega
  | _ => cases hk

/-- Another spelling of a token is one of its lexeme. -/
theorem Respelling.of_lexeme {t : Token} {front word : List Char} (h : Respelling t word)
    (hfront : IsLexeme front t.kind) (hliteral : t.literal = String.ofList front) :
    IsLexeme word t.kind ∧ SameOrQuoted front word := by
  cases h with
  | same =>
    rw [hliteral, String.toList_ofList]
    exact ⟨hfront, .inl rfl⟩
  | recased hk hword =>
    rw [hk] at hfront ⊢
    cases hfront with
    | keyword hfront hspells =>
      have hsame : SameLetters front word := hspells.trans hword.symm
      exact ⟨.keyword (hsame.isWord hfront) hword, .inl hsame⟩
  | @quoted name quote hk hbare hquote =>
    obtain rfl : name = String.ofList front := hbare.symm.trans hliteral
    rw [hk] at hfront ⊢
    rw [String.toList_ofList]
    have hmem := mem_quotes_of_quotedName hquote
    refine ⟨.quotedName hquote fun hbody => ?_, .inr fun c hc => ?_⟩
    · exact noQuote_of_isWord (isWord_of_bare_name hfront) quote hbody hmem
    · obtain rfl : quote = c := Option.some.inj hc
      exact hmem

/-- The end of the text has no other spelling. -/
theorem Respelling.of_end {t : Token} {word : List Char} (h : Respelling t word)
    (ht : t.isEnd = true) (hliteral : t.literal = "") : word = [] := by
  have hkind : t.kind = .endOfInput := beq_iff_eq.mp ht
  cases h with
  | same => rw [hliteral]; rfl
  | recased hk _ => rw [hkind] at hk; cases hk
  | quoted hk _ _ => rw [hkind] at hk; cases hk

/-- A token is recognised after the blanks: at the end nothing is left, and everywhere else it
spells a lexeme. -/
theorem exists_front_of_next {l l' : Lexer} {t : Token} (h : l.next = (.ok t, l')) :
    ∃ front, l.rest.dropWhile isBlank = front ++ l'.rest ∧ t.literal = String.ofList front ∧
      recognise (front ++ l'.rest) = .ok (t.kind, front.length) ∧
      if t.isEnd then front = [] else IsLexeme front t.kind := by
  obtain ⟨front, hdrop, hliteral, hr⟩ : ∃ front, l.rest.dropWhile isBlank = front ++ l'.rest ∧
      t.literal = String.ofList front ∧
      recognise (front ++ l'.rest) = .ok (t.kind, front.length) := by
    rw [← rest_skipBlanks]
    simp only [next] at h
    split at h
    · next k n hr =>
      obtain ⟨ht, rfl⟩ := Prod.mk.inj h
      obtain rfl := Except.ok.inj ht
      have hsplit := List.take_append_drop n l.skipBlanks.rest
      refine ⟨l.skipBlanks.rest.take n, ?_, rfl, ?_⟩
      · rw [rest_advanceBy, hsplit]
      · rw [rest_advanceBy, hsplit, hr, List.length_take_of_le (length_le_of_recognise hr)]
    · cases h
    · cases h
  refine ⟨front, hdrop, hliteral, hr, ?_⟩
  by_cases hnil : front ++ l'.rest = []
  · -- nothing is left, which is recognised as the end
    rw [hnil] at hr
    have hkind : t.kind = .endOfInput := (Prod.mk.inj (Except.ok.inj hr)).1.symm
    rw [Token.isEnd, hkind]
    exact (List.append_eq_nil_iff.mp hnil).1
  · obtain ⟨-, hlexeme⟩ := isLexeme_of_recognise hnil hr
    rw [List.take_left] at hlexeme
    have hend : t.isEnd = false := beq_eq_false_iff_ne.mpr (ne_endOfInput_of_isLexeme hlexeme)
    rw [hend]
    exact hlexeme

/-- The first token of a text, and what the others are the tokens of. -/
theorem exists_next_of_tokens {l : Lexer} {ts : List Token} (h : l.tokens = .ok ts) :
    ∃ t ts' l', ts = t :: ts' ∧ l.next = (.ok t, l') ∧
      if t.isEnd then ts' = [] else l'.tokens = .ok ts' := by
  rcases hnext : l.next with ⟨_ | t, l'⟩
  · rw [tokens_of_error hnext] at h
    cases h
  · rw [tokens_of_ok hnext] at h
    by_cases hend : t.isEnd = true
    · rw [if_pos hend] at h
      cases h
      exact ⟨t, [], l', rfl, rfl, if_pos hend ▸ rfl⟩
    · rw [if_neg hend] at h
      cases htail : l'.tokens with
      | error e =>
        rw [htail] at h
        cases h
      | ok ts' =>
        rw [htail] at h
        cases h
        exact ⟨t, ts', l', rfl, rfl, by rw [if_neg hend, htail]⟩

/-- A text whose tokens are respelled goes alongside the new text. -/
theorem Respelled.alongside {gaps : List (List Char)} {ts : List Token} {text' : List Char}
    (h : Respelled gaps ts text') {l : Lexer} (hts : l.tokens = .ok ts)
    (hblank : ∀ gap ∈ gaps, AreBlank gap) (hrest : interleave gaps ts = l.rest) :
    ∃ ks, ts.map Token.kind = ks ++ [.endOfInput] ∧ Alongside ks l.rest text' := by
  induction h generalizing l with
  | nil =>
    obtain ⟨_, _, _, hcons, -⟩ := exists_next_of_tokens hts
    cases hcons
  | @cons gap gap' word rest gaps t ts hgap' hgap hword htail ih =>
    obtain ⟨_, _, l', hcons, hnext, htokens⟩ := exists_next_of_tokens hts
    obtain ⟨rfl, rfl⟩ := List.cons.inj hcons
    obtain ⟨front, hdrop, hliteral, hr, hfront⟩ := exists_front_of_next hnext
    obtain ⟨hfirst, hblanks⟩ := List.forall_mem_cons.mp hblank
    have hsplit : l.rest = gap ++ (front ++ interleave gaps ts) := by
      rw [← hrest]
      simp [interleave, hliteral]
    by_cases hend : t.isEnd = true
    · rw [if_pos hend] at htokens hfront
      obtain rfl := htokens
      obtain rfl := hfront
      obtain rfl := hword.of_end hend hliteral
      cases htail
      refine ⟨[], congrArg (· :: []) (beq_iff_eq.mp hend), ?_⟩
      rw [hsplit]
      simpa [interleave] using Alongside.finish hfirst hgap'
    · rw [if_neg hend] at htokens hfront
      rw [hsplit, dropWhile_isBlank_append hfirst hfront] at hdrop
      have htail' := List.append_cancel_left hdrop
      obtain ⟨ks, hkinds, hks⟩ := ih htokens hblanks htail'
      obtain ⟨hlexeme, hspells⟩ := hword.of_lexeme hfront hliteral
      refine ⟨t.kind :: ks, by rw [List.map_cons, hkinds]; rfl, ?_⟩
      rw [hsplit, htail']
      exact .lexeme hgap' hgap hr hlexeme hspells hks

/-- A respelled text has tokens of the same kinds. -/
theorem kinds_of_respelled {text text' : String} {tokens : List Token}
    (h : tokenize text = .ok tokens) {gaps : List (List Char)}
    (hblank : ∀ gap ∈ gaps, AreBlank gap) (htext : interleave gaps tokens = text.toList)
    (hrespelled : Respelled gaps tokens text'.toList) :
    ∃ tokens', tokenize text' = .ok tokens' ∧
      tokens'.map Token.kind = tokens.map Token.kind := by
  obtain ⟨ks, hkinds, halong⟩ := hrespelled.alongside h hblank htext
  rw [hkinds]
  exact tokens_of_readsAs halong.readsAs (standsAfter_start text'.toList) rfl

end TableSchema.Ddl
