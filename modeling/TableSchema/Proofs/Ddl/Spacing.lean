import TableSchema.Proofs.Ddl.LexerSteps

/-!
# Lexemes between blanks

A lexeme that a blank follows is read back whole: a lexeme without quotes holds no blank, so no
longer one reaches past it, and a quoted one ends at its second quote whatever follows. So lexemes
with blanks between each two are read back one by one.
-/

namespace TableSchema.Ddl

open Lexeme LexicalGrammar Text Lexer

/-! ## Lexemes without blanks -/

theorem isBlank_eq_false {c : Char} (hlow : 0x21 ≤ c.toNat) (hhigh : c.toNat ≤ 0x7E) :
    isBlank c = false := by
  simp only [isBlank, Bool.or_eq_false_iff, Bool.and_eq_false_iff, decide_eq_false_iff_not,
    beq_eq_false_iff_ne]
  omega

theorem isBlank_eq_false_of_isDigit {c : Char} (h : c.isDigit = true) : isBlank c = false := by
  have hbounds := toNat_of_isDigit h
  exact isBlank_eq_false (by omega) (by omega)

theorem isBlank_eq_false_of_isWordPart {c : Char} (h : IsWordPart c) : isBlank c = false := by
  obtain (halpha | rfl) | hdigit := h
  · have hbounds := toNat_of_isAlpha halpha
    exact isBlank_eq_false (by omega) (by omega)
  · rfl
  · exact isBlank_eq_false_of_isDigit hdigit

/-- A text without blanks. -/
def NoBlank (cs : List Char) : Prop := ∀ c ∈ cs, isBlank c = false

theorem noBlank_of_isWord {cs : List Char} (h : IsWord cs) : NoBlank cs :=
  fun c hc => isBlank_eq_false_of_isWordPart (isWordPart_of_mem h c hc)

/-- What holds of digits and of the other characters of numbers holds of all characters of a
number. -/
theorem forall_mem_of_isNumber {P : Char → Prop} (hdigit : ∀ c : Char, c.isDigit = true → P c)
    (hmark : ∀ c ∈ ['+', '-', '.', 'e', 'E'], P c) {cs : List Char} (h : IsNumber cs) :
    ∀ c ∈ cs, P c := by
  have hdigits : ∀ {cs : List Char}, AreDigits cs → ∀ c ∈ cs, P c :=
    fun h c hc => hdigit c (h c hc)
  have hsign : ∀ {cs : List Char}, IsSign cs → ∀ c ∈ cs, P c := by
    rintro cs (rfl | rfl | rfl) c hc
    · exact absurd hc List.not_mem_nil
    · exact hmark c (by simp_all)
    · exact hmark c (by simp_all)
  obtain ⟨sign, whole, point, digits, exponent, hs, hw, hp, hd, -, he, rfl⟩ := h
  have hpoint : ∀ c ∈ point, P c := by
    obtain rfl | rfl := hp
    · exact fun c hc => absurd hc List.not_mem_nil
    · exact List.forall_mem_singleton.mpr (hmark '.' (by simp))
  have hexponent : ∀ c ∈ exponent, P c := by
    obtain rfl | ⟨e, sign, digits, he, hs, hd, -, rfl⟩ := he
    · exact fun c hc => absurd hc List.not_mem_nil
    · have hletter : P e := by obtain rfl | rfl := he <;> exact hmark _ (by simp)
      exact List.forall_mem_append.mpr ⟨List.forall_mem_cons.mpr ⟨hletter, hsign hs⟩, hdigits hd⟩
  simp only [List.forall_mem_append]
  exact ⟨⟨⟨⟨hsign hs, hdigits hw⟩, hpoint⟩, hdigits hd⟩, hexponent⟩

theorem noBlank_of_isNumber {cs : List Char} (h : IsNumber cs) : NoBlank cs :=
  forall_mem_of_isNumber (fun _ => isBlank_eq_false_of_isDigit) (by simp [isBlank]) h

theorem noBlank_of_mem_spellings : ∀ p ∈ spellings, NoBlank p.1 := by
  simp [spellings, NoBlank, isBlank]

/-- A lexeme is bare, without blanks, or stands between quotes. -/
theorem bare_or_quoted {front : List Char} {k : TokenKind} (h : IsLexeme front k) :
    NoBlank front ∧ (∀ c ∈ front.head?, c ∉ quotes) ∨
      ∃ quote body, quote ∈ quotes ∧ quote ∉ body ∧ front = quote :: body ++ [quote] := by
  have hword : IsWord front → NoBlank front ∧ ∀ c ∈ front.head?, c ∉ quotes := by
    intro hfront
    exact ⟨noBlank_of_isWord hfront, fun c hc => (of_startsWord (head_isWord hfront c hc)).1⟩
  cases h with
  | keyword hfront => exact .inl (hword hfront)
  | name hfront => exact .inl (hword hfront)
  | number hfront => exact .inl ⟨noBlank_of_isNumber hfront, head_isNumber hfront⟩
  | string hbody => exact .inr ⟨_, _, by simp [quotes], hbody, rfl⟩
  | quotedName hquote hbody => exact .inr ⟨_, _, mem_quotes_of_quotedName hquote, hbody, rfl⟩
  | symbol hfront =>
    exact .inl ⟨noBlank_of_mem_spellings _ hfront, fun c hc => ((head_spellings _ hfront).2 c hc).1⟩

/-! ## Lexemes before a blank -/

/-- Nothing, or a text with a blank in front. -/
def StartsBlank (cs : List Char) : Prop := ∀ c ∈ cs.head?, isBlank c = true

/-- What a lexeme goes on with behind another one has no blank in it. -/
theorem noBlank_of_isLexeme_append {front x : List Char} {k k' : TokenKind} (h : IsLexeme front k)
    (hlong : IsLexeme (front ++ x) k') : NoBlank x := by
  obtain ⟨-, hhead⟩ | ⟨quote, body, hquote, hbody, rfl⟩ := bare_or_quoted h
  · obtain ⟨hbare, -⟩ | ⟨quote, body, hquote, -, heq⟩ := bare_or_quoted hlong
    · exact (List.forall_mem_append.mp hbare).2
    · cases front with
      | nil => exact absurd h (not_isLexeme_nil k)
      | cons c cs =>
        obtain ⟨rfl, -⟩ := List.cons.inj heq
        exact absurd hquote (hhead c rfl)
  · rw [eq_nil_of_quoted_append hquote hbody hlong]
    exact fun c hc => absurd hc List.not_mem_nil

/-- What does not have the first character of a tail ends ahead of the tail. -/
theorem prefix_of_prefix_append {x mid tail : List Char} (hx : x <+: mid ++ tail)
    (htail : ∀ d ∈ tail.head?, d ∉ x) : x <+: mid := by
  obtain ⟨y, hy⟩ := hx
  rcases List.append_eq_append_iff.mp hy with ⟨more, rfl, -⟩ | ⟨more, rfl, rfl⟩
  · exact List.prefix_append x more
  · cases more with
    | nil => exact ⟨[], by rw [List.append_nil, List.append_nil]⟩
    | cons d ds => exact absurd (by simp) (htail d rfl)

/-- A lexeme that is recognised in a text is recognised too where a blank follows the text. -/
theorem recognise_append_of_startsBlank {front rest tail : List Char} {k : TokenKind}
    (h : IsLexeme front k) (hr : recognise (front ++ rest) = .ok (k, front.length))
    (htail : StartsBlank tail) :
    recognise (front ++ (rest ++ tail)) = .ok (k, front.length) := by
  refine recognise_of_no_longer h ?_
  intro x k' hx hlong
  have hblank := noBlank_of_isLexeme_append h hlong
  have hrest : x <+: rest := prefix_of_prefix_append hx fun d hd hmem =>
    Bool.false_ne_true ((hblank d hmem).symm.trans (htail d hd))
  exact eq_nil_of_recognise hr hrest hlong

/-- A lexeme before a blank is read back whole. -/
theorem recognise_of_startsBlank {front rest : List Char} {k : TokenKind} (h : IsLexeme front k)
    (hrest : StartsBlank rest) : recognise (front ++ rest) = .ok (k, front.length) := by
  have halone : recognise (front ++ []) = .ok (k, front.length) :=
    recognise_of_no_longer h fun x k' hx _ => List.prefix_nil.mp hx
  exact recognise_append_of_startsBlank h halone hrest

theorem head_isLexeme {front : List Char} {k : TokenKind} (h : IsLexeme front k) :
    ∃ c cs, front = c :: cs ∧ isBlank c = false := by
  obtain ⟨hbare, -⟩ | ⟨quote, body, hquote, -, rfl⟩ := bare_or_quoted h
  · cases front with
    | nil => exact absurd h (not_isLexeme_nil k)
    | cons c cs => exact ⟨c, cs, rfl, hbare c List.mem_cons_self⟩
  · have hquotes : ∀ c ∈ quotes, isBlank c = false := by simp [quotes, isBlank]
    exact ⟨quote, _, rfl, hquotes quote hquote⟩

/-! ## Lexemes read one by one -/

/-- A text from whose front lexemes of some kinds are recognised, one after the other, with blanks
before each of them and at the end. -/
inductive ReadsAs : List TokenKind → List Char → Prop where
  | finish {gap : List Char} : AreBlank gap → ReadsAs [] gap
  | lexeme {gap front rest : List Char} {k : TokenKind} {ks : List TokenKind} :
    AreBlank gap → IsLexeme front k → recognise (front ++ rest) = .ok (k, front.length) →
      ReadsAs ks rest → ReadsAs (k :: ks) (gap ++ (front ++ rest))

/-- The blanks before a lexeme are all there is to skip. -/
theorem dropWhile_isBlank_append {gap front : List Char} {k : TokenKind} (hgap : AreBlank gap)
    (hfront : IsLexeme front k) (rest : List Char) :
    (gap ++ (front ++ rest)).dropWhile isBlank = front ++ rest := by
  obtain ⟨c, cs, rfl, hc⟩ := head_isLexeme hfront
  rw [List.dropWhile_append_of_pos hgap, List.cons_append, List.dropWhile_cons_of_neg]
  rw [hc]
  exact Bool.false_ne_true

theorem dropWhile_isBlank_of_areBlank {gap : List Char} (hgap : AreBlank gap) :
    gap.dropWhile isBlank = [] := by
  rw [← List.append_nil gap, List.dropWhile_append_of_pos hgap]
  rfl

/-- The tokens of a text are of the kinds that are recognised in it. -/
theorem tokens_of_readsAs {consumed text rest : List Char} {ks : List TokenKind}
    (h : ReadsAs ks rest) {l : Lexer} (hl : StandsAfter consumed text l) (hrest : l.rest = rest) :
    ∃ ts, l.tokens = .ok ts ∧ ts.map Token.kind = ks ++ [.endOfInput] := by
  induction h generalizing consumed l with
  | @finish gap hgap =>
    obtain ⟨place, l', hnext, -, -⟩ :=
      hl.next_end (by rw [hrest, dropWhile_isBlank_of_areBlank hgap])
    exact ⟨_, tokens_of_ok hnext, rfl⟩
  | @lexeme gap front rest k ks hgap hfront hrecognise htail ih =>
    have hdrop : l.rest.dropWhile isBlank = front ++ rest := by
      rw [hrest, dropWhile_isBlank_append hgap hfront]
    obtain ⟨place, l', hnext, -, hrest', hl'⟩ := hl.next_ok hdrop hrecognise
    obtain ⟨ts, hts, hkinds⟩ := ih hl' hrest'
    have hk : (⟨k, String.ofList front, place⟩ : Token).isEnd = false :=
      beq_eq_false_iff_ne.mpr (ne_endOfInput_of_isLexeme hfront)
    refine ⟨⟨k, String.ofList front, place⟩ :: ts, ?_, ?_⟩
    · rw [tokens_of_ok hnext, hk, hts]
      rfl
    · rw [List.map_cons, hkinds]
      rfl

/-! ## Spaced lexemes -/

/-- Lexemes of some kinds with blanks between each two, and perhaps around them all. -/
inductive Spaced : List TokenKind → List Char → Prop where
  | finish {gap : List Char} : AreBlank gap → Spaced [] gap
  | lexeme {gap front rest : List Char} {k : TokenKind} {ks : List TokenKind} :
    AreBlank gap → IsLexeme front k → StartsBlank rest → Spaced ks rest →
      Spaced (k :: ks) (gap ++ (front ++ rest))

theorem Spaced.readsAs {ks : List TokenKind} {rest : List Char} (h : Spaced ks rest) :
    ReadsAs ks rest := by
  induction h with
  | finish hgap => exact .finish hgap
  | lexeme hgap hfront hblank _ ih =>
    exact .lexeme hgap hfront (recognise_of_startsBlank hfront hblank) ih

/-- Spaced lexemes are read back one by one. -/
theorem tokens_of_spaced {consumed text rest : List Char} {ks : List TokenKind} (h : Spaced ks rest)
    {l : Lexer} (hl : StandsAfter consumed text l) (hrest : l.rest = rest) :
    ∃ ts, l.tokens = .ok ts ∧ ts.map Token.kind = ks ++ [.endOfInput] :=
  tokens_of_readsAs h.readsAs hl hrest

end TableSchema.Ddl
