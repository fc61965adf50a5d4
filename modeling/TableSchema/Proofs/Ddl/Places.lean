import Mathlib.Data.List.DropRight
import TableSchema.Proofs.Ddl.Respelling

/-!
# Where tokens stand

The place of a character is a function of the text ahead of it: the bytes, the line feeds, and the
characters behind the last line feed are counted. A lexer counts as it goes, with a place for the
next character and another one for the end of the text, and it keeps up with the text ahead
(`next_between`): so a lexer of a text is told by where it divides the text, and this says at once
where each token stands, what comes of more blanks, and that two texts with the same beginning are
read alike for as long as it goes.
-/

namespace TableSchema.Ddl

open Lexeme LexicalGrammar Text Lexer

/-! ## Places -/

/-- The characters of a text behind its last line feed; all of them, if it has none. -/
def lastLine (cs : List Char) : List Char := cs.rtakeWhile (· != '\n')

namespace Position

/-- Where a character stands that has this text ahead of it. -/
def behind (cs : List Char) : Position :=
  ⟨byteLength cs, 1 + cs.count '\n', 1 + (lastLine cs).length⟩

/-- Where the end of a text is reported: just behind its last character, on the same line. -/
def endOf (cs : List Char) : Position :=
  match cs.getLast? with
  | none => ⟨0, 1, 0⟩
  | some c => (behind cs.dropLast).past c

/-- A character moves the place on as reading it does. -/
theorem behind_concat (cs : List Char) (c : Char) : behind (cs ++ [c]) = (behind cs).next c := by
  by_cases hc : c = '\n'
  · simp [behind, lastLine, next, hc, Nat.add_assoc]
  · simp [behind, lastLine, next, past, hc, Nat.add_assoc]

/-- The end is reported just past the last character. -/
theorem endOf_concat (cs : List Char) (c : Char) : endOf (cs ++ [c]) = (behind cs).past c := by
  rw [endOf, List.getLast?_concat, List.dropLast_concat]

/-- The offset of the end is the number of bytes. -/
theorem offset_endOf (cs : List Char) : (endOf cs).offset = byteLength cs := by
  obtain rfl | ⟨init, c, rfl⟩ := List.eq_nil_or_concat cs
  · rfl
  · rw [List.concat_eq_append, endOf_concat, byteLength_append]
    rfl

end Position

/-! ## Lexers -/

namespace Lexer

/-- The lexer that has consumed one part of a text and has the other part left. -/
def between (consumed rest : List Char) : Lexer := ⟨rest, .behind consumed, .endOf consumed⟩

@[simp] theorem rest_between (consumed rest : List Char) : (between consumed rest).rest = rest :=
  rfl

theorem start_eq_between (text : List Char) : start text = between [] text := rfl

/-- One character moves from one part to the other. -/
theorem advance_between (consumed : List Char) (c : Char) (cs : List Char) :
    (between consumed (c :: cs)).advance = between (consumed ++ [c]) cs := by
  rw [between, between, Position.behind_concat, Position.endOf_concat]
  rfl

/-- Some characters move from one part to the other. -/
theorem advanceBy_between (consumed front rest : List Char) :
    (between consumed (front ++ rest)).advanceBy front.length =
      between (consumed ++ front) rest := by
  induction front generalizing consumed with
  | nil =>
    rw [List.append_nil]
    rfl
  | cons c cs ih =>
    rw [List.cons_append, List.length_cons, advanceBy, advance_between, ih, List.append_assoc]
    rfl

/-- Skipping blanks moves those in front. -/
theorem skipBlanks_between (consumed rest : List Char) :
    (between consumed rest).skipBlanks =
      between (consumed ++ rest.takeWhile isBlank) (rest.dropWhile isBlank) := by
  have hsplit : rest = rest.takeWhile isBlank ++ rest.dropWhile isBlank :=
    List.takeWhile_append_dropWhile.symm
  calc (between consumed rest).skipBlanks
      = (between consumed (rest.takeWhile isBlank ++ rest.dropWhile isBlank)).advanceBy
          (rest.takeWhile isBlank).length := by rw [← hsplit]; rfl
    _ = _ := advanceBy_between _ _ _

/-- Blanks in front make no difference but for where what follows them stands. -/
theorem next_between_blanks {gap : List Char} (hgap : AreBlank gap) (consumed rest : List Char) :
    (between consumed (gap ++ rest)).next = (between (consumed ++ gap) rest).next := by
  have hskip : (between consumed (gap ++ rest)).skipBlanks =
      (between (consumed ++ gap) rest).skipBlanks := by
    rw [skipBlanks_between, skipBlanks_between, List.takeWhile_append_of_pos hgap,
      List.dropWhile_append_of_pos hgap, List.append_assoc]
  rw [next, next, hskip]

/-- At its end a text answers with the end, again and again. -/
theorem next_between_end (consumed : List Char) :
    (between consumed []).next =
      (.ok ⟨.endOfInput, "", .endOf consumed⟩, between consumed []) := rfl

/-- Where no blank is in front, nothing is skipped. -/
theorem skipBlanks_between_cons {c : Char} (hc : isBlank c = false) (cs consumed : List Char) :
    (between consumed (c :: cs)).skipBlanks = between consumed (c :: cs) := by
  rw [skipBlanks_between, List.takeWhile_cons_of_neg (by simp [hc]),
    List.dropWhile_cons_of_neg (by simp [hc]), List.append_nil]

/-- A lexeme that is recognised in front is the next token, which stands where the text behind
begins. -/
theorem next_between_lexeme {front rest : List Char} {k : TokenKind} (hfront : IsLexeme front k)
    (hr : recognise (front ++ rest) = .ok (k, front.length)) (consumed : List Char) :
    (between consumed (front ++ rest)).next =
      (.ok ⟨k, String.ofList front, .behind consumed⟩, between (consumed ++ front) rest) := by
  obtain ⟨c, cs, rfl, hc⟩ := head_isLexeme hfront
  rw [next, List.cons_append, skipBlanks_between_cons hc, ← List.cons_append]
  simp only [rest_between, hr, List.take_left, advanceBy_between]
  rfl

/-- A character that starts no lexeme stays in front. -/
theorem next_between_unexpected {c d : Char} (hc : isBlank c = false) {cs : List Char}
    (hr : recognise (c :: cs) = .error (.unexpected d)) (consumed : List Char) :
    (between consumed (c :: cs)).next =
      (.error ⟨.unexpected d, byteLength consumed⟩, between consumed (c :: cs)) := by
  rw [next, skipBlanks_between_cons hc]
  simp only [rest_between, hr]
  rfl

/-- A quote that is not closed takes the rest of the text with it. -/
theorem next_between_open {c : Char} (hc : isBlank c = false) {cs : List Char} {fault : Fault}
    (hfault : fault = .openString ∨ fault = .openIdentifier)
    (hr : recognise (c :: cs) = .error fault) (consumed : List Char) :
    (between consumed (c :: cs)).next =
      (.error ⟨fault, byteLength consumed⟩, between (consumed ++ c :: cs) []) := by
  have hend : (between consumed (c :: cs)).advanceBy (c :: cs).length =
      between (consumed ++ c :: cs) [] := by
    rw [← advanceBy_between, List.append_nil]
  rw [next, skipBlanks_between_cons hc]
  obtain rfl | rfl := hfault <;> simp only [rest_between, hr, hend] <;> rfl

/-- A fault is reported where it stands, and the lexer still divides the text. -/
theorem next_between_fault {c : Char} (hc : isBlank c = false) {cs : List Char} {fault : Fault}
    (hr : recognise (c :: cs) = .error fault) (consumed : List Char) :
    ∃ consumed' rest, consumed' ++ rest = consumed ++ c :: cs ∧
      (between consumed (c :: cs)).next =
        (.error ⟨fault, byteLength consumed⟩, between consumed' rest) := by
  cases fault with
  | unexpected d => exact ⟨consumed, c :: cs, rfl, next_between_unexpected hc hr consumed⟩
  | openString => exact ⟨_, [], List.append_nil _, next_between_open hc (.inl rfl) hr consumed⟩
  | openIdentifier => exact ⟨_, [], List.append_nil _, next_between_open hc (.inr rfl) hr consumed⟩

/-- What a text comes to behind the blanks in front of it: nothing, a lexeme that is recognised, or
a character at fault. -/
inductive Starts : List Char → Prop where
  | nothing : Starts []
  | lexeme {front rest : List Char} {k : TokenKind} :
    IsLexeme front k → recognise (front ++ rest) = .ok (k, front.length) → Starts (front ++ rest)
  | fault {c : Char} {cs : List Char} :
    isBlank c = false → recognise (c :: cs) = .error (faultAt c) → Starts (c :: cs)

/-- Behind its blanks a text comes to something. -/
theorem exists_starts (text : List Char) :
    ∃ gap rest, AreBlank gap ∧ text = gap ++ rest ∧ Starts rest := by
  refine ⟨_, _, fun _ hc => mem_takeWhile hc, List.takeWhile_append_dropWhile.symm, ?_⟩
  cases hrest : text.dropWhile isBlank with
  | nil => exact .nothing
  | cons c cs =>
    cases hr : recognise (c :: cs) with
    | ok found =>
      obtain ⟨k, n⟩ := found
      obtain ⟨hle, hlexeme⟩ := isLexeme_of_recognise (List.cons_ne_nil c cs) hr
      have hsplit := List.take_append_drop n (c :: cs)
      refine hsplit ▸ .lexeme hlexeme ?_
      rw [hsplit, List.length_take_of_le hle, hr]
    | error fault =>
      have hc : isBlank c = false := by
        have hnot := List.head?_dropWhile_not isBlank text
        rw [hrest] at hnot
        exact hnot
      exact .fault hc (recognise_eq_faultAt hr ▸ hr)

/-- What holds of a place of a text with nothing but blanks behind it, or with a character at fault
behind blanks, and holds ahead of a lexeme where it holds behind the lexeme, holds of every place of
a text. -/
theorem lexeme_induction {P : List Char → List Char → Prop}
    (nothing : ∀ consumed gap, AreBlank gap → P consumed gap)
    (fault : ∀ consumed gap c cs, AreBlank gap → isBlank c = false →
      recognise (c :: cs) = .error (faultAt c) → P consumed (gap ++ c :: cs))
    (lexeme : ∀ consumed gap front rest k, AreBlank gap → IsLexeme front k →
      recognise (front ++ rest) = .ok (k, front.length) → P (consumed ++ gap ++ front) rest →
        P consumed (gap ++ (front ++ rest)))
    (consumed rest : List Char) : P consumed rest := by
  induction hn : rest.length using Nat.strong_induction_on generalizing consumed rest with
  | h n ih =>
    obtain ⟨gap, rest, hgap, rfl, hstarts⟩ := exists_starts rest
    cases hstarts with
    | nothing => exact (List.append_nil gap).symm ▸ nothing consumed gap hgap
    | fault hc hr => exact fault consumed gap _ _ hgap hc hr
    | @lexeme front rest k hfront hr =>
      refine lexeme consumed gap front rest k hgap hfront hr (ih _ ?_ _ rest rfl)
      obtain ⟨c, cs, rfl, -⟩ := head_isLexeme hfront
      rw [← hn]
      simp only [List.length_append, List.length_cons]
      omega

/-! ### Runs -/

/-- What a lexer answers next and what it leaves behind decide the tokens to come. -/
theorem tokens_congr {l l' : Lexer} (h : l.next = l'.next) : l.tokens = l'.tokens := by
  rcases hnext : l'.next with ⟨_ | t, l''⟩
  · rw [tokens_of_error hnext, tokens_of_error (h.trans hnext)]
  · rw [tokens_of_ok hnext, tokens_of_ok (h.trans hnext)]

/-- Blanks in front make no token. -/
theorem tokens_between_blanks {gap : List Char} (hgap : AreBlank gap)
    (consumed rest : List Char) :
    (between consumed (gap ++ rest)).tokens = (between (consumed ++ gap) rest).tokens :=
  tokens_congr (next_between_blanks hgap consumed rest)

/-- At the end there is one token left. -/
theorem tokens_between_end (consumed : List Char) :
    (between consumed []).tokens = .ok [⟨.endOfInput, "", .endOf consumed⟩] :=
  tokens_of_ok (next_between_end consumed)

/-- A lexeme in front is the first of the tokens to come. -/
theorem tokens_between_lexeme {front rest : List Char} {k : TokenKind} (hfront : IsLexeme front k)
    (hr : recognise (front ++ rest) = .ok (k, front.length)) (consumed : List Char) :
    (between consumed (front ++ rest)).tokens =
      (between (consumed ++ front) rest).tokens.map
        (⟨k, String.ofList front, .behind consumed⟩ :: ·) := by
  rw [tokens_of_ok (next_between_lexeme hfront hr consumed), if_neg]
  exact fun hend => ne_endOfInput_of_isLexeme hfront (beq_iff_eq.mp hend)

/-! ### Reachable lexers -/

/-- Whatever the lexer answers, it divides the text somewhere afterwards. -/
theorem exists_between_next (consumed rest : List Char) :
    ∃ consumed' rest', consumed' ++ rest' = consumed ++ rest ∧
      (between consumed rest).next.2 = between consumed' rest' := by
  obtain ⟨gap, rest, hgap, rfl, hstarts⟩ := exists_starts rest
  rw [next_between_blanks hgap, ← List.append_assoc]
  cases hstarts with
  | nothing => exact ⟨_, _, rfl, rfl⟩
  | @lexeme front rest k hfront hr =>
    exact ⟨_, _, List.append_assoc _ _ _, by rw [next_between_lexeme hfront hr]⟩
  | fault hc hr =>
    obtain ⟨consumed', rest', hsplit, hnext⟩ := next_between_fault hc hr (consumed ++ gap)
    exact ⟨consumed', rest', hsplit, by rw [hnext]⟩

/-- Every lexer that is reached divides its text in two parts. -/
theorem ReachableFrom.exists_between {text : List Char} {l : Lexer} (h : ReachableFrom text l) :
    ∃ consumed rest, consumed ++ rest = text ∧ l = between consumed rest := by
  induction h with
  | start => exact ⟨[], text, rfl, start_eq_between text⟩
  | next _ ih =>
    obtain ⟨consumed, rest, rfl, rfl⟩ := ih
    exact exists_between_next consumed rest

/-- The tokens of a lexer are answers of lexers that it leads to. -/
theorem exists_next_of_mem_tokens {text : List Char} {l : Lexer} (hl : ReachableFrom text l)
    {ts : List Token} (hts : l.tokens = .ok ts) {t : Token} (ht : t ∈ ts) :
    ∃ l', ReachableFrom text l' ∧ l'.next.1 = .ok t := by
  induction ts generalizing l with
  | nil => cases ht
  | cons u us ih =>
    obtain ⟨_, _, l', hcons, hnext, htail⟩ := exists_next_of_tokens hts
    obtain ⟨rfl, rfl⟩ := List.cons.inj hcons
    obtain rfl | ht := List.mem_cons.mp ht
    · exact ⟨l, hl, by rw [hnext]⟩
    · by_cases hend : u.isEnd = true
      · rw [if_pos hend] at htail
        rw [htail] at ht
        cases ht
      · rw [if_neg hend] at htail
        have hl' : ReachableFrom text l' := by
          have hstep := hl.next
          rw [hnext] at hstep
          exact hstep
        exact ih hl' htail ht

end Lexer

/-! ## Tokens -/

/-- A token stands in a text where it says. -/
structure PlacedIn (text : List Char) (t : Token) : Prop where
  /-- a token but the end has ahead of it the bytes before it, the line feeds that end the lines
  before its own, and the characters before it on its own line -/
  of_word : t.kind ≠ .endOfInput → ∃ before after,
    text = before ++ (t.literal.toList ++ after) ∧
      t.position.offset = byteLength before ∧
      t.position.line = 1 + before.count '\n' ∧
      t.position.column = 1 + (lastLine before).length
  /-- the end has the whole text ahead of it, and is on the line of the last character, one column
  further -/
  of_end : t.kind = .endOfInput → t.position.offset = byteLength text ∧
    ∀ before c, text = before ++ [c] →
      t.position.line = 1 + before.count '\n' ∧
        t.position.column = (1 + (lastLine before).length) + 1

/-- Every token that a lexer of a text finds is placed in the text. -/
theorem placedIn_of_next {text : List Char} {l : Lexer} (hl : ReachableFrom text l) {t : Token}
    (ht : l.next.1 = .ok t) : PlacedIn text t := by
  obtain ⟨consumed, rest, rfl, rfl⟩ := hl.exists_between
  obtain ⟨gap, rest, hgap, rfl, hstarts⟩ := exists_starts rest
  rw [next_between_blanks hgap] at ht
  rw [← List.append_assoc]
  cases hstarts with
  | nothing =>
    rw [next_between_end] at ht
    cases ht
    rw [List.append_nil]
    refine ⟨fun hkind => absurd rfl hkind, fun _ => ⟨Position.offset_endOf _, ?_⟩⟩
    rintro before c htext
    rw [htext, Position.endOf_concat]
    exact ⟨rfl, rfl⟩
  | @lexeme front rest k hfront hr =>
    rw [next_between_lexeme hfront hr] at ht
    cases ht
    refine ⟨fun _ => ⟨consumed ++ gap, rest, ?_, rfl, rfl, rfl⟩, fun hkind => ?_⟩
    · rw [String.toList_ofList]
    · exact absurd hkind (ne_endOfInput_of_isLexeme hfront)
  | fault hc hr =>
    obtain ⟨_, _, -, hnext⟩ := next_between_fault hc hr (consumed ++ gap)
    rw [hnext] at ht
    cases ht

/-- **Tokens stand where they say**, those of a whole text and those that a lexer finds after a
fault: ahead of a token are as many bytes as its offset, as many line feeds as its line but one, and
as many characters on its own line as its column but one. The end of a text that is not empty stands
behind the last character, on its line even if that is a line feed. -/
theorem tokens_stand_where_they_say :
    (∀ text tokens, tokenize text = .ok tokens → ∀ t ∈ tokens, PlacedIn text.toList t) ∧
    ∀ text l, ReachableFrom text l → ∀ t, l.next.1 = .ok t → PlacedIn text t := by
  refine ⟨fun text tokens htokens t ht => ?_, fun text l hl t ht => placedIn_of_next hl ht⟩
  obtain ⟨l, hl, hnext⟩ := exists_next_of_mem_tokens .start htokens ht
  exact placedIn_of_next hl hnext

/-- A name behind a string of two lines, and the end behind a string that is not closed. -/
theorem tokens_stand_behind_quotes :
    tokenize "'é\n' x" = .ok [⟨.string "é\n", "'é\n'", ⟨0, 1, 1⟩⟩,
        ⟨.identifier "x", "x", ⟨6, 2, 3⟩⟩, ⟨.endOfInput, "", ⟨7, 2, 4⟩⟩] ∧
      PlacedIn "'é\n' x".toList ⟨.identifier "x", "x", ⟨6, 2, 3⟩⟩ ∧
      (start "x\n'é".toList).next.2.next = (.error ⟨.openString, 2⟩, between "x\n'é".toList []) ∧
      PlacedIn "x\n'é".toList ⟨.endOfInput, "", ⟨5, 2, 3⟩⟩ := by
  have htokens : tokenize "'é\n' x" = .ok [⟨.string "é\n", "'é\n'", ⟨0, 1, 1⟩⟩,
      ⟨.identifier "x", "x", ⟨6, 2, 3⟩⟩, ⟨.endOfInput, "", ⟨7, 2, 4⟩⟩] := by decide +kernel
  have hfault : (start "x\n'é".toList).next.2.next =
      (.error ⟨.openString, 2⟩, between "x\n'é".toList []) := by decide +kernel
  have hend : (start "x\n'é".toList).next.2.next.2.next.1 =
      .ok ⟨.endOfInput, "", ⟨5, 2, 3⟩⟩ := by decide +kernel
  obtain ⟨hplaced, hplaced'⟩ := tokens_stand_where_they_say
  exact ⟨htokens, hplaced _ _ htokens _ (by decide), hfault,
    hplaced' _ _ (ReachableFrom.start.next.next) _ hend⟩

end TableSchema.Ddl
