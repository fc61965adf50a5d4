import TableSchema.Ddl.Scanner
import TableSchema.Proofs.Ddl.Places

/-!
# Scanners keep their place

What a scanner has read and what it has not make up the text (`between`), and its three ways to keep
its place say the same: every character that is read keeps this up, at the end of the text as well.
So all that is done between two answers is done at such a place, and a slice between two of them can
always be taken.

Each reader moves past as many characters as the lexeme in front is long. A scanner and a lexer that
divide a text alike therefore give the same answer, and divide it alike afterwards.
-/

namespace TableSchema.Ddl

open Lexeme Text

namespace Scanner

/-! ## Places -/

/-- The scanner that has one part of a text behind it and the other part ahead. -/
def between (consumed rest : List Char) : Scanner where
  text := consumed ++ rest
  unread := (placed (byteLength consumed) rest).tail
  offset := byteLength consumed
  line := (Lexer.between consumed rest).position.line
  column := (Lexer.between consumed rest).position.column
  current := rest.head?

@[simp] theorem text_between (consumed rest : List Char) :
    (between consumed rest).text = consumed ++ rest := rfl

@[simp] theorem current_between (consumed rest : List Char) :
    (between consumed rest).current = rest.head? := rfl

theorem map_snd_placed (offset : Nat) (cs : List Char) : (placed offset cs).map Prod.snd = cs := by
  induction cs generalizing offset with
  | nil => rfl
  | cons c cs ih => rw [placed, List.map_cons, ih]

/-- The character under the scanner is not among those to come. -/
theorem map_snd_unread_between (consumed rest : List Char) :
    (between consumed rest).unread.map Prod.snd = rest.tail := by
  rw [between, List.map_tail, map_snd_placed]

/-- A scanner sees one character behind the one that it is at. -/
theorem peek_between (consumed rest : List Char) :
    (between consumed rest).peek = rest.tail.head? := by
  rw [peek, ← List.head?_map, map_snd_unread_between]

/-- A scanner and a lexer that divide a text alike are at the same place in it. -/
theorem position_between (consumed rest : List Char) :
    (between consumed rest).position = (Lexer.between consumed rest).position := by
  have hoffset : (Lexer.between consumed rest).position.offset = byteLength consumed := by
    rw [Lexer.position]
    split
    · exact Position.offset_endOf consumed
    · rfl
  rw [position, between, ← hoffset]

theorem start_eq_between (text : List Char) : start text = between [] text := by
  cases text <;> rfl

/-- Reading a character moves it from one part to the other. -/
theorem read_between (consumed : List Char) (c : Char) (cs : List Char) :
    (between consumed (c :: cs)).read = between (consumed ++ [c]) cs := by
  have htext : consumed ++ [c] ++ cs = consumed ++ c :: cs := by simp
  have hoffset : byteLength (consumed ++ [c]) = byteLength consumed + c.utf8Size := by simp
  cases cs with
  | nil =>
    -- the end is reported one past the last character, on its line
    simp only [read, between, placed, List.tail_cons, List.head?_cons, htext, hoffset,
      List.tail_nil, List.head?_nil, Lexer.position, Lexer.between, List.isEmpty_nil,
      List.isEmpty_cons, Position.endOf_concat, Position.past, if_true, Bool.false_eq_true,
      if_false]
  | cons d ds =>
    simp only [read, between, placed, List.tail_cons, List.head?_cons, htext, hoffset,
      Lexer.position, Lexer.between, List.isEmpty_cons, Position.behind_concat, Position.next,
      Option.some.injEq, Bool.false_eq_true, if_false]
    split <;> rfl

theorem read_between_end (consumed : List Char) :
    (between consumed []).read = between consumed [] := rfl

/-- The place some characters further on. -/
def passed (consumed rest : List Char) (n : Nat) : Scanner :=
  between (consumed ++ rest.take n) (rest.drop n)

theorem passed_zero (consumed rest : List Char) :
    passed consumed rest 0 = between consumed rest := by simp [passed]

/-- Reading some characters moves them from one part to the other. -/
theorem readBy_between (consumed rest : List Char) (n : Nat) :
    (between consumed rest).readBy n = passed consumed rest n := by
  induction n generalizing consumed rest with
  | zero => simp [readBy, passed]
  | succ n ih =>
    cases rest with
    | nil => rw [readBy, read_between_end, ih]; simp [passed]
    | cons c cs => rw [readBy, read_between, ih]; simp [passed]

/-- Places further on add up. -/
theorem passed_passed (consumed rest : List Char) (m n : Nat) :
    passed (consumed ++ rest.take m) (rest.drop m) n = passed consumed rest (m + n) := by
  rw [passed, passed, List.append_assoc, ← List.take_add, List.drop_drop]

theorem passed_append (consumed front rest : List Char) :
    passed consumed (front ++ rest) front.length = between (consumed ++ front) rest := by
  rw [passed, List.take_left, List.drop_left]

/-- Reading as long as characters fit goes past those that do. -/
theorem readWhile_between (p : Char → Bool) (consumed rest : List Char) :
    (between consumed rest).readWhile p = passed consumed rest (rest.takeWhile p).length := by
  induction rest generalizing consumed with
  | nil => rw [readWhile, dif_neg (by simp)]; simp [passed]
  | cons c cs ih =>
    by_cases hc : p c = true
    · rw [readWhile, dif_pos (by simpa using hc), read_between, ih]
      simp [passed, hc]
    · rw [readWhile, dif_neg (by simpa using hc)]
      simp [passed, hc]

/-! ## Slices -/

/-- Looking ahead never goes wrong, as the offset stands between characters. -/
theorem ahead?_between (consumed rest : List Char) (n : Nat) :
    (between consumed rest).ahead? n = some rest[n]? := by
  rw [ahead?, between, dropBytes?_append]
  rfl

/-- What was read since a place is the slice up to here. -/
theorem since?_passed (consumed rest : List Char) (n : Nat) :
    (passed consumed rest n).since? (between consumed rest).offset = some (rest.take n) := by
  rw [since?, passed, between, between, slice?_append]

/-- The characters between two places are those between their offsets. -/
theorem isSlice_passed (consumed rest : List Char) (n : Nat) :
    IsSlice (consumed ++ rest) (byteLength consumed) (passed consumed rest n).offset
      (rest.take n) := by
  have htext : consumed ++ rest = (passed consumed rest n).text := by
    rw [passed, text_between, List.append_assoc, List.take_append_drop]
  rw [htext]
  exact slice?_eq_some_iff.mp (since?_passed consumed rest n)

/-! ## Numbers -/

/-- There are digits in front if the first character is one. -/
theorem digitCount_ne_zero_iff {cs : List Char} :
    digitCount cs ≠ 0 ↔ cs.head?.any Char.isDigit = true := by
  cases cs with
  | nil => simp [digitCount]
  | cons c cs => by_cases hc : c.isDigit = true <;> simp [digitCount, hc]

/-- A scanner is at a sign where a sign is in front. -/
theorem atSign_between (consumed rest : List Char) :
    (between consumed rest).atSign = decide (signLength rest = 1) := by
  unfold signLength
  split
  · rfl
  · rfl
  · next hplus hminus =>
    cases rest with
    | nil => rfl
    | cons c cs =>
      have hp : c ≠ '+' := fun hc => hplus cs (by rw [hc])
      have hm : c ≠ '-' := fun hc => hminus cs (by rw [hc])
      simp [atSign, hp, hm]

theorem signLength_cases (cs : List Char) : signLength cs = 0 ∨ signLength cs = 1 := by
  unfold signLength
  split <;> simp

/-- Skipping a sign goes as far as the sign is long. -/
theorem skipSign_between (consumed rest : List Char) :
    (between consumed rest).skipSign = passed consumed rest (signLength rest) := by
  rw [skipSign, atSign_between]
  obtain h | h := signLength_cases rest
  · rw [h, passed_zero]
    rfl
  · rw [h, ← readBy_between]
    rfl

/-- Skipping a fraction goes as far as the fraction is long. -/
theorem skipFraction_between (consumed rest : List Char) :
    (between consumed rest).skipFraction = passed consumed rest (fractionLength rest) := by
  rw [skipFraction, current_between, peek_between]
  cases rest with
  | nil => exact (passed_zero consumed _).symm
  | cons c cs =>
    by_cases hc : c = '.'
    · subst hc
      rw [List.head?_cons, List.tail_cons, fractionLength, BEq.rfl, Bool.true_and]
      by_cases hdigits : digitCount cs = 0
      · have hnone : ¬cs.head?.any Char.isDigit = true := fun h =>
          digitCount_ne_zero_iff.mpr h hdigits
        rw [if_neg hnone, if_pos hdigits, passed_zero]
      · rw [if_pos (digitCount_ne_zero_iff.mp hdigits), if_neg hdigits, read_between,
          readWhile_between]
        exact passed_passed consumed ('.' :: cs) 1 _
    · rw [fractionLength_cons_of_ne hc, passed_zero]
      simp [hc]

/-- A scanner sees a digit ahead where there is one. -/
theorem digitAhead?_between (consumed rest : List Char) (n : Nat) :
    (between consumed rest).digitAhead? n = some (decide (digitCount (rest.drop n) ≠ 0)) := by
  rw [digitAhead?, ahead?_between, ← List.head?_drop]
  simp [digitCount_ne_zero_iff]

/-- A scanner goes on to an exponent where one with digits follows. -/
theorem powerFollows?_between (consumed : List Char) (c : Char) (cs : List Char) :
    (between consumed (c :: cs)).powerFollows? = some (decide (powerLength cs ≠ 0)) := by
  rw [powerFollows?, ahead?_between, digitAhead?_between]
  cases cs with
  | nil => rfl
  | cons d ds =>
    by_cases hd : d.isDigit = true
    · have hsign : signLength (d :: ds) = 0 :=
        signLength_append_cons (.inl rfl) (ne_of_isDigit hd rfl) (ne_of_isDigit hd rfl) ds
      simp [powerLength, hsign, hd, digitCount]
    · by_cases hsign : d = '+' ∨ d = '-'
      · obtain rfl | rfl := hsign <;> simp [powerLength, signLength, hd]
      · obtain ⟨hplus, hminus⟩ := not_or.mp hsign
        have hnone : signLength (d :: ds) = 0 := signLength_append_cons (.inl rfl) hplus hminus ds
        simp [powerLength, hnone, hd, hplus, hminus, digitCount]

/-- Skipping an exponent goes as far as the exponent is long. -/
theorem skipExponent?_between (consumed rest : List Char) :
    (between consumed rest).skipExponent? =
      some (passed consumed rest (exponentLength rest)) := by
  rw [skipExponent?, current_between]
  cases rest with
  | nil => exact congrArg some (passed_zero consumed _).symm
  | cons c cs =>
    rw [List.head?_cons, powerFollows?_between]
    by_cases hc : c = 'e' ∨ c = 'E'
    · have hletter : (c == 'e' || c == 'E') = true := by simpa using hc
      by_cases hpower : powerLength cs = 0
      · simp [exponentLength, hletter, hpower, passed_zero]
      · have hdigits : powerLength cs =
            signLength cs + digitCount (cs.drop (signLength cs)) := by
          unfold powerLength at hpower ⊢
          simp only [ite_eq_left_iff, not_forall] at hpower
          rw [if_neg hpower.1]
        have hread : (between consumed (c :: cs)).read.skipSign.readWhile Char.isDigit =
            passed consumed (c :: cs) (1 + powerLength cs) := by
          rw [read_between, skipSign_between, passed, readWhile_between, passed_passed, hdigits]
          exact passed_passed consumed (c :: cs) 1 _
        simp [exponentLength, hletter, hpower, hread]
    · have hletter : (c == 'e' || c == 'E') = false := by simpa using hc
      simp [exponentLength, hletter, passed_zero]

/-- A number starts where the digits and the fraction behind the sign are not empty. -/
theorem numberLength_ne_zero_iff {cs : List Char} :
    numberLength cs ≠ 0 ↔ decimalLength (cs.drop (signLength cs)) ≠ 0 := by
  by_cases h : decimalLength (cs.drop (signLength cs)) = 0
  · simp [numberLength, h]
  · simp only [numberLength, h, if_false]
    omega

/-- Digits and a fraction start with a digit, or with a point that has a digit behind it. -/
theorem decimalLength_cons_ne_zero_iff {c : Char} {cs : List Char} :
    decimalLength (c :: cs) ≠ 0 ↔ c.isDigit = true ∨ c = '.' ∧ digitCount cs ≠ 0 := by
  by_cases hc : c.isDigit = true
  · have hcount : digitCount (c :: cs) ≠ 0 := digitCount_ne_zero_iff.mpr (by simpa using hc)
    exact ⟨fun _ => .inl hc, fun _ h => hcount (Nat.eq_zero_of_add_eq_zero h).1⟩
  · have hcount : digitCount (c :: cs) = 0 := by simp [digitCount, hc]
    rw [decimalLength, hcount, List.drop_zero, Nat.zero_add]
    by_cases hpoint : c = '.'
    · subst hpoint
      by_cases hdigits : digitCount cs = 0 <;> simp [fractionLength, hdigits]
    · simp [fractionLength_cons_of_ne hpoint, hpoint, hc]

/-- A scanner takes a number to start just where one does. -/
theorem numberStarts?_between (consumed rest : List Char) :
    (between consumed rest).numberStarts? = some (decide (numberLength rest ≠ 0)) := by
  have hsign : (if decide (signLength rest = 1) = true then 1 else 0) = signLength rest := by
    obtain h | h := signLength_cases rest <;> simp [h]
  have hiff : decide (numberLength rest ≠ 0) =
      decide (decimalLength (rest.drop (signLength rest)) ≠ 0) :=
    decide_eq_decide.mpr numberLength_ne_zero_iff
  rw [numberStarts?, atSign_between, hiff]
  simp only [hsign, ahead?_between, digitAhead?_between, ← List.head?_drop]
  rw [← List.tail_drop]
  cases rest.drop (signLength rest) with
  | nil => rfl
  | cons c cs =>
    have hcons : decide (decimalLength (c :: cs) ≠ 0) =
        decide (c.isDigit = true ∨ c = '.' ∧ digitCount cs ≠ 0) :=
      decide_eq_decide.mpr decimalLength_cons_ne_zero_iff
    rw [hcons, List.head?_cons, List.tail_cons]
    by_cases hc : c.isDigit = true
    · simp [hc]
    · by_cases hpoint : c = '.' <;> simp [hc, hpoint]

/-- How far a number would reach, if one started here. -/
def numberSpan (cs : List Char) : Nat :=
  let mantissa := signLength cs + decimalLength (cs.drop (signLength cs))
  mantissa + exponentLength (cs.drop mantissa)

/-- Where there is a number, its parts reach as far as it does. -/
theorem numberSpan_eq {cs : List Char} (h : numberLength cs ≠ 0) :
    numberSpan cs = numberLength cs := by
  rw [numberLength, if_neg (numberLength_ne_zero_iff.mp h)]
  rfl

/-- Reading a number takes its characters and goes behind it. -/
theorem readNumber_between (consumed rest : List Char) :
    (between consumed rest).readNumber =
      some (rest.take (numberSpan rest), passed consumed rest (numberSpan rest)) := by
  -- the sign, the digits, the fraction and the exponent, each where the one before it ends
  have hskip : ((between consumed rest).skipSign.readWhile Char.isDigit).skipFraction =
      passed consumed rest (signLength rest + decimalLength (rest.drop (signLength rest))) := by
    rw [skipSign_between, passed, readWhile_between, passed_passed, passed, skipFraction_between,
      passed_passed, decimalLength, List.drop_drop, Nat.add_assoc]
    rfl
  have hspan : (passed consumed rest (signLength rest +
      decimalLength (rest.drop (signLength rest)))).skipExponent? =
        some (passed consumed rest (numberSpan rest)) := by
    rw [passed, skipExponent?_between, passed_passed]
    rfl
  rw [readNumber, hskip, hspan, Option.bind_eq_bind, Option.bind_some, since?_passed]
  rfl

/-! ## Words and quotes -/

/-- Reading a word takes its characters and goes behind it. -/
theorem readWord_between (consumed rest : List Char) :
    (between consumed rest).readWord =
      some (rest.takeWhile inWord, passed consumed rest (rest.takeWhile inWord).length) := by
  rw [readWord, readWhile_between, since?_passed, take_length_takeWhile]
  rfl

/-- Reading what is quoted goes behind the closing quote, or to the end of the text if there is
none. -/
theorem readQuoted_between (quote : Char) (consumed rest : List Char) :
    (between consumed rest).readQuoted quote =
      match quoted? quote rest.tail with
      | some body => some (some body, passed consumed rest (body.length + 2))
      | none => some (none, between (consumed ++ rest) []) := by
  cases rest with
  | nil => simp [readQuoted, read_between_end, readWhile_between, quoted?, passed]
  | cons c cs =>
    rw [List.tail_cons, readQuoted, read_between]
    simp only [readWhile_between]
    cases hbody : quoted? quote cs with
    | none =>
      -- the quote does not occur, so that all is read
      have hmem : quote ∉ cs := fun h => by simp [quoted?, h] at hbody
      have hall : cs.takeWhile (fun d => decide (d ≠ quote)) = cs :=
        List.takeWhile_eq_self_iff.mpr fun d hd => decide_eq_true fun h => hmem (h ▸ hd)
      rw [hall, passed]
      simp
    | some body =>
      obtain ⟨hnot, after, rfl⟩ := exists_of_quoted? hbody
      have htake : (body ++ quote :: after).takeWhile (fun d => decide (d ≠ quote)) = body := by
        rw [quoted?, if_pos (by simp)] at hbody
        exact Option.some.inj hbody
      have hslice : (between (consumed ++ [c] ++ body) (quote :: after)).since?
          (between (consumed ++ [c]) (body ++ quote :: after)).offset = some body := by
        rw [← passed_append, since?_passed, List.take_left]
      have hpassed : passed consumed (c :: (body ++ quote :: after)) (body.length + 2) =
          between (consumed ++ [c] ++ body ++ [quote]) after := by
        have hfront : c :: (body ++ quote :: after) = (c :: body ++ [quote]) ++ after := by simp
        have hlength : body.length + 2 = (c :: body ++ [quote]).length := by simp
        rw [hfront, hlength, passed_append]
        simp
      rw [htake, passed_append, current_between, List.head?_cons, hslice, read_between]
      exact congrArg (fun s' => some (some body, s')) hpassed.symm

/-! ## Tokens -/

/-- How far reading goes where a text starts with a lexeme or a fault. -/
def reach (rest : List Char) : Except Fault (TokenKind × Nat) → Nat
  | .ok (_, n) => n
  | .error (.unexpected _) => 0
  | .error _ => rest.length

/-- The first character decides with the lookahead whether a number is read. -/
theorem atNumber?_between (consumed : List Char) (c : Char) (cs : List Char) :
    (between consumed (c :: cs)).atNumber? c = some (decide (numberLength (c :: cs) ≠ 0)) := by
  rw [atNumber?, numberStarts?_between]
  by_cases hc : c.isDigit = true ∨ c ∈ ['+', '-', '.']
  · rw [if_pos (by simpa using hc)]
  · obtain ⟨hdigit, hsign⟩ := not_or.mp hc
    rw [if_neg (by simpa using hc),
      numberLength_cons_eq_zero (Bool.eq_false_iff.mpr hdigit) hsign cs]
    rfl

/-- Only `<`, `>` and `!` look at what follows them, and no further than that. -/
theorem symbol?_pair (c d : Char) (ds : List Char) : symbol? [c, d] = symbol? (c :: d :: ds) := by
  by_cases hlook : c = '<' ∨ c = '>' ∨ c = '!'
  · by_cases hequals : d = '='
    · obtain rfl | rfl | rfl := hlook <;> subst hequals <;> rfl
    · by_cases hgreater : d = '>'
      · obtain rfl | rfl | rfl := hlook <;> subst hgreater <;> rfl
      · obtain rfl | rfl | rfl := hlook <;> simp [symbol?, hequals, hgreater]
  · obtain ⟨hless, hgreater, hbang⟩ := by simpa using hlook
    unfold symbol?
    split <;> simp_all

/-- A symbol is told by its first two characters. -/
theorem symbol?_head (c : Char) (cs : List Char) :
    symbol? (c :: cs.head?.toList) = symbol? (c :: cs) := by
  cases cs with
  | nil => rfl
  | cons d ds => exact symbol?_pair c d ds

/-- At a quote, what is quoted is read. -/
theorem readLexeme_quote {c : Char} (hc : c ∈ quotes) (s : Scanner) :
    s.readLexeme c = (s.readQuoted c).map fun answer =>
      (answer.1.elim (.error (faultAt c)) fun body => .ok (quotedKind c body), answer.2) := by
  have hcases : c = '\'' ∨ c = '"' ∨ c = '\x60' := by simpa [quotes] using hc
  rw [readLexeme, Option.map_eq_bind]
  obtain rfl | rfl | rfl := hcases <;> rfl

/-- Elsewhere a number, a word and a symbol are tried in this order. -/
theorem readLexeme_of_not_quote {c : Char} (hc : c ∉ quotes) (s : Scanner) :
    s.readLexeme c = (s.atNumber? c).bind fun starts =>
      if starts then s.readNumber.map fun answer =>
        (.ok (.number (String.ofList answer.1)), answer.2)
      else if startsWord c then s.readWord.map fun answer =>
        (.ok (wordKind (String.ofList answer.1)), answer.2)
      else
        match symbol? (c :: s.peek.toList) with
        | some (mark, n) => some (.ok (.symbol mark), s.readBy n)
        | none => some (.error (.unexpected c), s) := by
  simp only [quotes, List.mem_cons, List.not_mem_nil, or_false, not_or] at hc
  obtain ⟨hstring, hdouble, hback⟩ := hc
  have hname : (c == '"' || c == '\x60') = false := by simp [hdouble, hback]
  rw [readLexeme, if_neg (by simpa using hstring), hname, if_neg Bool.false_ne_true]
  simp only [Option.map_eq_bind]
  rfl

/-- A scanner reads the lexeme that the lexer recognises, and goes as far as it reaches. -/
theorem readLexeme_between (consumed : List Char) (c : Char) (cs : List Char) :
    (between consumed (c :: cs)).readLexeme c =
      some ((recognise (c :: cs)).map Prod.fst,
        passed consumed (c :: cs) (reach (c :: cs) (recognise (c :: cs)))) := by
  by_cases hc : c ∈ quotes
  · rw [readLexeme_quote hc, recognise_quote hc, readQuoted_between, List.tail_cons]
    cases quoted? c cs with
    | some body => rfl
    | none =>
      -- an open quote takes the rest of the text with it
      have hreach : reach (c :: cs) (.error (faultAt c)) = (c :: cs).length := by
        by_cases hstring : c = '\'' <;> simp [faultAt, hstring, hc, reach]
      have hpassed : passed consumed (c :: cs) (c :: cs).length =
          between (consumed ++ c :: cs) [] := by
        rw [passed, List.take_length, List.drop_length]
      change some (_, between (consumed ++ c :: cs) []) =
        some (_, passed consumed (c :: cs) (reach (c :: cs) (.error (faultAt c))))
      rw [hreach, hpassed]
      rfl
  · rw [readLexeme_of_not_quote hc, recognise_of_not_quote hc, atNumber?_between, Option.bind_some]
    by_cases hnumber : numberLength (c :: cs) = 0
    · simp only [hnumber, ne_eq, not_true_eq_false, decide_false, Bool.false_eq_true, if_false]
      by_cases hword : startsWord c = true
      · have hin : inWord c = true := inWord_iff.mpr (.inl (startsWord_iff.mp hword))
        have hlength : ((c :: cs).takeWhile inWord).length = wordLength (c :: cs) := by
          rw [wordLength, if_pos hword, List.takeWhile_cons_of_pos hin, List.length_cons,
            Nat.add_comm]
        have hne : wordLength (c :: cs) ≠ 0 := by
          rw [wordLength, if_pos hword]
          omega
        rw [if_pos hword, if_pos hne, readWord_between, hlength, ← take_length_takeWhile, hlength]
        rfl
      · rw [if_neg hword, wordLength_cons_eq_zero (by simpa using hword), peek_between,
          List.tail_cons, symbol?_head, if_neg (by simp)]
        cases symbol? (c :: cs) with
        | none =>
          change some (_, between consumed (c :: cs)) = some (_, passed consumed (c :: cs) 0)
          rw [passed_zero]
          rfl
        | some found =>
          change some (_, (between consumed (c :: cs)).readBy found.2) =
            some (_, passed consumed (c :: cs) found.2)
          rw [readBy_between]
          rfl
    · simp only [hnumber, ne_eq, not_false_eq_true, decide_true, if_true]
      rw [readNumber_between, numberSpan_eq hnumber]
      rfl

/-- What a text answers that starts here, with no blanks in front. -/
def answer (consumed rest : List Char) : Except LexicalError Token :=
  match recognise rest with
  | .ok (kind, n) =>
    .ok ⟨kind, String.ofList (rest.take n), (Lexer.between consumed rest).position⟩
  | .error fault => .error ⟨fault, byteLength consumed⟩

/-- So does reading the token around it. -/
theorem readToken_between (consumed rest : List Char) :
    (between consumed rest).readToken =
      some (answer consumed rest, passed consumed rest (reach rest (recognise rest))) := by
  have hposition := position_between consumed rest
  cases rest with
  | nil =>
    have hpassed : passed consumed [] (reach [] (recognise [])) = between consumed [] :=
      passed_zero consumed []
    have hanswer : answer consumed [] =
        .ok ⟨.endOfInput, "", (Lexer.between consumed []).position⟩ := rfl
    rw [hpassed, hanswer, ← hposition]
    rfl
  | cons c cs =>
    simp only [readToken, current_between, List.head?_cons, readLexeme_between, answer]
    cases recognise (c :: cs) with
    | ok found =>
      obtain ⟨kind, n⟩ := found
      simp only [Except.map, reach, Option.bind_eq_bind, Option.bind_some, since?_passed, hposition]
      rfl
    | error fault => rfl

/-- The literal of a token is the text from where the token stands up to the place behind it. -/
theorem isSlice_answer {consumed rest : List Char} {t : Token} (h : answer consumed rest = .ok t) :
    IsSlice (consumed ++ rest) t.position.offset
      (passed consumed rest (reach rest (recognise rest))).offset t.literal.toList := by
  rw [answer] at h
  cases hr : recognise rest with
  | ok found =>
    rw [hr] at h
    obtain rfl := Except.ok.inj h
    rw [String.toList_ofList, ← position_between]
    exact isSlice_passed consumed rest found.2
  | error fault =>
    rw [hr] at h
    cases h

/-- What a lexer answers is found behind the blanks in front of it. -/
theorem next_fst_between (consumed rest : List Char) :
    (Lexer.between consumed rest).next.1 =
      answer (consumed ++ rest.takeWhile isBlank) (rest.dropWhile isBlank) := by
  rw [Lexer.next, Lexer.skipBlanks_between, answer, Lexer.rest_between]
  cases recognise (rest.dropWhile isBlank) with
  | ok found => rfl
  | error fault => cases fault <;> rfl

/-- No lexeme reaches behind the end of the text. -/
theorem reach_recognise_le (rest : List Char) : reach rest (recognise rest) ≤ rest.length := by
  cases hr : recognise rest with
  | ok found => exact length_le_of_recognise hr
  | error fault => cases fault <;> simp [reach]

/-- A lexer moves on as far as a scanner does. -/
theorem next_snd_eq_advanceBy (l : Lexer) :
    l.next.2 = l.skipBlanks.advanceBy (reach l.skipBlanks.rest (recognise l.skipBlanks.rest)) := by
  rw [Lexer.next]
  cases recognise l.skipBlanks.rest with
  | ok found => rfl
  | error fault => cases fault <;> rfl

theorem advanceBy_between_of_le {n : Nat} {rest : List Char} (h : n ≤ rest.length)
    (consumed : List Char) :
    (Lexer.between consumed rest).advanceBy n =
      Lexer.between (consumed ++ rest.take n) (rest.drop n) := by
  have hadvance := Lexer.advanceBy_between consumed (rest.take n) (rest.drop n)
  rwa [List.take_append_drop, List.length_take_of_le h] at hadvance

/-- A scanner and a lexer that divide a text alike answer alike, and move on as far. -/
theorem next_between (consumed rest : List Char) :
    ∃ n,
      (Lexer.between consumed rest).next.2 =
        Lexer.between (consumed ++ rest.take n) (rest.drop n) ∧
      (between consumed rest).next =
        some ((Lexer.between consumed rest).next.1, passed consumed rest n) ∧
      ∀ t, (Lexer.between consumed rest).next.1 = .ok t →
        IsSlice (consumed ++ rest) t.position.offset (passed consumed rest n).offset
          t.literal.toList := by
  have hgap := take_length_takeWhile isBlank rest
  have hfront := drop_length_takeWhile isBlank rest
  have hreach := reach_recognise_le (rest.dropWhile isBlank)
  refine ⟨(rest.takeWhile isBlank).length +
    reach (rest.dropWhile isBlank) (recognise (rest.dropWhile isBlank)), ?_, ?_, fun t ht => ?_⟩
  · rw [next_snd_eq_advanceBy, Lexer.skipBlanks_between, Lexer.rest_between,
      advanceBy_between_of_le hreach, List.take_add, ← List.drop_drop, hgap, hfront,
      List.append_assoc]
  · rw [← passed_passed, next, readWhile_between, passed, hgap, hfront, readToken_between,
      next_fst_between]
  · rw [next_fst_between] at ht
    have hslice := isSlice_answer ht
    rw [List.append_assoc, List.takeWhile_append_dropWhile] at hslice
    rw [← passed_passed, hgap, hfront]
    exact hslice

/-! ## Reachable scanners -/

/-- The scanners of a text that asking for tokens leads to, whatever the answers are. -/
inductive ReachableFrom (text : List Char) : Scanner → Prop where
  | start : ReachableFrom text (start text)
  | next {s s' : Scanner} {answer : Except LexicalError Token} :
    ReachableFrom text s → s.next = some (answer, s') → ReachableFrom text s'

/-- Every scanner that is reached divides its text in two parts. -/
theorem ReachableFrom.exists_between {text : List Char} {s : Scanner} (h : ReachableFrom text s) :
    ∃ consumed rest, consumed ++ rest = text ∧ s = between consumed rest := by
  induction h with
  | start => exact ⟨[], text, rfl, start_eq_between text⟩
  | next _ hnext ih =>
    obtain ⟨consumed, rest, rfl, rfl⟩ := ih
    obtain ⟨n, -, hbetween, -⟩ := next_between consumed rest
    obtain ⟨-, rfl⟩ := Prod.mk.inj (Option.some.inj (hnext.symm.trans hbetween))
    exact ⟨_, _, by rw [List.append_assoc, List.take_append_drop], rfl⟩

/-- The ways in which a scanner keeps its place in a text agree. -/
structure Consistent (text : List Char) (s : Scanner) : Prop where
  text_eq : s.text = text
  /-- the offset stands between two characters, or at an end of the text -/
  exists_offset_eq : ∃ before after, text = before ++ after ∧ s.offset = byteLength before
  offset_le : s.offset ≤ byteLength text
  current_eq_none_iff : s.current = none ↔ s.offset = byteLength text
  /-- the text from the offset on is the current character and those that are not read yet -/
  dropBytes?_eq : ∀ c, s.current = some c →
    dropBytes? s.offset text = some (c :: s.unread.map Prod.snd)
  /-- both ways to look ahead see the same character -/
  ahead?_one : s.current.isSome → s.ahead? 1 = some s.peek

/-- Where a scanner divides a text, its ways to keep its place agree. -/
theorem consistent_between (consumed rest : List Char) :
    Consistent (consumed ++ rest) (between consumed rest) where
  text_eq := rfl
  exists_offset_eq := ⟨consumed, rest, rfl, rfl⟩
  offset_le := by
    rw [byteLength_append]
    exact Nat.le_add_right _ _
  current_eq_none_iff := by
    have hsize : byteLength rest = 0 ↔ rest = [] := by
      cases rest with
      | nil => simp
      | cons c cs => simpa using fun h => absurd h (Nat.ne_of_gt c.utf8Size_pos)
    rw [current_between, List.head?_eq_none_iff, byteLength_append, ← hsize]
    change _ ↔ byteLength consumed = _
    omega
  dropBytes?_eq c hc := by
    obtain ⟨cs, rfl⟩ := List.head?_eq_some_iff.mp hc
    rw [map_snd_unread_between]
    exact dropBytes?_append consumed (c :: cs)
  ahead?_one _ := by
    rw [ahead?_between, peek_between, ← List.head?_drop, List.drop_one]

/-- Whatever is read from a place, there is an answer, and what is taken of the text goes from one
byte up to another that is not before it, both between characters. -/
structure Readable (s : Scanner) : Prop where
  ahead : ∀ n, ∃ c, s.ahead? n = some c
  word : ∃ word n, s.readWord = some (word, s.readBy n) ∧
    IsSlice s.text s.offset (s.readBy n).offset word
  number : ∃ number n, s.readNumber = some (number, s.readBy n) ∧
    IsSlice s.text s.offset (s.readBy n).offset number
  /-- what stands between two quotes is taken before the second of them is read -/
  quoted : ∀ quote, ∃ answer n, s.readQuoted quote = some (answer, s.readBy n) ∧
    ∀ body, answer = some body → ∃ m < n, IsSlice s.text s.read.offset (s.readBy m).offset body
  token : ∃ answer n, s.next = some (answer, s.readBy n) ∧ ∀ t, answer = .ok t →
    IsSlice s.text t.position.offset (s.readBy n).offset t.literal.toList

/-- Where a scanner divides a text, every reader has an answer. -/
theorem readable_between (consumed rest : List Char) : Readable (between consumed rest) where
  ahead n := ⟨_, ahead?_between consumed rest n⟩
  word := by
    refine ⟨_, _, by rw [readWord_between, ← readBy_between], ?_⟩
    have hslice := isSlice_passed consumed rest (rest.takeWhile inWord).length
    rw [take_length_takeWhile] at hslice
    rw [readBy_between]
    exact hslice
  number := by
    refine ⟨_, _, by rw [readNumber_between, ← readBy_between], ?_⟩
    rw [readBy_between]
    exact isSlice_passed consumed rest _
  quoted quote := by
    rw [readQuoted_between]
    cases hbody : quoted? quote rest.tail with
    | none =>
      refine ⟨none, rest.length, ?_, fun body h => by cases h⟩
      rw [readBy_between, passed, List.take_length, List.drop_length]
    | some body =>
      refine ⟨some body, body.length + 2, by rw [readBy_between], ?_⟩
      rintro _ ⟨⟩
      refine ⟨body.length + 1, Nat.lt_succ_self _, ?_⟩
      obtain ⟨-, after, htail⟩ := exists_of_quoted? hbody
      cases rest with
      | nil => simp at htail
      | cons c cs =>
        rw [List.tail_cons] at htail
        have hslice := isSlice_passed (consumed ++ [c]) (body ++ quote :: after) body.length
        rw [List.take_left, List.append_assoc, List.singleton_append] at hslice
        rw [readBy, read_between, readBy_between, htail]
        exact hslice
  token := by
    obtain ⟨n, -, hnext, hslice⟩ := next_between consumed rest
    rw [← readBy_between] at hnext hslice
    exact ⟨_, n, hnext, hslice⟩

/-- Reading some characters leads to another division of the same text. -/
theorem exists_between_readBy (consumed rest : List Char) (n : Nat) :
    ∃ consumed' rest', consumed' ++ rest' = consumed ++ rest ∧
      (between consumed rest).readBy n = between consumed' rest' :=
  ⟨_, _, by rw [List.append_assoc, List.take_append_drop], readBy_between consumed rest n⟩

end Scanner

/-- A scanner and a lexer that divide a text alike answer alike as often as they are asked. -/
theorem scanSteps_between (steps : Nat) (consumed rest : List Char) :
    scanSteps steps (Scanner.between consumed rest) =
      some (lexSteps steps (Lexer.between consumed rest)) := by
  induction steps generalizing consumed rest with
  | zero => rfl
  | succ steps ih =>
    obtain ⟨n, hlexer, hscanner, -⟩ := Scanner.next_between consumed rest
    simp only [scanSteps, lexSteps, hscanner, hlexer, Scanner.passed, ih, Option.bind_eq_bind,
      Option.bind_some]
    rfl

open Scanner in
/-- **A scanner keeps its place.** It comes to a place in a text by asking for tokens, whatever the
answers are, and by reading some characters more, as every reader does on its way.

* At every such place the offset stands between characters of the text and not behind its end, the
  current character is missing just at the end, the text from the offset on is the current character
  and those that are not read yet, and both ways to look ahead see the same character.
* From every such place there is an answer, whatever is read, since the slices that are taken have
  their ends in order and between characters.

A scanner finds the same tokens and errors as the lexer, however often it is asked. -/
theorem scanner_keeps_its_place :
    (∀ text s, ReachableFrom text s → ∀ n, Consistent text (s.readBy n) ∧ Readable (s.readBy n)) ∧
    ∀ text steps, scanSteps steps (start text) = some (lexSteps steps (Lexer.start text)) := by
  refine ⟨fun text s hs n => ?_, fun text steps => ?_⟩
  · obtain ⟨consumed, rest, rfl, rfl⟩ := hs.exists_between
    obtain ⟨consumed', rest', htext, hread⟩ := exists_between_readBy consumed rest n
    rw [hread, ← htext]
    exact ⟨consistent_between consumed' rest', readable_between consumed' rest'⟩
  · rw [start_eq_between, Lexer.start_eq_between, scanSteps_between]

open Scanner in
/-- Behind a quoted name, a character of three bytes at which the scanner stays, and behind it a
letter. -/
theorem scanner_keeps_its_place_accented :
    (start "\"é\"≤ñ".toList).next =
        some (.ok ⟨.identifier "é", "\"é\"", ⟨0, 1, 1⟩⟩, (start "\"é\"≤ñ".toList).readBy 3) ∧
      ((start "\"é\"≤ñ".toList).readBy 3).next =
        some (.error ⟨.unexpected '≤', 4⟩, (start "\"é\"≤ñ".toList).readBy 3) ∧
      ((start "\"é\"≤ñ".toList).readBy 4).offset = 7 ∧
      Consistent "\"é\"≤ñ".toList ((start "\"é\"≤ñ".toList).readBy 4) ∧
      Readable ((start "\"é\"≤ñ".toList).readBy 4) ∧
      scanSteps 2 (start "\"é\"≤ñ".toList) = some (lexSteps 2 (Lexer.start "\"é\"≤ñ".toList)) := by
  have hname : (start "\"é\"≤ñ".toList).next =
      some (.ok ⟨.identifier "é", "\"é\"", ⟨0, 1, 1⟩⟩, (start "\"é\"≤ñ".toList).readBy 3) := by
    decide +kernel
  have hfault : ((start "\"é\"≤ñ".toList).readBy 3).next =
      some (.error ⟨.unexpected '≤', 4⟩, (start "\"é\"≤ñ".toList).readBy 3) := by decide +kernel
  obtain ⟨hplaces, hsteps⟩ := scanner_keeps_its_place
  obtain ⟨hconsistent, hreadable⟩ := hplaces _ _ ((ReachableFrom.start.next hname).next hfault) 1
  exact ⟨hname, hfault, by decide +kernel, hconsistent, hreadable, hsteps _ 2⟩

end TableSchema.Ddl
