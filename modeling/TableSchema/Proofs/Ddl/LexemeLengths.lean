import TableSchema.Ddl.Lexeme
import TableSchema.Ddl.LexicalGrammar

/-!
# The lengths of words and numbers

The functions that measure a word or a number at the front of a text agree with the lexical grammar:
what a function measures is in its class, and nothing of the class at the front of the text is
longer (`Measures`).

A number is measured part by part, from left to right, so each part must end where the grammar ends
it: the digits before a point, the sign before a digit or a point, and the decimal before the letter
of an exponent.
-/

namespace TableSchema.Ddl

open Lexeme LexicalGrammar

/-- A function measures a class of texts: its value is the length of the longest one at the front of
a text, and zero where there is none. -/
structure Measures (length : List Char → Nat) (P : List Char → Prop) : Prop where
  /-- what is measured is in the class -/
  exists_split : ∀ {text : List Char}, length text ≠ 0 →
    ∃ front rest, text = front ++ rest ∧ front.length = length text ∧ P front
  /-- nothing longer is in the class -/
  le_length : ∀ {front : List Char} (rest : List Char), P front →
    front.length ≤ length (front ++ rest)

/-- What is measured at the front of a text is in the class. -/
theorem Measures.take {length : List Char → Nat} {P : List Char → Prop} (h : Measures length P)
    {text : List Char} (hlength : length text ≠ 0) :
    length text ≤ text.length ∧ P (text.take (length text)) := by
  obtain ⟨front, rest, htext, hfront, hP⟩ := h.exists_split hlength
  rw [← hfront, htext, List.take_left, List.length_append]
  exact ⟨Nat.le_add_right _ _, hP⟩

/-! ## Words -/

theorem toNat_of_isDigit {c : Char} (h : c.isDigit = true) : 0x30 ≤ c.toNat ∧ c.toNat ≤ 0x39 := by
  simp only [Char.isDigit, Bool.and_eq_true, decide_eq_true_iff, ge_iff_le,
    UInt32.le_iff_toNat_le] at h
  exact h

/-- The letters are those without accents. -/
theorem isAlpha_iff {c : Char} :
    c.isAlpha = true ↔
      0x41 ≤ c.toNat ∧ c.toNat ≤ 0x5A ∨ 0x61 ≤ c.toNat ∧ c.toNat ≤ 0x7A := by
  delta Char.isAlpha Char.isUpper Char.isLower
  simp only [Bool.or_eq_true, Bool.and_eq_true, decide_eq_true_iff, ge_iff_le,
    UInt32.le_iff_toNat_le]
  rfl

theorem toNat_of_isAlpha {c : Char} (h : c.isAlpha = true) : 0x41 ≤ c.toNat ∧ c.toNat ≤ 0x7A := by
  rw [isAlpha_iff] at h
  omega

/-- The test for the first character of a word is that of the lexical grammar. -/
theorem startsWord_iff {c : Char} : startsWord c = true ↔ IsWordStart c := by
  simp [startsWord, IsWordStart]

/-- The test for the other characters of a word is that of the lexical grammar. -/
theorem inWord_iff {c : Char} : inWord c = true ↔ IsWordPart c := by
  simp only [inWord, IsWordPart, IsWordStart, Char.isAlphanum, Bool.or_eq_true, beq_iff_eq]
  exact or_right_comm

/-- All characters of a word can stand in one. -/
theorem isWordPart_of_mem {cs : List Char} (h : IsWord cs) : ∀ c ∈ cs, IsWordPart c := by
  cases cs with
  | nil => exact h.elim
  | cons c cs => exact List.forall_mem_cons.mpr ⟨.inl h.1, h.2⟩

theorem mem_takeWhile {α : Type} {f : α → Bool} {as : List α} {a : α} (h : a ∈ as.takeWhile f) :
    f a = true :=
  List.all_eq_true.mp List.all_takeWhile a h

theorem take_length_takeWhile {α : Type} (f : α → Bool) (as : List α) :
    as.take (as.takeWhile f).length = as.takeWhile f :=
  (List.prefix_iff_eq_take.mp (List.takeWhile_prefix f)).symm

theorem drop_length_takeWhile {α : Type} (f : α → Bool) (as : List α) :
    as.drop (as.takeWhile f).length = as.dropWhile f :=
  calc as.drop (as.takeWhile f).length
    _ = (as.takeWhile f ++ as.dropWhile f).drop (as.takeWhile f).length := by
      rw [List.takeWhile_append_dropWhile]
    _ = as.dropWhile f := List.drop_left

/-- The length of a word is that of the longest one in front. -/
theorem measures_wordLength : Measures wordLength IsWord := by
  refine ⟨fun {text} h => ?_, fun {front} rest h => ?_⟩
  · cases text with
    | nil => exact absurd rfl h
    | cons c cs =>
      by_cases hc : startsWord c = true
      · refine ⟨c :: cs.takeWhile inWord, cs.dropWhile inWord, ?_, ?_, startsWord_iff.mp hc, ?_⟩
        · rw [List.cons_append, List.takeWhile_append_dropWhile]
        · simp [wordLength, hc, Nat.add_comm]
        · exact fun d hd => inWord_iff.mp (mem_takeWhile hd)
      · exact absurd (by simp [wordLength, hc]) h
  · cases front with
    | nil => exact h.elim
    | cons c cs =>
      obtain ⟨hc, hcs⟩ := h
      have hword : ∀ d ∈ cs, inWord d = true := fun d hd => inWord_iff.mpr (hcs d hd)
      simp only [List.cons_append, wordLength, startsWord_iff.mpr hc, if_true,
        List.takeWhile_append_of_pos hword, List.length_append, List.length_cons]
      omega

/-! ## Parts of numbers -/

/-- What measures a class splits every text, perhaps after nothing. -/
theorem Measures.exists_front {length : List Char → Nat} {P : List Char → Prop}
    (h : Measures length P) (text : List Char) :
    ∃ front rest, text = front ++ rest ∧ front.length = length text ∧ (front = [] ∨ P front) := by
  by_cases h0 : length text = 0
  · exact ⟨[], text, rfl, h0.symm, .inl rfl⟩
  · obtain ⟨front, rest, htext, hlength, hfront⟩ := h.exists_split h0
    exact ⟨front, rest, htext, hlength, .inr hfront⟩

/-- Digits in front are all counted. -/
theorem digitCount_append {ds : List Char} (h : AreDigits ds) (rest : List Char) :
    digitCount (ds ++ rest) = ds.length + digitCount rest := by
  rw [digitCount, List.takeWhile_append_of_pos h, List.length_append]
  rfl

/-- Another character in front leaves nothing to count. -/
theorem digitCount_cons_of_not_isDigit {c : Char} (h : c.isDigit = false) (cs : List Char) :
    digitCount (c :: cs) = 0 := by
  simp [digitCount, h]

/-- The count of digits is the length of the longest run of digits in front. -/
theorem measures_digitCount : Measures digitCount AreDigits := by
  refine ⟨fun {text} _ => ?_, fun {front} rest h => ?_⟩
  · exact ⟨_, _, (List.takeWhile_append_dropWhile (p := Char.isDigit)).symm, rfl,
      fun c hc => mem_takeWhile hc⟩
  · rw [digitCount_append h]
    exact Nat.le_add_right _ _

theorem areDigits_nil : AreDigits [] := fun _ h => absurd h List.not_mem_nil

/-- Digits behind digits are digits. -/
theorem areDigits_append {as bs : List Char} (ha : AreDigits as) (hb : AreDigits bs) :
    AreDigits (as ++ bs) :=
  fun c hc => (List.mem_append.mp hc).elim (ha c) (hb c)

/-- A point and at least one digit. -/
def IsFraction (cs : List Char) : Prop :=
  ∃ digits, AreDigits digits ∧ digits ≠ [] ∧ cs = '.' :: digits

/-- Digits and a fraction, at least one of them. -/
def IsDecimal (cs : List Char) : Prop :=
  ∃ whole fraction, AreDigits whole ∧ (fraction = [] ∧ whole ≠ [] ∨ IsFraction fraction) ∧
    cs = whole ++ fraction

/-- A sign, or nothing, and at least one digit. -/
def IsPower (cs : List Char) : Prop :=
  ∃ sign digits, IsSign sign ∧ AreDigits digits ∧ digits ≠ [] ∧ cs = sign ++ digits

/-- An exponent with its letter. -/
def IsPowerOfTen (cs : List Char) : Prop :=
  ∃ e power, (e = 'e' ∨ e = 'E') ∧ IsPower power ∧ cs = e :: power

/-- An exponent may be missing. -/
theorem isExponent_iff {cs : List Char} : IsExponent cs ↔ cs = [] ∨ IsPowerOfTen cs := by
  refine or_congr_right ⟨?_, ?_⟩
  · rintro ⟨e, sign, digits, he, hsign, hdigits, hne, rfl⟩
    exact ⟨e, _, he, ⟨sign, digits, hsign, hdigits, hne, rfl⟩, rfl⟩
  · rintro ⟨e, _, he, ⟨sign, digits, hsign, hdigits, hne, rfl⟩, rfl⟩
    exact ⟨e, sign, digits, he, hsign, hdigits, hne, rfl⟩

/-- A number is a sign, digits with a fraction, and an exponent, of which only the second must be
there. -/
theorem isNumber_iff {cs : List Char} :
    IsNumber cs ↔ ∃ sign decimal exponent, IsSign sign ∧ IsDecimal decimal ∧
      (exponent = [] ∨ IsPowerOfTen exponent) ∧ cs = sign ++ (decimal ++ exponent) := by
  refine ⟨?_, ?_⟩
  · rintro ⟨sign, whole, point, digits, exponent, hsign, hwhole, hpoint, hdigits, hne, hexp, rfl⟩
    refine ⟨sign, whole ++ point ++ digits, exponent, hsign, ?_, isExponent_iff.mp hexp, ?_⟩
    · obtain rfl | rfl := hpoint
      · refine ⟨whole ++ digits, [], areDigits_append hwhole hdigits, .inl ⟨rfl, ?_⟩, ?_⟩
        · exact fun h => hne (List.append_eq_nil_iff.mp h).2
        · simp
      · exact ⟨whole, _, hwhole, .inr ⟨digits, hdigits, hne, rfl⟩, by simp⟩
    · simp
  · rintro ⟨sign, _, exponent, hsign, ⟨whole, fraction, hwhole, hfraction, rfl⟩, hexp, rfl⟩
    obtain ⟨rfl, hne⟩ | ⟨digits, hdigits, hne, rfl⟩ := hfraction
    · exact ⟨sign, [], [], whole, exponent, hsign, areDigits_nil, .inl rfl, hwhole, hne,
        isExponent_iff.mpr hexp, by simp⟩
    · exact ⟨sign, whole, ['.'], digits, exponent, hsign, hwhole, .inr rfl, hdigits, hne,
        isExponent_iff.mpr hexp, by simp⟩

/-! ## Numbers -/

/-- The length of a fraction is that of the longest one in front. -/
theorem measures_fractionLength : Measures fractionLength IsFraction := by
  refine ⟨fun {text} h => ?_, fun {front} rest h => ?_⟩
  · unfold fractionLength at h
    split at h
    · next cs =>
      by_cases hcs : digitCount cs = 0
      · exact absurd (if_pos hcs) h
      · obtain ⟨ds, rest, htext, hlength, hds⟩ := measures_digitCount.exists_split hcs
        refine ⟨'.' :: ds, rest, by rw [htext]; rfl, ?_, ds, hds, ?_, rfl⟩
        · rw [fractionLength, if_neg hcs, List.length_cons, hlength, Nat.add_comm]
        · rintro rfl
          exact hcs hlength.symm
    · exact absurd rfl h
  · obtain ⟨digits, hdigits, hne, rfl⟩ := h
    have hpos : 0 < digits.length := List.length_pos_iff.mpr hne
    rw [List.cons_append, fractionLength, digitCount_append hdigits, if_neg (by omega),
      List.length_cons]
    omega

/-- A fraction starts with a point. -/
theorem fractionLength_cons_of_ne {c : Char} (h : c ≠ '.') (cs : List Char) :
    fractionLength (c :: cs) = 0 := by
  unfold fractionLength
  split
  · next heq => exact absurd (List.cons.inj heq).1 h
  · rfl

/-- The digits of a decimal end at its point. -/
theorem decimalLength_append_point {whole : List Char} (h : AreDigits whole) (cs : List Char) :
    decimalLength (whole ++ '.' :: cs) = whole.length + fractionLength ('.' :: cs) := by
  have hcount : digitCount (whole ++ '.' :: cs) = whole.length := by
    rw [digitCount_append h, digitCount_cons_of_not_isDigit rfl, Nat.add_zero]
  rw [decimalLength, hcount, List.drop_left]

/-- A decimal ends before a character that is no digit and no point. -/
theorem decimalLength_append_cons {front : List Char} (h : IsDecimal front) {c : Char}
    (hc : c.isDigit = false) (hpoint : c ≠ '.') (cs : List Char) :
    decimalLength (front ++ c :: cs) = front.length := by
  have hstop := digitCount_cons_of_not_isDigit hc cs
  obtain ⟨whole, fraction, hwhole, ⟨rfl, -⟩ | ⟨digits, hdigits, hne, rfl⟩, rfl⟩ := h
  · have hcount : digitCount (whole ++ c :: cs) = whole.length := by
      rw [digitCount_append hwhole, hstop, Nat.add_zero]
    rw [List.append_nil, decimalLength, hcount, List.drop_left, fractionLength_cons_of_ne hpoint,
      Nat.add_zero]
  · have hpos : 0 < digits.length := List.length_pos_iff.mpr hne
    rw [List.append_assoc, List.cons_append, decimalLength_append_point hwhole, fractionLength,
      digitCount_append hdigits, hstop, if_neg (by omega), List.length_append, List.length_cons]
    omega

/-- Digits and a fraction behind them reach as far as both together can. -/
theorem measures_decimalLength : Measures decimalLength IsDecimal := by
  refine ⟨fun {text} h => ?_, fun {front} rest h => ?_⟩
  · -- the digits first, then the fraction; one of the two may be missing, but not both
    obtain ⟨whole, rest, rfl, hlength, hwhole⟩ := measures_digitCount.exists_front text
    replace hwhole : AreDigits whole := hwhole.elim (fun h => h ▸ areDigits_nil) id
    obtain ⟨fraction, rest, rfl, hlength', hfraction⟩ := measures_fractionLength.exists_front rest
    have hsum : (whole ++ fraction).length = decimalLength (whole ++ (fraction ++ rest)) := by
      rw [decimalLength, ← hlength, List.drop_left, ← hlength', List.length_append]
    refine ⟨whole ++ fraction, rest, by simp, hsum, whole, fraction, hwhole, ?_, rfl⟩
    refine hfraction.elim (fun hnil => .inl ⟨hnil, ?_⟩) .inr
    rintro rfl
    exact h (by rw [← hsum, hnil]; rfl)
  · obtain ⟨whole, fraction, hwhole, ⟨rfl, -⟩ | hfraction, rfl⟩ := h
    · rw [List.append_nil, decimalLength]
      exact Nat.le_add_right_of_le (measures_digitCount.le_length rest hwhole)
    · have hle := measures_fractionLength.le_length rest hfraction
      obtain ⟨digits, -, -, rfl⟩ := hfraction
      rw [List.append_assoc, List.cons_append, decimalLength_append_point hwhole,
        List.length_append]
      exact Nat.add_le_add_left hle _

/-- There is a sign in front, or an empty one. -/
theorem exists_sign (text : List Char) :
    ∃ sign rest, text = sign ++ rest ∧ sign.length = signLength text ∧ IsSign sign := by
  unfold signLength
  split
  · next cs => exact ⟨['+'], cs, rfl, rfl, .inr (.inl rfl)⟩
  · next cs => exact ⟨['-'], cs, rfl, rfl, .inr (.inr rfl)⟩
  · exact ⟨[], text, rfl, rfl, .inl rfl⟩

/-- A sign ends before a character that is none. -/
theorem signLength_append_cons {sign : List Char} (h : IsSign sign) {c : Char} (hplus : c ≠ '+')
    (hminus : c ≠ '-') (cs : List Char) : signLength (sign ++ c :: cs) = sign.length := by
  obtain rfl | rfl | rfl := h
  · simp [signLength, hplus, hminus]
  · rfl
  · rfl

theorem ne_of_isDigit {c d : Char} (hc : c.isDigit = true) (hd : d.isDigit = false) : c ≠ d := by
  rintro rfl
  exact Bool.false_ne_true (hd.symm.trans hc)

/-- A sign counts for an exponent only if there are digits behind it. -/
theorem measures_powerLength : Measures powerLength IsPower := by
  refine ⟨fun {text} h => ?_, fun {front} rest h => ?_⟩
  · obtain ⟨sign, rest, rfl, hlength, hsign⟩ := exists_sign text
    rw [powerLength, ← hlength, List.drop_left] at h
    by_cases hcount : digitCount rest = 0
    · exact absurd (if_pos hcount) h
    · obtain ⟨digits, rest, rfl, hlength', hdigits⟩ := measures_digitCount.exists_split hcount
      refine ⟨sign ++ digits, rest, by simp, ?_, sign, digits, hsign, hdigits, ?_, rfl⟩
      · rw [powerLength, ← hlength, List.drop_left, if_neg hcount, ← hlength', List.length_append]
      · rintro rfl
        exact hcount hlength'.symm
  · obtain ⟨sign, digits, hsign, hdigits, hne, rfl⟩ := h
    obtain ⟨d, ds, rfl⟩ := List.exists_cons_of_ne_nil hne
    -- the digit after the sign keeps the sign from being longer
    have hd : d.isDigit = true := hdigits d List.mem_cons_self
    have hlength : signLength (sign ++ (d :: ds ++ rest)) = sign.length :=
      signLength_append_cons hsign (ne_of_isDigit hd rfl) (ne_of_isDigit hd rfl) _
    rw [List.append_assoc, powerLength, hlength, List.drop_left, digitCount_append hdigits,
      List.length_cons, if_neg (by omega), List.length_append, List.length_cons]
    omega

/-- The length of an exponent is that of the longest one in front. -/
theorem measures_exponentLength : Measures exponentLength IsPowerOfTen := by
  refine ⟨fun {text} h => ?_, fun {front} rest h => ?_⟩
  · cases text with
    | nil => exact absurd rfl h
    | cons c cs =>
      by_cases hc : (c == 'e' || c == 'E') && powerLength cs ≠ 0
      · have hboth := hc
        rw [Bool.and_eq_true, Bool.or_eq_true, beq_iff_eq, beq_iff_eq, decide_eq_true_iff] at hboth
        obtain ⟨power, rest, rfl, hlength, hpower⟩ := measures_powerLength.exists_split hboth.2
        refine ⟨c :: power, rest, rfl, ?_, c, power, hboth.1, hpower, rfl⟩
        rw [exponentLength, if_pos hc, List.length_cons, hlength, Nat.add_comm]
      · exact absurd (if_neg hc) h
  · obtain ⟨e, power, he, hpower, rfl⟩ := h
    have hle := measures_powerLength.le_length rest hpower
    have hpos : 0 < power.length := by
      obtain ⟨sign, digits, -, -, hne, rfl⟩ := hpower
      rw [List.length_append]
      exact Nat.add_pos_right _ (List.length_pos_iff.mpr hne)
    have hc : ((e == 'e' || e == 'E') && powerLength (power ++ rest) ≠ 0) = true := by
      rw [Bool.and_eq_true, Bool.or_eq_true, beq_iff_eq, beq_iff_eq, decide_eq_true_iff]
      exact ⟨he, by omega⟩
    rw [List.cons_append, exponentLength, if_pos hc, List.length_cons]
    omega

/-- A decimal starts with a digit or a point. -/
theorem IsDecimal.exists_cons {cs : List Char} (h : IsDecimal cs) :
    ∃ c cs', cs = c :: cs' ∧ (c.isDigit = true ∨ c = '.' ∧ cs' ≠ []) := by
  obtain ⟨whole, fraction, hwhole, hfraction, rfl⟩ := h
  cases whole with
  | cons c cs => exact ⟨c, cs ++ fraction, rfl, .inl (hwhole c List.mem_cons_self)⟩
  | nil =>
    obtain ⟨-, hne⟩ | ⟨digits, -, hne, rfl⟩ := hfraction
    · exact absurd rfl hne
    · exact ⟨'.', digits, rfl, .inr ⟨rfl, hne⟩⟩

/-- A number is measured part by part. -/
theorem numberLength_append {sign cs : List Char} (h : signLength (sign ++ cs) = sign.length)
    (hcs : decimalLength cs ≠ 0) :
    numberLength (sign ++ cs) =
      sign.length + decimalLength cs + exponentLength (cs.drop (decimalLength cs)) := by
  simp only [numberLength, h, List.drop_left, if_neg hcs, List.drop_length_add_append]

/-- The length of a number is that of the longest one in front. -/
theorem measures_numberLength : Measures numberLength IsNumber := by
  refine ⟨fun {text} h => ?_, fun {front} rest h => ?_⟩
  · obtain ⟨sign, rest, rfl, hlength, hsign⟩ := exists_sign text
    by_cases hdecimal : decimalLength rest = 0
    · exact absurd (by simp only [numberLength, ← hlength, List.drop_left, hdecimal, if_true]) h
    · obtain ⟨decimal, rest, rfl, hlength', hd⟩ := measures_decimalLength.exists_split hdecimal
      obtain ⟨exponent, rest, rfl, hlength'', he⟩ := measures_exponentLength.exists_front rest
      refine ⟨sign ++ (decimal ++ exponent), rest, by simp, ?_, isNumber_iff.mpr
        ⟨sign, decimal, exponent, hsign, hd, he, rfl⟩⟩
      rw [numberLength_append hlength.symm hdecimal, ← hlength', List.drop_left, ← hlength'']
      simp only [List.length_append, Nat.add_assoc]
  · obtain ⟨sign, decimal, exponent, hsign, hd, he, rfl⟩ := isNumber_iff.mp h
    have hlength : signLength (sign ++ (decimal ++ (exponent ++ rest))) = sign.length := by
      obtain ⟨c, cs, rfl, hc | ⟨rfl, -⟩⟩ := hd.exists_cons
      · exact signLength_append_cons hsign (ne_of_isDigit hc rfl) (ne_of_isDigit hc rfl) _
      · exact signLength_append_cons hsign (by decide) (by decide) _
    have hle := measures_decimalLength.le_length (exponent ++ rest) hd
    have hpos : 0 < decimal.length := by
      obtain ⟨c, cs, rfl, -⟩ := hd.exists_cons
      exact Nat.succ_pos _
    rw [List.append_assoc, List.append_assoc, numberLength_append hlength (by omega)]
    obtain rfl | he := he
    · simp only [List.append_nil, List.nil_append, List.length_append] at hle ⊢
      omega
    · -- the letter of the exponent ends the decimal, so the exponent is measured where it stands
      have hexact : decimalLength (decimal ++ (exponent ++ rest)) = decimal.length := by
        obtain ⟨e, power, rfl | rfl, -, rfl⟩ := he
        · exact decimalLength_append_cons hd rfl (by decide) _
        · exact decimalLength_append_cons hd rfl (by decide) _
      have hle := measures_exponentLength.le_length rest he
      rw [hexact, List.drop_left]
      simp only [List.length_append]
      omega

/-- A number starts with a digit, or goes on after its sign or point. -/
theorem exists_cons_of_isNumber {cs : List Char} (h : IsNumber cs) :
    ∃ c cs', cs = c :: cs' ∧ (c.isDigit = true ∨ c ∈ ['+', '-', '.'] ∧ cs' ≠ []) := by
  obtain ⟨sign, decimal, exponent, hsign, hd, -, rfl⟩ := isNumber_iff.mp h
  obtain ⟨c, cs, rfl, hc⟩ := hd.exists_cons
  obtain rfl | rfl | rfl := hsign
  · refine ⟨c, cs ++ exponent, rfl, hc.imp_right fun ⟨hpoint, hne⟩ => ⟨by simp [hpoint], ?_⟩⟩
    exact fun hnil => hne (List.append_eq_nil_iff.mp hnil).1
  · exact ⟨'+', _, rfl, .inr ⟨by decide, List.cons_ne_nil _ _⟩⟩
  · exact ⟨'-', _, rfl, .inr ⟨by decide, List.cons_ne_nil _ _⟩⟩

end TableSchema.Ddl
