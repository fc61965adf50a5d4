import TableSchema.Ddl.Token

/-!
# Lexemes

What a text begins with. Each class of lexeme has a function that gives the length of the longest
lexeme of that class at the front of a text, zero when there is none, and `recognise` picks the
class. Two classes never compete for the same text except a number with a sign or a leading point,
which beats the lone sign or point, so the longest lexeme of all is the one picked.

* word: a letter or an underscore, then letters, digits and underscores, all ASCII;
* number: an optional sign, digits with an optional fraction, an optional exponent; a fraction
  needs a digit after its point and an exponent needs a digit of its own;
* string and quoted name: everything up to the next occurrence of the quote, which is not escaped;
* symbol: an operator or a punctuation mark, two characters before one.
-/

namespace TableSchema.Ddl

namespace Lexeme

/-! ## Characters -/

/-- Whether a word may start with the character. -/
def startsWord (c : Char) : Bool := c.isAlpha || c == '_'

/-- Whether a word may go on with the character. -/
def inWord (c : Char) : Bool := c.isAlphanum || c == '_'

/-! ## Lengths -/

/-- The length of the word at the front of a text. -/
def wordLength : List Char → Nat
  | [] => 0
  | c :: cs => if startsWord c then 1 + (cs.takeWhile inWord).length else 0

/-- How many digits a text starts with. -/
def digitCount (cs : List Char) : Nat := (cs.takeWhile Char.isDigit).length

/-- The length of the sign at the front of a text. -/
def signLength : List Char → Nat
  | '+' :: _ => 1
  | '-' :: _ => 1
  | _ => 0

/-- The length of the fraction at the front of a text: a point and at least one digit. -/
def fractionLength : List Char → Nat
  | '.' :: cs => if digitCount cs = 0 then 0 else 1 + digitCount cs
  | _ => 0

/-- The length of the exponent after its letter: an optional sign and at least one digit. -/
def powerLength (cs : List Char) : Nat :=
  let digits := digitCount (cs.drop (signLength cs))
  if digits = 0 then 0 else signLength cs + digits

/-- The length of the exponent at the front of a text, its letter included. -/
def exponentLength : List Char → Nat
  | c :: cs => if (c == 'e' || c == 'E') && powerLength cs ≠ 0 then 1 + powerLength cs else 0
  | [] => 0

/-- The length of an unsigned number without exponent at the front of a text. -/
def decimalLength (cs : List Char) : Nat :=
  digitCount cs + fractionLength (cs.drop (digitCount cs))

/-- The length of the number at the front of a text. -/
def numberLength (cs : List Char) : Nat :=
  let decimal := decimalLength (cs.drop (signLength cs))
  if decimal = 0 then 0
  else
    let mantissa := signLength cs + decimal
    mantissa + exponentLength (cs.drop mantissa)

/-- The symbol at the front of a text, and its length. -/
def symbol? : List Char → Option (Symbol × Nat)
  | '<' :: '=' :: _ => some (.lessEqual, 2)
  | '<' :: '>' :: _ => some (.notEqual, 2)
  | '<' :: _ => some (.less, 1)
  | '>' :: '=' :: _ => some (.greaterEqual, 2)
  | '>' :: _ => some (.greater, 1)
  | '!' :: '=' :: _ => some (.notEqual, 2)
  | '=' :: _ => some (.equals, 1)
  | '+' :: _ => some (.plus, 1)
  | '-' :: _ => some (.minus, 1)
  | '*' :: _ => some (.times, 1)
  | '/' :: _ => some (.divide, 1)
  | '%' :: _ => some (.modulo, 1)
  | ',' :: _ => some (.comma, 1)
  | '(' :: _ => some (.leftParen, 1)
  | ')' :: _ => some (.rightParen, 1)
  | '.' :: _ => some (.dot, 1)
  | _ => none

/-! ## Recognition -/

/-- Why a text begins with no lexeme. -/
inductive Fault where
  /-- no lexeme starts with this character -/
  | unexpected (c : Char)
  /-- a string without its closing quote -/
  | openString
  /-- a quoted name without its closing quote -/
  | openIdentifier
  deriving DecidableEq, Repr

/-- The text between a quote that was just read and its next occurrence. -/
def quoted? (quote : Char) (cs : List Char) : Option (List Char) :=
  if quote ∈ cs then some (cs.takeWhile (· ≠ quote)) else none

/-- The kind of a bare word: a reserved word in any mixture of cases, or else a name. -/
def wordKind (word : String) : TokenKind :=
  match Keyword.ofWord? word with
  | some k => .keyword k
  | none => .identifier word

/-- The lexeme at the front of a text: its kind and its length in characters, quotes included. -/
def recognise : List Char → Except Fault (TokenKind × Nat)
  | [] => .ok (.endOfInput, 0)
  | '\'' :: cs =>
    match quoted? '\'' cs with
    | some body => .ok (.string (String.ofList body), body.length + 2)
    | none => .error .openString
  | c :: cs =>
    if c == '"' || c == '\x60' then
      match quoted? c cs with
      | some body => .ok (.identifier (String.ofList body), body.length + 2)
      | none => .error .openIdentifier
    else if numberLength (c :: cs) ≠ 0 then
      let n := numberLength (c :: cs)
      .ok (.number (String.ofList ((c :: cs).take n)), n)
    else if wordLength (c :: cs) ≠ 0 then
      let n := wordLength (c :: cs)
      .ok (wordKind (String.ofList ((c :: cs).take n)), n)
    else
      match symbol? (c :: cs) with
      | some (mark, n) => .ok (.symbol mark, n)
      | none => .error (.unexpected c)

theorem symbol?_length_pos {cs : List Char} {mark : Symbol} {n : Nat}
    (h : symbol? cs = some (mark, n)) : 0 < n := by
  unfold symbol? at h
  split at h <;> simp_all <;> omega

/-- A lexeme takes at least one character of a text that is not empty. -/
theorem length_pos_of_recognise {c : Char} {cs : List Char} {kind : TokenKind} {n : Nat}
    (h : recognise (c :: cs) = .ok (kind, n)) : 0 < n := by
  unfold recognise at h
  split at h
  · simp at *
  · split at h
    · obtain ⟨-, rfl⟩ := Prod.mk.inj (Except.ok.inj h)
      omega
    · cases h
  · split at h
    · split at h
      · obtain ⟨-, rfl⟩ := Prod.mk.inj (Except.ok.inj h)
        omega
      · cases h
    · split at h
      · obtain ⟨-, rfl⟩ := Prod.mk.inj (Except.ok.inj h)
        omega
      · split at h
        · obtain ⟨-, rfl⟩ := Prod.mk.inj (Except.ok.inj h)
          omega
        · split at h
          · next hs =>
            obtain ⟨-, rfl⟩ := Prod.mk.inj (Except.ok.inj h)
            exact symbol?_length_pos hs
          · cases h

end Lexeme

end TableSchema.Ddl
