import TableSchema.Ddl.Lexeme
import TableSchema.Text.Blank

/-!
# The lexer

A lexer is a place in a text: the characters that are left and where the next one stands. It skips
blanks, takes the lexeme in front and moves past it.

* An *unexpected character* is not consumed, so the same fault is found again.
* An *open quote* consumes the rest of the text, so the end follows.
* At the end of the text, the end is found again and again.

The end of the text is reported just past the last character, on that character's line even when
it is a line feed, and in column zero when there was no character at all.
-/

namespace TableSchema.Ddl

/-- Why a text is not a sequence of lexemes. -/
structure LexicalError where
  /-- what is wrong -/
  fault : Lexeme.Fault
  /-- the number of bytes before the character at fault -/
  offset : Nat
  deriving DecidableEq, Repr

/-- The error in words. -/
def LexicalError.message (e : LexicalError) : String :=
  match e.fault with
  | .unexpected c => s!"Unexpected character '{c}' at offset {e.offset}"
  | .openString => s!"Unterminated string literal starting at offset {e.offset}"
  | .openIdentifier => s!"Unterminated quoted identifier starting at offset {e.offset}"

/-- A place in a text. -/
structure Lexer where
  /-- the characters not consumed yet -/
  rest : List Char
  /-- where the next character stands, if there is one -/
  here : Position
  /-- where the end of the text is reported, if nothing is left -/
  finish : Position
  deriving DecidableEq, Repr

namespace Lexer

/-- The lexer before a text. -/
def start (text : List Char) : Lexer := ⟨text, .start, ⟨0, 1, 0⟩⟩

/-- Moves past one character. -/
def advance (l : Lexer) : Lexer :=
  match l.rest with
  | [] => l
  | c :: cs => ⟨cs, l.here.next c, l.here.past c⟩

/-- Moves past some characters. -/
def advanceBy (l : Lexer) : Nat → Lexer
  | 0 => l
  | n + 1 => l.advance.advanceBy n

/-- Moves past the blanks in front. -/
def skipBlanks (l : Lexer) : Lexer := l.advanceBy (l.rest.takeWhile Text.isBlank).length

/-- Where a token that starts here is reported. -/
def position (l : Lexer) : Position := if l.rest.isEmpty then l.finish else l.here

/-- The next token, and the lexer past it. -/
def next (l : Lexer) : Except LexicalError Token × Lexer :=
  let l := l.skipBlanks
  match Lexeme.recognise l.rest with
  | .ok (kind, n) => (.ok ⟨kind, String.ofList (l.rest.take n), l.position⟩, l.advanceBy n)
  | .error (.unexpected c) => (.error ⟨.unexpected c, l.here.offset⟩, l)
  | .error fault => (.error ⟨fault, l.here.offset⟩, l.advanceBy l.rest.length)

/-! ## Progress -/

@[simp] theorem rest_advance (l : Lexer) : l.advance.rest = l.rest.tail := by
  unfold advance
  split <;> simp_all

@[simp] theorem rest_advanceBy (l : Lexer) (n : Nat) : (l.advanceBy n).rest = l.rest.drop n := by
  induction n generalizing l with
  | zero => rfl
  | succ n ih => simp [advanceBy, ih]

theorem length_rest_skipBlanks_le (l : Lexer) : l.skipBlanks.rest.length ≤ l.rest.length := by
  simp [skipBlanks]

/-- Every token but the end of the text is paid for with at least one character. -/
theorem length_rest_next_lt {l l' : Lexer} {t : Token} (h : l.next = (.ok t, l'))
    (ht : t.isEnd = false) : l'.rest.length < l.rest.length := by
  have hskip := l.length_rest_skipBlanks_le
  simp only [next] at h
  split at h
  · next kind n hr =>
    obtain ⟨htok, rfl⟩ := Prod.mk.inj h
    obtain rfl := Except.ok.inj htok
    rw [rest_advanceBy, List.length_drop]
    match hl : l.skipBlanks.rest with
    | [] =>
      rw [hl] at hr
      obtain ⟨rfl, -⟩ := Prod.mk.inj (Except.ok.inj hr)
      simp [Token.isEnd] at ht
    | c :: cs =>
      rw [hl] at hr
      have hn := Lexeme.length_pos_of_recognise hr
      rw [hl] at hskip
      simp only [List.length_cons] at hskip ⊢
      omega
  · simp at h
  · simp at h

/-! ## Whole texts -/

/-- The tokens from here to the end of the text, which is the last of them. -/
def tokens (l : Lexer) : Except LexicalError (List Token) :=
  match _h : l.next with
  | (.error e, _) => .error e
  | (.ok t, l') =>
    if _ht : t.isEnd then .ok [t]
    else
      match l'.tokens with
      | .error e => .error e
      | .ok ts => .ok (t :: ts)
termination_by l.rest.length
decreasing_by exact length_rest_next_lt _h (by simpa using _ht)

end Lexer

/-- The tokens of a text, closed by the end of the text. -/
def tokenize (text : String) : Except LexicalError (List Token) :=
  (Lexer.start text.toList).tokens

/-- The results of asking a lexer for a token a number of times in a row, errors included. -/
def lexSteps : Nat → Lexer → List (Except LexicalError Token)
  | 0, _ => []
  | n + 1, l => l.next.1 :: lexSteps n l.next.2

end TableSchema.Ddl
