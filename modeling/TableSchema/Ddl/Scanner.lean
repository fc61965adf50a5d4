import TableSchema.Ddl.Lexer
import TableSchema.Ddl.Slice

/-!
# The scanner

A lexer that works on the bytes of a text. A `Lexer` holds the characters that are left; a scanner
keeps its place three times over: as the number of bytes before the current character, as that
character, and as the characters behind it that it has not read. It looks ahead in two ways, at the
unread characters and at the text from its place on, and it spells a token by the slice of the text
between two of its places.

All moves are made by `read`, one character at a time. A slice that does not stand between
characters cannot be taken, and then there is no result at all.
-/

namespace TableSchema.Ddl

/-- A place in a text, kept by bytes. -/
structure Scanner where
  /-- the whole text -/
  text : List Char
  /-- the characters behind the current one, each with the number of bytes before it -/
  unread : List (Nat × Char)
  /-- the number of bytes before the current character -/
  offset : Nat
  /-- the line of the current character -/
  line : Nat
  /-- the column of the current character -/
  column : Nat
  /-- the current character, if the text has not ended -/
  current : Option Char
  deriving DecidableEq, Repr

namespace Scanner

/-! ## Moving -/

/-- Characters with the number of bytes before each, if so many bytes are before the first. -/
def placed (offset : Nat) : List Char → List (Nat × Char)
  | [] => []
  | c :: cs => (offset, c) :: placed (offset + c.utf8Size) cs

/-- Moves on to the next character. -/
def read (s : Scanner) : Scanner :=
  match s.unread with
  | (offset, c) :: unread =>
    -- a line feed moves the place of the character behind it
    if s.current = some '\n' then
      { s with unread, offset, line := s.line + 1, column := 1, current := some c }
    else { s with unread, offset, column := s.column + 1, current := some c }
  | [] =>
    match s.current with
    | some c => { s with offset := s.offset + c.utf8Size, column := s.column + 1, current := none }
    | none => s

/-- The scanner before a text. -/
def start (text : List Char) : Scanner := read ⟨text, placed 0 text, 0, 1, 0, none⟩

/-- Moves on by some characters. -/
def readBy (s : Scanner) : Nat → Scanner
  | 0 => s
  | n + 1 => s.read.readBy n

/-- How many characters are left, the current one included. -/
def left (s : Scanner) : Nat := s.unread.length + s.current.toList.length

theorem left_read_lt {s : Scanner} (h : s.current.isSome) : s.read.left < s.left := by
  obtain ⟨c, hc⟩ := Option.isSome_iff_exists.mp h
  unfold read left
  split
  · next hunread => split <;> simp [hunread, hc]
  · next hunread => simp [hunread, hc]

/-- Moves on to the first character that has not some property. -/
def readWhile (p : Char → Bool) (s : Scanner) : Scanner :=
  if _h : s.current.any p then s.read.readWhile p else s
termination_by s.left
decreasing_by exact left_read_lt (Option.isSome_of_any _h)

/-- Where the current character stands. -/
def position (s : Scanner) : Position := ⟨s.offset, s.line, s.column⟩

/-! ## Looking -/

/-- The first unread character. -/
def peek (s : Scanner) : Option Char := s.unread.head?.map Prod.snd

/-- The character some characters ahead, found in the text from here on. -/
def ahead? (s : Scanner) (n : Nat) : Option (Option Char) :=
  (dropBytes? s.offset s.text).map (·[n]?)

/-- The text from some byte up to here. -/
def since? (s : Scanner) (first : Nat) : Option (List Char) := slice? s.text first s.offset

/-- Whether there is a digit some characters ahead. -/
def digitAhead? (s : Scanner) (n : Nat) : Option Bool := do
  return (← s.ahead? n).any Char.isDigit

/-- Whether the current character is a sign. -/
def atSign (s : Scanner) : Bool := s.current == some '+' || s.current == some '-'

/-- Whether a digit, or a sign and a digit, follow the current character. -/
def powerFollows? (s : Scanner) : Option Bool := do
  match ← s.ahead? 1 with
  | none => return false
  | some c =>
    if c.isDigit then return true
    else if c == '+' || c == '-' then s.digitAhead? 2
    else return false

/-- Whether there is a digit, or a point and a digit, here or behind a sign. -/
def numberStarts? (s : Scanner) : Option Bool := do
  let n := if s.atSign then 1 else 0
  match ← s.ahead? n with
  | none => return false
  | some c =>
    if c.isDigit then return true
    else if c == '.' then s.digitAhead? (n + 1)
    else return false

/-! ## Reading -/

/-- Reads a word, and moves past it. -/
def readWord (s : Scanner) : Option (List Char × Scanner) := do
  let s' := s.readWhile Lexeme.inWord
  return (← s'.since? s.offset, s')

/-- Moves past a sign, if there is one. -/
def skipSign (s : Scanner) : Scanner := if s.atSign then s.read else s

/-- Moves past a point and the digits behind it, if there are any. -/
def skipFraction (s : Scanner) : Scanner :=
  if s.current == some '.' && s.peek.any Char.isDigit then s.read.readWhile Char.isDigit else s

/-- Moves past an exponent, if there is one. -/
def skipExponent? (s : Scanner) : Option Scanner := do
  if s.current == some 'e' || s.current == some 'E' then
    if ← s.powerFollows? then return s.read.skipSign.readWhile Char.isDigit
  return s

/-- Reads a number, and moves past it. -/
def readNumber (s : Scanner) : Option (List Char × Scanner) := do
  let s' ← (s.skipSign.readWhile Char.isDigit).skipFraction.skipExponent?
  return (← s'.since? s.offset, s')

/-- Reads what stands between the current character and the next occurrence of a quote, and moves
past it. Without such an occurrence nothing is left. -/
def readQuoted (quote : Char) (s : Scanner) : Option (Option (List Char) × Scanner) := do
  let s := s.read
  let s' := s.readWhile (· ≠ quote)
  match s'.current with
  | some _ => return (some (← s'.since? s.offset), s'.read)
  | none => return (none, s')

/-- Whether a number starts with the current character. -/
def atNumber? (c : Char) (s : Scanner) : Option Bool :=
  if c.isDigit || ['+', '-', '.'].contains c then s.numberStarts? else some false

/-- Reads the lexeme that starts with the current character, and moves past it. -/
def readLexeme (c : Char) (s : Scanner) : Option (Except Lexeme.Fault TokenKind × Scanner) := do
  if c == '\'' then
    let (body, s') ← s.readQuoted c
    return (body.elim (.error .openString) fun body => .ok (.string (String.ofList body)), s')
  else if c == '"' || c == '\x60' then
    let (body, s') ← s.readQuoted c
    return (body.elim (.error .openIdentifier) fun body => .ok (.identifier (String.ofList body)),
      s')
  else if ← s.atNumber? c then
    let (text, s') ← s.readNumber
    return (.ok (.number (String.ofList text)), s')
  else if Lexeme.startsWord c then
    let (word, s') ← s.readWord
    return (.ok (Lexeme.wordKind (String.ofList word)), s')
  else
    match Lexeme.symbol? (c :: s.peek.toList) with
    | some (mark, n) => return (.ok (.symbol mark), s.readBy n)
    | none => return (.error (.unexpected c), s)

/-- Reads the token that starts here, and moves past it. -/
def readToken (s : Scanner) : Option (Except LexicalError Token × Scanner) := do
  match s.current with
  | none => return (.ok ⟨.endOfInput, "", s.position⟩, s)
  | some c =>
    match ← s.readLexeme c with
    | (.ok kind, s') =>
      return (.ok ⟨kind, String.ofList (← s'.since? s.offset), s.position⟩, s')
    | (.error fault, s') => return (.error ⟨fault, s.offset⟩, s')

/-- The next token, and the scanner past it. -/
def next (s : Scanner) : Option (Except LexicalError Token × Scanner) :=
  (s.readWhile Text.isBlank).readToken

end Scanner

/-- The results of asking a scanner for a token a number of times in a row, errors included. -/
def scanSteps : Nat → Scanner → Option (List (Except LexicalError Token))
  | 0, _ => some []
  | n + 1, s => do
    let (answer, s') ← s.next
    return answer :: (← scanSteps n s')

end TableSchema.Ddl
