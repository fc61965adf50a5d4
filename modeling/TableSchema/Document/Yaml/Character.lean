/-!
# Characters

What the characters of a YAML text are to its structure: breaks end lines, blanks separate words,
and a word ends at a gap, which is a blank, a break or the end of the text.

A text that is read has its line ends in order first: carriage returns and the next-line control
turn into line feeds. The two separators of Unicode are breaks too, but they stay what they are.
-/

namespace TableSchema.Document.Yaml

/-- The characters that end a line. -/
def isBreak (c : Char) : Bool :=
  c == '\n' || c == '\r' || c == '\u0085' || c == '\u2028' || c == '\u2029'

/-- The characters that separate words on a line. -/
def isBlank (c : Char) : Bool := c == ' ' || c == '\t'

/-- Whether something stands at the end of a word: nothing, a blank, a break or a null. -/
def isGap : Option Char → Bool
  | none => true
  | some c => isBlank c || c == '\x00' || isBreak c

/-- The characters of the names in a text. -/
def isNameChar (c : Char) : Bool := c.isAlphanum || c == '_' || c == '-'

/-- The characters that an unescaped scalar may hold. -/
def isPrintable (c : Char) : Bool :=
  let n := c.toNat
  n == 0x0A || (0x20 ≤ n && n ≤ 0x7E) || (0xA0 ≤ n && n ≤ 0xD7FF) ||
    (0xE000 ≤ n && n ≤ 0xFFFD && n ≠ 0xFEFF) || 0x10000 ≤ n

/-- The characters that a text may hold. -/
def isAllowed (c : Char) : Bool :=
  isPrintable c || c == '\t' || c == '\r' || c == '\u0085' || c == '\uFEFF'

/-- The text with its line ends in order. -/
def normalizeBreaks : List Char → List Char
  | '\r' :: '\n' :: cs => '\n' :: normalizeBreaks cs
  | c :: cs => (if c == '\r' || c == '\u0085' then '\n' else c) :: normalizeBreaks cs
  | [] => []

/-- Whether a line starts with the mark between two documents or with the one after a document. -/
def startsWithDocumentMark (cs : List Char) : Bool :=
  (cs.take 3 == ['-', '-', '-'] || cs.take 3 == ['.', '.', '.']) && isGap cs[3]?

/-- The characters after the rest of a line, which may hold blanks and a comment but nothing
else. -/
def endOfLine? (cs : List Char) : Option (List Char) :=
  let rest := cs.dropWhile isBlank
  let rest := if rest.head? = some '#' then rest.dropWhile (!isBreak ·) else rest
  match rest with
  | [] => some []
  | c :: cs => if isBreak c then some cs else none

end TableSchema.Document.Yaml
