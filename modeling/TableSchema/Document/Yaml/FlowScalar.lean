import TableSchema.Document.Yaml.Character
import TableSchema.Text.Hexadecimal

/-!
# Flow scalars

Scalars within a line of text: plain, between single quotes and between double quotes. They may go
on over several lines, and are then folded: the blanks around a line break are dropped, a single
line break reads as a space, and of several the first is dropped. A separator of Unicode is kept,
and so are the line breaks after it. An escaped line break reads as nothing.

Each reader takes the characters from where the scalar stands, and gives its text and the
characters after it, or nothing when the scalar is faulty. No flow scalar goes on over a line that
starts with a document mark: a plain scalar ends there, and a quoted one is faulty.
-/

namespace TableSchema.Document.Yaml

/-! ## Folding -/

/-- What stands between two words. -/
inductive Spacing where
  /-- blanks -/
  | blanks (cs : List Char)
  /-- a line break, which may be escaped, the line breaks after it, and blanks around them -/
  | breaks (first : Option Char) (more : List Char)
  deriving DecidableEq, Repr

namespace Spacing

/-- The spacing with one more blank. -/
def blank (s : Spacing) (c : Char) : Spacing :=
  match s with
  | blanks cs => blanks (cs ++ [c])
  | breaks first more => breaks first more

/-- The spacing with one more line break. -/
def lineBreak (s : Spacing) (c : Char) : Spacing :=
  match s with
  | blanks _ => breaks (some c) []
  | breaks first more => breaks first (more ++ [c])

/-- Whether the spacing holds a line break. -/
def isMultiline : Spacing → Bool
  | blanks _ => false
  | breaks .. => true

/-- What the spacing reads as. -/
def folded : Spacing → List Char
  | blanks cs => cs
  | breaks (some '\n') [] => [' ']
  | breaks (some '\n') more => more
  | breaks first more => first.toList ++ more

end Spacing

/-- A scalar text and the characters after it, with something before the text. -/
def prepend {α : Type} (front : List Char) (r : List Char × α) : List Char × α := (front ++ r.1, r.2)

/-! ## Plain scalars -/

/-- The brackets and the comma of flow collections. -/
def isFlowMark (c : Char) : Bool :=
  c == ',' || c == '[' || c == ']' || c == '\x7b' || c == '\x7d'

/-- Whether a plain scalar that may stand at `minimum` or further right ends before what follows
some spacing. -/
def endsPlain (inFlow : Bool) (minimum column : Nat) (spacing : Spacing) (cs : List Char) : Bool :=
  let atWord := spacing != .blanks []
  let first := cs.head?
  (first == some ':' && isGap cs[1]?) || (inFlow && first.any isFlowMark) ||
    (atWord && (first == some '#' || (!inFlow && column < minimum) ||
      (column == 0 && startsWithDocumentMark cs)))

/-- Reads a plain scalar from a column on, after some spacing. The spacing behind it is given too,
because a key may follow a line break. In flow a colon before another mark is faulty, and so is,
after a line break, a tab before the column where the scalar may stand. -/
def plain (inFlow : Bool) (minimum column : Nat) (spacing : Spacing) :
    List Char → Option (List Char × Spacing × List Char)
  | [] => some ([], spacing, [])
  | c :: cs =>
    if isBlank c then
      if c == '\t' && spacing.isMultiline && column < minimum then none
      else plain inFlow minimum (column + 1) (spacing.blank c) cs
    else if isBreak c then plain inFlow minimum 0 (spacing.lineBreak c) cs
    else if endsPlain inFlow minimum column spacing (c :: cs) then some ([], spacing, c :: cs)
    else if inFlow && c == ':' && (cs.head?.any fun d => isFlowMark d || d == '?') then none
    else (plain inFlow minimum (column + 1) (.blanks []) cs).map (prepend (spacing.folded ++ [c]))

/-! ## Quoted scalars -/

/-- Reads the rest of a scalar between single quotes, where a quote inside is doubled. -/
def singleQuotedRest (column : Nat) (spacing : Spacing) : List Char → Option (List Char × List Char)
  | [] => none
  | c :: cs =>
    if isBlank c then singleQuotedRest (column + 1) (spacing.blank c) cs
    else if isBreak c then singleQuotedRest 0 (spacing.lineBreak c) cs
    else if column = 0 && startsWithDocumentMark (c :: cs) then none
    else if c = '\'' then
      match cs with
      | '\'' :: cs =>
        (singleQuotedRest (column + 2) (.blanks []) cs).map (prepend (spacing.folded ++ ['\'']))
      | cs => some (spacing.folded, cs)
    else (singleQuotedRest (column + 1) (.blanks []) cs).map (prepend (spacing.folded ++ [c]))

/-- The characters that a letter or a mark after a backslash stands for. -/
def shortEscapes : List (Char × Char) :=
  [('0', '\x00'), ('a', '\x07'), ('b', '\x08'), ('t', '\t'), ('\t', '\t'), ('n', '\n'),
    ('v', '\x0b'), ('f', '\x0c'), ('r', '\r'), ('e', '\x1b'), (' ', ' '), ('"', '"'), ('/', '/'),
    ('\\', '\\'), ('N', '\u0085'), ('_', '\u00A0'), ('L', '\u2028'), ('P', '\u2029')]

/-- How many digits follow a letter after a backslash. -/
def digitEscapes : List (Char × Nat) := [('x', 2), ('u', 4), ('U', 8)]

/-- The character that an escape stands for, and how many characters it takes after the
backslash. -/
def escape? : List Char → Option (Char × Nat)
  | [] => none
  | c :: cs =>
    match shortEscapes.lookup c, digitEscapes.lookup c with
    | some d, _ => some (d, 1)
    | none, some width => do
      let n ← Text.hexadecimal? width cs
      if n.isValidChar then some (Char.ofNat n, width + 1) else none
    | none, none => none

/-- Reads the rest of a scalar between double quotes. -/
def doubleQuotedRest (column : Nat) (spacing : Spacing) (cs : List Char) :
    Option (List Char × List Char) :=
  match cs with
  | [] => none
  | c :: cs =>
    if isBlank c then doubleQuotedRest (column + 1) (spacing.blank c) cs
    else if isBreak c then doubleQuotedRest 0 (spacing.lineBreak c) cs
    else if column = 0 && startsWithDocumentMark (c :: cs) then none
    else if c = '"' then some (spacing.folded, cs)
    else if c = '\\' then
      if cs.head?.any isBreak then
        (doubleQuotedRest 0 (.breaks none []) (cs.drop 1)).map (prepend spacing.folded)
      else
        match escape? cs with
        | some (d, taken) =>
          (doubleQuotedRest (column + 1 + taken) (.blanks []) (cs.drop taken)).map
            (prepend (spacing.folded ++ [d]))
        | none => none
    else (doubleQuotedRest (column + 1) (.blanks []) cs).map (prepend (spacing.folded ++ [c]))
termination_by cs.length

end TableSchema.Document.Yaml
