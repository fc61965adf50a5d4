import TableSchema.Document.Yaml.Character

/-!
# Block scalars

Scalars that are made of whole lines, all indented by the same number of spaces. A literal scalar
keeps its lines as they are. A folded one joins them by spaces, except next to a line that starts
with a blank, and drops a line break where there are several.

The header says how the scalar ends: by default a line break after its last line is kept and
further ones are not, a minus drops all of them and a plus keeps all. A digit in the header gives
the indentation; without one it is that of the first line with something on it, or of a longer
empty line before it.
-/

namespace TableSchema.Document.Yaml

/-! ## Headers -/

/-- What becomes of the line breaks at the end. -/
inductive Chomping where
  | strip
  | clip
  | keep
  deriving DecidableEq, Repr

/-- What follows the mark of a block scalar on its line. -/
structure Header where
  /-- what becomes of the line breaks at the end -/
  chomping : Chomping := .clip
  /-- the indentation in addition to that of the parent -/
  increment : Option Nat := none
  deriving DecidableEq, Repr

/-- The chomping that a character stands for. -/
def chomping? (c : Char) : Option Chomping :=
  if c = '+' then some .keep else if c = '-' then some .strip else none

/-- Reads a header, whose digit may stand before its other character or after it. Zero is no
indentation. -/
def header? (cs : List Char) : Option (Header × List Char) :=
  let digit (chomping : Chomping) (cs : List Char) : Option (Header × List Char) :=
    match cs with
    | d :: r =>
      if d = '0' then none
      else if d.isDigit then some (⟨chomping, some (d.toNat - '0'.toNat)⟩, r)
      else some (⟨chomping, none⟩, cs)
    | [] => some (⟨chomping, none⟩, [])
  match cs.head?.bind chomping? with
  | some chomping => digit chomping (cs.drop 1)
  | none => do
    let (header, r) ← digit .clip cs
    match header.increment, r.head?.bind chomping? with
    | some _, some chomping => return ({ header with chomping }, r.drop 1)
    | _, _ => return (header, r)

/-! ## Lines -/

/-- The lines of a text, each with its line break. -/
def linesOf : List Char → List (List Char)
  | [] => []
  | c :: cs =>
    match linesOf cs with
    | line :: lines => if isBreak c then [c] :: line :: lines else (c :: line) :: lines
    | [] => [[c]]

/-- A line without its indentation of at most so many spaces, and the length of the indentation. -/
def outdent (limit : Nat) (line : List Char) : Nat × List Char :=
  let width := ((line.take limit).takeWhile (· == ' ')).length
  (width, line.drop width)

/-- The indentation that the lines of a scalar show, at least `least`: that of the first line with
something on it, or of a longer empty line before it. No tab may follow the spaces. -/
def indentation? (least : Nat) : List (List Char) → Option Nat
  | [] => some least
  | line :: lines =>
    let (width, rest) := outdent line.length line
    match rest with
    | [] => some (max least width)
    | c :: _ =>
      if c = '\t' then none
      else if isBreak c then indentation? (max least width) lines
      else some (max least width)

/-! ## Contents -/

/-- A scalar whose lines have been read so far. -/
structure Content where
  /-- the text up to the last line with something on it -/
  text : List Char := []
  /-- the line break after that line -/
  ending : List Char := []
  /-- the line breaks of the empty lines after it -/
  empties : List Char := []
  /-- whether that line starts with a blank -/
  startsBlank : Bool := false
  deriving DecidableEq, Repr

namespace Content

/-- The content with an empty line added. -/
def addEmpty (c : Content) (lineBreak : Char) : Content :=
  { c with empties := c.empties ++ [lineBreak] }

/-- What stands between the last line and a further one that starts with a blank or not. -/
def joint (folds : Bool) (c : Content) (startsBlank : Bool) : List Char :=
  if folds && c.ending == ['\n'] && !c.startsBlank && !startsBlank then
    if c.empties.isEmpty then [' '] else c.empties
  else c.ending ++ c.empties

/-- The content with a line added. -/
def addLine (folds : Bool) (c : Content) (line : List Char) : Content :=
  let startsBlank := line.head?.any isBlank
  { text := c.text ++ c.joint folds startsBlank ++ line.takeWhile (!isBreak ·)
    ending := line.dropWhile (!isBreak ·)
    startsBlank }

/-- The text of the scalar. -/
def close (c : Content) : Chomping → List Char
  | .strip => c.text
  | .clip => c.text ++ c.ending
  | .keep => c.text ++ c.ending ++ c.empties

end Content

/-- Reads lines as far as they belong to a scalar with an indentation. No tab may stand in the
indentation. -/
def readLines (folds : Bool) (indent : Nat) (content : Content) :
    List (List Char) → Option (Content × List (List Char))
  | [] => some (content, [])
  | line :: lines =>
    match outdent indent line with
    | (_, []) => some (content, line :: lines)
    | (width, c :: cs) =>
      if width < indent && c == '\t' then none
      else if isBreak c then readLines folds indent (content.addEmpty c) lines
      else if width < indent then some (content, line :: lines)
      else readLines folds indent (content.addLine folds (c :: cs)) lines

/-- Reads a block scalar after its mark, inside a parent whose indentation is `parent` and whose
content stands at `minimum` or further right. -/
def blockScalar? (folds : Bool) (parent minimum : Nat) (cs : List Char) :
    Option (List Char × List Char) := do
  let (header, cs) ← header? cs
  let lines := linesOf (← endOfLine? cs)
  let indent ← match header.increment with
    | some n => some (parent + n)
    | none => indentation? (max minimum 1) lines
  let (content, rest) ← readLines folds indent {} lines
  return (content.close header.chomping, rest.flatten)

end TableSchema.Document.Yaml
