import TableSchema.Document.Yaml.Character
import TableSchema.Document.Yaml.Plain

/-!
# Scalar styles

A string can be written in four styles. Each is used only where the ones before it would not read
back as the same string:

* *plain*, as it is, unless it looks special or its characters would be taken for structure;
* *single-quoted*, with the quote doubled, unless it holds a character that cannot be printed or a
  space next to a line break;
* *double-quoted*, with everything that cannot be printed escaped.

A string with a line feed is *literal*, an indented block of its own lines, unless it holds a
character that cannot be printed, ends in a space or has a space before a line break.
-/

namespace TableSchema.Document.Yaml

/-! ## Conditions -/

/-- Whether two characters in a row satisfy two conditions. -/
def hasPair (p q : Char → Bool) (cs : List Char) : Bool :=
  (cs.zip (cs.drop 1)).any fun (a, b) => p a && q b

/-- The characters that no plain scalar starts with. -/
def opening : List Char :=
  ['#', ',', '[', ']', '\x7b', '\x7d', '&', '*', '!', '|', '>', '\'', '"', '%', '@', '\x60']

/-- Whether a mark inside a text would be taken for structure: a colon at the end of a word, or a
hash at the start of one. -/
def hasInnerMark (cs : List Char) : Bool :=
  (cs.zip ((cs.drop 1).map some ++ [none])).any (fun (a, b) => a == ':' && isGap b) ||
    hasPair (fun a => isGap (some a)) (· == '#') cs

/-- Whether a text would be taken for structure at its start. -/
def hasOpeningMark (cs : List Char) : Bool :=
  match cs with
  | [] => false
  | c :: r =>
    opening.contains c || ((c == '?' || c == ':' || c == '-') && isGap r.head?) ||
      cs.take 3 == ['-', '-', '-'] || cs.take 3 == ['.', '.', '.']

/-- Whether a text can be written plain. -/
def plainAllowed (cs : List Char) : Bool :=
  !(cs.head? == some ' ' || cs.getLast? == some ' ' || cs.any isBreak ||
    cs.any (fun c => !isPrintable c) || hasOpeningMark cs || hasInnerMark cs)

/-- Whether a text can be written between single quotes. -/
def singleAllowed (cs : List Char) : Bool :=
  !(cs.any (fun c => !isPrintable c) || hasPair (· == ' ') isBreak cs ||
    hasPair isBreak (· == ' ') cs)

/-- Whether a text can be written as a literal block. -/
def literalAllowed (cs : List Char) : Bool :=
  !(cs.any (fun c => !isPrintable c) || cs.getLast? == some ' ' || hasPair (· == ' ') isBreak cs)

/-! ## Choice -/

/-- How a string is written. -/
inductive Style where
  | plain
  | singleQuoted
  | doubleQuoted
  | literal
  deriving DecidableEq, Repr

/-- The style of a string. -/
def styleOf (s : String) : Style :=
  let cs := s.toList
  if cs.contains '\n' then if literalAllowed cs then .literal else .doubleQuoted
  else if plainAllowed cs && !looksSpecial s then .plain
  else if singleAllowed cs then .singleQuoted
  else .doubleQuoted

end TableSchema.Document.Yaml
