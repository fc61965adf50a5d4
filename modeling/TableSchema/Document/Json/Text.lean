import TableSchema.Document.Node
import TableSchema.Text.Escaped

/-!
# JSON text

Documents as JSON, an entry a line, indented by two spaces for each level; an empty list or map
takes no line of its own. In strings the quote, the backslash and the controls below U+0020 are
escaped, and everything else is written as it is.
-/

namespace TableSchema.Document.Json

/-- How a character stands in a string. -/
def escape (c : Char) : List Char :=
  match c with
  | '"' => ['\\', '"']
  | '\\' => ['\\', '\\']
  | '\x08' => ['\\', 'b']
  | '\x0c' => ['\\', 'f']
  | '\n' => ['\\', 'n']
  | '\r' => ['\\', 'r']
  | '\t' => ['\\', 't']
  | c =>
    if c.toNat < 0x20 then
      ['\\', 'u', '0', '0', (c.toNat / 16).digitChar, (c.toNat % 16).digitChar]
    else [c]

/-- A string between quotes. -/
def quote (s : String) : List Char := '"' :: s.toList.flatMap escape ++ ['"']

/-- The end of a line and the indentation of the next. -/
def newline (depth : Nat) : List Char := '\n' :: List.replicate (2 * depth) ' '

mutual

/-- A document at a depth; the text starts where the line has got to. -/
def write (depth : Nat) : Node → List Char
  | .null => ['n', 'u', 'l', 'l']
  | .text s => quote s
  | .list [] => ['[', ']']
  | .list (item :: items) =>
    '[' :: newline (depth + 1) ++ write (depth + 1) item ++ writeItems (depth + 1) items ++
      newline depth ++ [']']
  | .map [] => ['\x7b', '\x7d']
  | .map ((key, value) :: entries) =>
    '\x7b' :: newline (depth + 1) ++ quote key ++ [':', ' '] ++ write (depth + 1) value ++
      writeEntries (depth + 1) entries ++ newline depth ++ ['\x7d']

/-- The items of a list after the first. -/
def writeItems (depth : Nat) : List Node → List Char
  | [] => []
  | item :: items => ',' :: newline depth ++ write depth item ++ writeItems depth items

/-- The entries of a map after the first. -/
def writeEntries (depth : Nat) : List (String × Node) → List Char
  | [] => []
  | (key, value) :: entries =>
    ',' :: newline depth ++ quote key ++ [':', ' '] ++ write depth value ++
      writeEntries depth entries

end

/-- The text of a document, closed by the end of its last line. -/
def render (n : Node) : String := String.ofList (write 0 n ++ ['\n'])

end TableSchema.Document.Json
