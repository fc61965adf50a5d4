import TableSchema.Document.Node
import TableSchema.Document.Yaml.Style

/-!
# YAML text

Documents as YAML in block style: an entry or an item a line, the entries of a map inside a map
indented by two spaces, the items of a list inside a map not at all, and nothing folded however
long it is. An empty map or list stands on the line of its key.

A key that takes more than one line or 128 bytes is announced by a question mark, and its value
follows after a colon on a line of its own.

A text under construction is a string whose last line is still open, unless it ends in a line
break: a literal block that ends in one is followed directly by the next line.
-/

namespace TableSchema.Document.Yaml

/-! ## Lines -/

/-- So many spaces. -/
def spaces (n : Nat) : String := String.ofList (List.replicate n ' ')

/-- Whether a text ends where a line starts. -/
def atLineStart (out : String) : Bool := out.isEmpty || isBreak out.back

/-- Starts a line with an indentation, ending the open one if there is one. -/
def startLine (indent : Nat) (out : String) : String :=
  (if atLineStart out then out else out.push '\n') ++ spaces indent

/-! ## Scalars -/

/-- A digit in capitals. -/
def capitalDigit (n : Nat) : Char := n.digitChar.toUpper

/-- So many digits of a number in base sixteen. -/
def hexadecimal : (width n : Nat) → List Char
  | 0, _ => []
  | width + 1, n => hexadecimal width (n / 16) ++ [capitalDigit (n % 16)]

/-- How a character stands between double quotes. -/
def escape (c : Char) : List Char :=
  match c with
  | '\x00' => ['\\', '0']
  | '\x07' => ['\\', 'a']
  | '\x08' => ['\\', 'b']
  | '\t' => ['\\', 't']
  | '\n' => ['\\', 'n']
  | '\x0b' => ['\\', 'v']
  | '\x0c' => ['\\', 'f']
  | '\r' => ['\\', 'r']
  | '\x1b' => ['\\', 'e']
  | '"' => ['\\', '"']
  | '\\' => ['\\', '\\']
  | '\u0085' => ['\\', 'N']
  | '\u2028' => ['\\', 'L']
  | '\u2029' => ['\\', 'P']
  | c =>
    if isPrintable c then [c]
    else if c.toNat ≤ 0xFF then '\\' :: 'x' :: hexadecimal 2 c.toNat
    else '\\' :: 'u' :: hexadecimal 4 c.toNat

/-- A string between double quotes. -/
def doubleQuoted (cs : List Char) : String :=
  String.ofList ('"' :: cs.flatMap escape ++ ['"'])

/-- The characters between single quotes, the closing quote included. What follows a line break is
indented; `fresh` says that a break was just written. -/
def singleQuotedFrom (indent : Nat) (fresh : Bool) : List Char → List Char
  | [] => (if fresh then List.replicate indent ' ' else []) ++ ['\'']
  | c :: cs =>
    if isBreak c then c :: singleQuotedFrom indent true cs
    else
      let written := if c == '\'' then ['\'', '\''] else [c]
      (if fresh then List.replicate indent ' ' else []) ++ written ++
        singleQuotedFrom indent false cs

/-- A string between single quotes. -/
def singleQuoted (indent : Nat) (cs : List Char) : String :=
  String.ofList ('\'' :: singleQuotedFrom indent false cs)

/-- What follows the bar of a literal block: an indentation mark when the text starts with a space
or a break, and a mark for an end without line break or with more than one. -/
def literalHints (cs : List Char) : List Char :=
  let indentation := match cs with
    | c :: _ => if c == ' ' || isBreak c then ['2'] else []
    | [] => []
  let ending := match cs.reverse with
    | [] => ['-']
    | [c] => if isBreak c then ['+'] else ['-']
    | c :: d :: _ => if !isBreak c then ['-'] else if isBreak d then ['+'] else []
  indentation ++ ending

/-- The lines of a literal block, each indented unless it is empty; `fresh` says that a break was
just written. -/
def literalLines (indent : Nat) (fresh : Bool) : List Char → List Char
  | [] => []
  | c :: cs =>
    if isBreak c then c :: literalLines indent true cs
    else
      (if fresh then List.replicate indent ' ' else []) ++ c :: literalLines indent false cs

/-- A literal block. -/
def literal (indent : Nat) (cs : List Char) : String :=
  String.ofList ('|' :: literalHints cs ++ '\n' :: literalLines indent true cs)

/-- A string in its style; `indent` is the indentation of the lines after the first. -/
def scalar (indent : Nat) (s : String) : String :=
  match styleOf s with
  | .plain => s
  | .singleQuoted => singleQuoted indent s.toList
  | .doubleQuoted => doubleQuoted s.toList
  | .literal => literal indent s.toList

/-- Whether a key stands on one line with its value. -/
def isSimpleKey (key : String) : Bool := key.utf8ByteSize ≤ 128 && !key.toList.any isBreak

/-! ## Documents -/

/-- Writes a key and its colon at an indentation that the line has already got to. -/
def writeKey (indent : Nat) (out : String) (key : String) : String :=
  if isSimpleKey key then out ++ scalar (indent + 2) key ++ ":"
  else startLine indent (out ++ "? " ++ scalar (indent + 2) key) ++ ":"

/-- Moves on from the colon of a key at an indentation to where its value starts, and gives the
indentation of the value. -/
def place (indent : Nat) (key : String) (out : String) : Node → Nat × String
  | .list (_ :: _) =>
    if isSimpleKey key then (indent, startLine indent out) else (indent + 2, out ++ " ")
  | .map (_ :: _) =>
    if isSimpleKey key then (indent + 2, startLine (indent + 2) out) else (indent + 2, out ++ " ")
  | _ => (indent + 2, out ++ " ")

mutual

/-- Writes a document at an indentation that the line has already got to. -/
def write (indent : Nat) (out : String) : Node → String
  | .null => out ++ "null"
  | .text s => out ++ scalar indent s
  | .list [] => out ++ "[]"
  | .list (item :: items) =>
    writeItems indent (write (indent + 2) (out ++ "- ") item) items
  | .map [] => out ++ "\x7b\x7d"
  | .map ((key, value) :: entries) =>
    let (inner, start) := place indent key (writeKey indent out key) value
    writeEntries indent (write inner start value) entries

/-- Writes the items of a list after the first. -/
def writeItems (indent : Nat) (out : String) : List Node → String
  | [] => out
  | item :: items =>
    writeItems indent (write (indent + 2) (startLine indent out ++ "- ") item) items

/-- Writes the entries of a map after the first. -/
def writeEntries (indent : Nat) (out : String) : List (String × Node) → String
  | [] => out
  | (key, value) :: entries =>
    let (inner, start) := place indent key (writeKey indent (startLine indent out) key) value
    writeEntries indent (write inner start value) entries

end

/-- The text of a document, closed by the end of its last line. -/
def render (n : Node) : String := startLine 0 (write 0 "" n)

end TableSchema.Document.Yaml
