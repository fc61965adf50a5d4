import TableSchema.Source.Description
import TableSchema.Text.Utf8

/-!
# Server conversations

What is asked of a MySQL server, and how its answers are read. An answer is a list of rows, and a
row is a list of cells. A cell of text holds octets, which are decoded whatever the server calls
them, with the replacement character for what is no valid encoding.

Table names are quoted by backticks in a query, and a backtick inside a name is doubled.
-/

namespace TableSchema.Source

open Catalog

/-- A cell of an answer. -/
inductive Cell where
  /-- no value -/
  | null
  /-- text, or data that can be read as text -/
  | text (octets : List Nat)
  /-- a value of another type -/
  | other
  deriving DecidableEq, Repr

/-- A row of an answer. -/
abbrev Row := List Cell

/-- A server: how it answers a query after the queries before it. -/
structure Server where
  /-- why nobody can connect, if so -/
  refusal : Option String := none
  /-- the answer to a query, given the queries before it -/
  answer : (before : List String) → (query : String) → Except String (List Row)
  /-- why the connection cannot be closed, if so -/
  closing : Option String := none

/-! ## Queries -/

/-- The query for the names of all tables. -/
def showTables : String := "SHOW TABLES"

/-- A name between backticks. -/
def quoteName (name : List Char) : List Char :=
  '\x60' :: name.flatMap (fun c => if c = '\x60' then [c, c] else [c]) ++ ['\x60']

/-- The query for the columns of a table. -/
def describe (table : String) : String := "DESCRIBE " ++ String.ofList (quoteName table.toList)

/-- Reads a name between backticks, and says what follows it. -/
def unquoteName? : List Char → Option (List Char × List Char)
  | '\x60' :: cs => inside cs
  | _ => none
where
  /-- Reads a name after its opening backtick. -/
  inside : List Char → Option (List Char × List Char)
    | [] => none
    | [c] => if c = '\x60' then some ([], []) else none
    | c :: d :: cs =>
      if c = '\x60' then
        if d = '\x60' then (inside cs).map fun (name, rest) => (c :: name, rest)
        else some ([], d :: cs)
      else (inside (d :: cs)).map fun (name, rest) => (c :: name, rest)

/-! ## Answers -/

/-- The text of a cell of a row, if there is a value. -/
def cellText (row : Row) (index : Nat) : Except String (Option String) :=
  match row[index]? with
  | some .null => .ok none
  | some (.text octets) => .ok (some (Text.decode octets))
  | some .other => .error s!"column {index} is not text"
  | none => .error s!"column {index} is missing"

/-- The table names in the answer to `showTables`; a name that is null is left out. -/
def namesOfRows (rows : List Row) : Except String (List String) := do
  return (← rows.mapM (cellText · 0)).filterMap id

/-- The column descriptions in the answer to `describe`; what follows the sixth cell is ignored. -/
def descriptionOfRow (row : Row) : Except String DescribeRow := do
  return .ofCells (← cellText row 0) (← cellText row 1) (← cellText row 2) (← cellText row 3)
    (← cellText row 4) (← cellText row 5)

end TableSchema.Source
