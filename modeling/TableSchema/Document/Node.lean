/-!
# Documents

What the texts that this library writes are made of: strings, lists, and maps with string keys,
and the absent value. The order of the entries of a map is part of it.
-/

namespace TableSchema.Document

/-- A document or a part of one. -/
inductive Node where
  /-- the absent value -/
  | null
  /-- a string -/
  | text (value : String)
  /-- a list -/
  | list (items : List Node)
  /-- a map, with its entries in order -/
  | map (entries : List (String × Node))
  deriving Repr

namespace Node

/-- A string, or the absent value. -/
def ofText? : Option String → Node
  | some value => text value
  | none => null

/-- A list of strings. -/
def ofTexts (values : List String) : Node := list (values.map text)

/-- The entry for a string that is left out when there is none. -/
def optional (key : String) : Option String → List (String × Node)
  | some value => [(key, text value)]
  | none => []

end Node

end TableSchema.Document
