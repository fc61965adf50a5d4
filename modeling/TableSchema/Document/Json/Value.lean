/-!
# JSON values

What a JSON text says, as far as it matters to this library. Every member of an object is kept, in
order and with repetitions, since whether a repeated key is a fault depends on what is read from
the object. A string that escapes one half of a surrogate pair without the other stands for no
text; that is a fault only where the text is wanted.
-/

namespace TableSchema.Document.Json

/-- A JSON value. -/
inductive Value where
  | null
  | bool (value : Bool)
  /-- a number, as it is written -/
  | number (numeral : String)
  /-- a string, with its text if it stands for one -/
  | string (text : Option String)
  | list (items : List Value)
  /-- an object, with the texts of its keys -/
  | map (members : List (Option String × Value))
  deriving Repr

namespace Value

/-- The text of a string. -/
def text? : Value → Option String
  | string text => text
  | _ => none

/-- The text of a string, or nothing where there is `null` or no value at all. -/
def optionalText? : Option Value → Option (Option String)
  | none | some null => some none
  | some v => v.text?.map some

/-- The items of a list, each read in the same way. -/
def listOf? {α : Type} (read : Value → Option α) : Value → Option (List α)
  | list items => items.mapM read
  | _ => none

/-- The members of an object, their values all read in the same way. -/
def membersOf? {α : Type} (read : Value → Option α) : Value → Option (List (String × α))
  | map members => members.mapM fun (key, v) => return (← key, ← read v)
  | _ => none

/-- The parts of a record, in the order of their names, where a missing part is `none`.

* In an object the parts stand under their names, each at most once; other keys do not count.
* In a list they stand in the order of the names. At least so many as `least` have to be there,
  and there may be no more than there are names. -/
def record? (names : List String) (least : Nat) : Value → Option (List (Option Value))
  | map members =>
    if members.all (fun m => m.1.isSome) &&
        names.all fun name => members.countP (fun m => m.1 == some name) ≤ 1 then
      some (names.map fun name => members.lookup (some name))
    else none
  | list items =>
    if least ≤ items.length && items.length ≤ names.length then
      some (items.map some ++ List.replicate (names.length - items.length) none)
    else none
  | _ => none

end Value

end TableSchema.Document.Json
