/-!
# Patterns

The patterns that a database query compares texts with (`LIKE`).

* A percent sign stands for any characters, perhaps none.
* An underscore stands for one character.
* Every other character stands for itself, and a letter of ASCII for its capital and small forms.

Behind the escape character, the percent sign and the underscore stand for themselves too. No text
is like a pattern that ends in a lone escape character.
-/

namespace TableSchema.Text

namespace Pattern

/-- A part of a pattern. -/
inductive Part where
  /-- any characters -/
  | anything
  /-- one character -/
  | anyOne
  /-- this character, in either case -/
  | character (c : Char)
  deriving DecidableEq, Repr

/-- The parts of a pattern, unless its escape character is left alone. -/
def parts? (escape : Char) : List Char → Option (List Part)
  | [] => some []
  | c :: cs =>
    if c = escape then
      match cs with
      | [] => none
      | d :: ds => (parts? escape ds).map (.character d :: ·)
    else if c = '%' then (parts? escape cs).map (.anything :: ·)
    else if c = '_' then (parts? escape cs).map (.anyOne :: ·)
    else (parts? escape cs).map (.character c :: ·)

/-- Whether parts of a pattern stand for a text. -/
def standFor : List Part → List Char → Bool
  | [], cs => cs.isEmpty
  | .anything :: parts, cs =>
    (List.range (cs.length + 1)).any fun n => standFor parts (cs.drop n)
  | .anyOne :: parts, cs => !cs.isEmpty && standFor parts cs.tail
  | .character p :: parts, cs =>
    cs.head?.any (fun c => c.toLower == p.toLower) && standFor parts cs.tail

end Pattern

/-- Whether a text is like a pattern with an escape character. -/
def isLike (text pattern : String) (escape : Char) : Bool :=
  match Pattern.parts? escape pattern.toList with
  | some parts => Pattern.standFor parts text.toList
  | none => false

example : isLike "Total" "t_t%" '\\' = true := by decide
example : isLike "text" "t\\_t%" '\\' = false := by decide

end TableSchema.Text
