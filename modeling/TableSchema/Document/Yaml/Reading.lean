import TableSchema.Document.Yaml.Composition
import TableSchema.Document.Yaml.Plain

/-!
# Reading YAML

What is told by a YAML document, for a reader who knows what to expect. What wants a string takes
the text of any scalar. Only what may be absent asks what a scalar means, and there a plain scalar
that is empty or a word for nothing means that nothing is given.

An alias is followed where something is read through it, and not where it is passed over. Since a
short text could stand for an enormous one in this way, no more than a hundred aliases are followed
for each part of a document.
-/

namespace TableSchema.Document.Yaml

/-- What reads a part of a document. It has the root at hand, and a number of aliases that may still
be followed. -/
abbrev TreeReader := ReaderT Tree (StateT Nat Option)

namespace Tree

/-- A tree without its anchor, or what an alias stands for. -/
def settle : Tree → TreeReader Tree
  | anchored _ node => return node
  | .alias number => do
    match ← get with
    | 0 => failure
    | left + 1 =>
      set left
      match (← read).anchored? number with
      | some node => return node
      | none => failure
  | t => return t

/-- The tag for nothing. -/
def nullTag : List Nat := Text.encode "tag:yaml.org,2002:null".toList

/-- The text of a scalar. -/
def text (t : Tree) : TreeReader String := do
  match ← t.settle with
  | scalar text _ _ => return text
  | _ => failure

/-- The text of a scalar, or that there is none. A plain scalar that is tagged as nothing has to be
a word for it. -/
def optionalText (t : Tree) : TreeReader (Option String) := do
  match ← t.settle with
  | scalar text isPlain tag =>
    if !isPlain then return some text
    else if tag = some nullTag then if nullWords.contains text then return none else failure
    else if tag = none && (text.isEmpty || nullWords.contains text) then return none
    else return some text
  | _ => failure

/-- The items of a list. Where nothing is written the list has none. -/
def items (t : Tree) : TreeReader (List Tree) := do
  match ← t.settle with
  | list items => return items
  | t => if t.isEmpty then return [] else failure

/-- The texts of a list of scalars. -/
def texts (t : Tree) : TreeReader (List String) := do (← t.items).mapM text

/-- The entries of a map whose keys are scalars. Where nothing is written the map has none. -/
def entries (t : Tree) : TreeReader (List (String × Tree)) := do
  match ← t.settle with
  | map entries => entries.mapM fun (key, value) => return (← key.text, value)
  | t => if t.isEmpty then return [] else failure

/-- The name in a tag, if the tag starts like one of its own and the rest is a text. A tag that is
the exclamation mark alone is a name too. -/
def tagName? : List Nat → Option String
  | [] => none
  | c :: name =>
    if [c] = loneTag then Text.decode? (if name.isEmpty then loneTag else name) else none

/-- What a scalar names: the name in its tag, when the scalar holds nothing else, or else its
text. -/
def choice (t : Tree) : TreeReader String := do
  match ← t.settle with
  | scalar text isPlain tag =>
    match tag.bind tagName? with
    | some name =>
      if isPlain && (text.isEmpty || nullWords.contains text) then return name else failure
    | none => return text
  | _ => failure

end Tree

/-- What a text with at most one document tells. -/
def TreeReader.ofText? {α : Type} (reading : Tree → TreeReader α) (text : String) : Option α := do
  let root ← Tree.ofText? text
  let (result, _) ← (reading root).run root |>.run (100 * root.size)
  return result

end TableSchema.Document.Yaml
