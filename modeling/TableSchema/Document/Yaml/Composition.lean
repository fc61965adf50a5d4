import TableSchema.Document.Yaml.Mark
import TableSchema.Document.Yaml.Tree
import TableSchema.OrderedMap

/-!
# Composition

The tree that the marks of a text make up, by the grammar of documents. Where the grammar wants a
node and a mark follows that none starts with, the node is an empty plain scalar.

The name of an alias has to be that of an anchor before it, and has the number that it had there
last.
-/

namespace TableSchema.Document.Yaml

/-- A composition that has got to some mark. -/
structure Composition where
  /-- the marks still to read -/
  marks : List Mark
  /-- what the tags with a handle start with -/
  handles : List (String × List Nat) := []
  /-- the names of the anchors so far, each with the last number of its anchors -/
  anchors : OrderedMap Nat := .empty

/-- A step of a composition. -/
abbrev Composing := StateT Composition Option

namespace Composing

/-! ## Marks -/

/-- The mark that follows. -/
def peek : Composing (Option Mark) := return (← get).marks.head?

/-- Goes over the mark that follows. -/
def advance : Composing Unit := modify fun c => { c with marks := c.marks.drop 1 }

/-- Goes over a mark if it follows, and says whether it does. -/
def skip (m : Mark) : Composing Bool := do
  let follows := (← peek) == some m
  if follows then advance
  return follows

/-- Goes over a mark that has to follow. -/
def expect (m : Mark) : Composing Unit := do
  if !(← skip m) then failure

/-- Whether one of some marks follows. -/
def follows (ms : List Mark) : Composing Bool := return (← peek).any ms.contains

/-! ## Properties -/

/-- Goes over an anchor if one follows. -/
def anchor? : Composing (Option String) := do
  match ← peek with
  | some (.anchor name) =>
    advance
    return some name
  | _ => return none

/-- Goes over a tag if one follows, and gives it in full. Its handle has to be known. -/
def tag? : Composing (Option (List Nat)) := do
  match ← peek with
  | some (.tag t) =>
    advance
    if t.handle.isEmpty then return some t.suffix
    match (← get).handles.lookup t.handle with
    | some start => return some (start ++ t.suffix)
    | none => failure
  | _ => return none

/-- Goes over the properties of a node, in either order. -/
def properties : Composing (Option String × Option (List Nat)) := do
  match ← anchor? with
  | some name => return (some name, ← tag?)
  | none =>
    match ← tag? with
    | some tag => return (← anchor?, some tag)
    | none => return (none, none)

/-- An alias for the anchor of a name. -/
def aliasOf (name : String) : Composing Tree := do
  match (← get).anchors.get? name with
  | some number => return .alias number
  | none => failure

/-- Composes a node that can have an anchor. -/
def anchored (name : Option String) (node : Composing Tree) : Composing Tree := do
  match name with
  | none => node
  | some name =>
    let anchors := (← get).anchors
    modify fun c => { c with anchors := anchors.insert name anchors.size }
    return .anchored anchors.size (← node)

/-! ## Nodes -/

/-- Composes a node of which there are only properties. -/
def absent (anchor : Option String) (tag : Option (List Nat)) : Composing Tree :=
  if anchor.isSome || tag.isSome then return .scalar "" true tag else failure

mutual

/-- Composes a node. Block collections can stand there or not, and so can the items of a list that
is not indented. -/
def node (fuel : Nat) (inBlock ofEntry : Bool) : Composing Tree := do
  match fuel with
  | 0 => failure
  | fuel + 1 =>
    if let some (.alias name) ← peek then
      advance
      return ← aliasOf name
    let (anchor, tag) ← properties
    anchored anchor do
      match ← peek with
      | some (.scalar text isPlain) =>
        advance
        return .scalar text isPlain tag
      | some .openList =>
        advance
        return .list (← flowItems fuel true)
      | some .openMap =>
        advance
        return .map (← flowEntries fuel true)
      | some .item => if ofEntry then return .list (← looseItems fuel) else absent anchor tag
      | some .list =>
        if !inBlock then return ← absent anchor tag
        advance
        return .list (← blockItems fuel)
      | some .map =>
        if !inBlock then return ← absent anchor tag
        advance
        return .map (← blockEntries fuel)
      | _ => absent anchor tag

/-- Composes a node, or none if one of some marks follows. -/
def nodeUnless (ends : List Mark) (fuel : Nat) (inBlock ofEntry : Bool) : Composing Tree := do
  match fuel with
  | 0 => failure
  | fuel + 1 => if ← follows ends then return .empty else node fuel inBlock ofEntry

/-- Composes the items of a block list, to its end. -/
def blockItems (fuel : Nat) : Composing (List Tree) := do
  match fuel with
  | 0 => failure
  | fuel + 1 =>
    if ← skip .blockEnd then return []
    expect .item
    let item ← nodeUnless [.item, .blockEnd] fuel true false
    return item :: (← blockItems fuel)

/-- Composes the items of a list that is not indented, as far as they go. -/
def looseItems (fuel : Nat) : Composing (List Tree) := do
  match fuel with
  | 0 => failure
  | fuel + 1 =>
    if !(← skip .item) then return []
    let item ← nodeUnless [.item, .key, .value, .blockEnd] fuel true false
    return item :: (← looseItems fuel)

/-- Composes the entries of a block map, to its end. -/
def blockEntries (fuel : Nat) : Composing (List (Tree × Tree)) := do
  match fuel with
  | 0 => failure
  | fuel + 1 =>
    if ← skip .blockEnd then return []
    expect .key
    let ends := [.key, .value, .blockEnd]
    let key ← nodeUnless ends fuel true true
    let value ← if ← skip .value then nodeUnless ends fuel true true else pure .empty
    return (key, value) :: (← blockEntries fuel)

/-- Composes the items of a flow list, to its end. A key makes a map of one entry, whose key is
empty if a mark follows that no node starts with; that mark is passed over. -/
def flowItems (fuel : Nat) (isFirst : Bool) : Composing (List Tree) := do
  match fuel with
  | 0 => failure
  | fuel + 1 =>
    if ← skip .closeList then return []
    if !isFirst then
      expect .comma
      if ← skip .closeList then return []
    let item ←
      if ← skip .key then
        let isEmpty ← follows [.value, .comma, .closeList]
        if isEmpty then advance
        let key ← if isEmpty then pure .empty else node fuel false false
        let value ←
          if ← skip .value then nodeUnless [.comma, .closeList] fuel false false else pure .empty
        pure (.map [(key, value)])
      else node fuel false false
    return item :: (← flowItems fuel false)

/-- Composes the entries of a flow map, to its end. An entry without the mark of a key has no
value. -/
def flowEntries (fuel : Nat) (isFirst : Bool) : Composing (List (Tree × Tree)) := do
  match fuel with
  | 0 => failure
  | fuel + 1 =>
    if ← skip .closeMap then return []
    if !isFirst then
      expect .comma
      if ← skip .closeMap then return []
    let entry ←
      if ← skip .key then
        let key ← nodeUnless [.value, .comma, .closeMap] fuel false false
        let value ←
          if ← skip .value then nodeUnless [.comma, .closeMap] fuel false false else pure .empty
        pure (key, value)
      else pure (← node fuel false false, .empty)
    return entry :: (← flowEntries fuel false)

end

/-! ## Documents -/

/-- The handles that a document knows unless its directives say otherwise. -/
def commonHandles : List (String × List Nat) :=
  [("!", loneTag), ("!!", Text.encode "tag:yaml.org,2002:".toList)]

/-- Goes over the directives of a document. There can be one for the version, which has to be a
known one, and one for each handle. -/
def directives (fuel : Nat) (hasVersion : Bool) : Composing Unit := do
  match fuel with
  | 0 => failure
  | fuel + 1 =>
    match ← peek with
    | some (.directive (.version major minor)) =>
      if hasVersion || major ≠ 1 || !(minor = 1 || minor = 2) then failure
      advance
      directives fuel true
    | some (.directive (.handle name start)) =>
      if ((← get).handles.lookup name).isSome then failure
      advance
      modify fun c => { c with handles := c.handles ++ [(name, start)] }
      directives fuel hasVersion
    | _ => return

/-- Composes the root of a document. After directives there has to be the mark of its start, and
after that mark there may be nothing. -/
def root (fuel : Nat) : Composing Tree := do
  let hasDirectives := (← peek).any fun m => m matches .directive _
  directives fuel false
  modify fun c => { c with handles := c.handles ++ commonHandles }
  if ← skip .documentStart then
    match ← peek with
    | none | some .documentStart | some .documentEnd | some (.directive _) => return .empty
    | _ => node fuel true false
  else if hasDirectives then failure
  else node fuel true false

end Composing

/-- The tree of a text with at most one document. A text without document is a tree where nothing
is written. -/
def Tree.ofText? (text : String) : Option Tree := do
  let marks ← marks? text
  if marks.isEmpty then return .empty
  let (tree, c) ← (Composing.root (2 * marks.length + 2)).run { marks }
  if c.marks.all (· == .documentEnd) then return tree else none

end TableSchema.Document.Yaml
