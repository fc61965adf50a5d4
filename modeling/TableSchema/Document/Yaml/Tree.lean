/-!
# Trees

A YAML document as it is written: scalars, lists and maps, nodes with an anchor, and the aliases
that stand for such nodes. Scalars stay texts, whatever they mean.

Anchors go by numbers here. The number of an anchor tells how many names anchors had before it, so
an anchor takes a number that is in use already after one that repeated a name. Of several nodes
with one number an alias stands for the last, even for one that follows the alias.
-/

namespace TableSchema.Document.Yaml

/-- A part of a document. -/
inductive Tree where
  /-- a scalar, plain or not, with the octets of its tag -/
  | scalar (text : String) (isPlain : Bool) (tag : Option (List Nat))
  | list (items : List Tree)
  | map (entries : List (Tree × Tree))
  /-- a node with an anchor -/
  | anchored (number : Nat) (node : Tree)
  /-- what stands for a node with an anchor -/
  | alias (number : Nat)
  deriving Repr

namespace Tree

/-- What stands where nothing is written. -/
def empty : Tree := scalar "" true none

/-- Whether nothing is written. -/
def isEmpty : Tree → Bool
  | scalar "" true _ => true
  | _ => false

/-! ## Size -/

mutual

/-- The number of scalars and aliases, and of starts and ends of lists and maps. -/
def size : Tree → Nat
  | scalar .. => 1
  | list items => itemsSize items + 2
  | map entries => entriesSize entries + 2
  | anchored _ node => node.size
  | .alias _ => 1

/-- The sizes of items together. -/
def itemsSize : List Tree → Nat
  | [] => 0
  | item :: items => item.size + itemsSize items

/-- The sizes of entries together. -/
def entriesSize : List (Tree × Tree) → Nat
  | [] => 0
  | (key, value) :: entries => key.size + value.size + entriesSize entries

end

/-! ## Anchors -/

mutual

/-- The node with an anchor of some number that starts last. -/
def anchored? (number : Nat) : Tree → Option Tree
  | scalar .. => none
  | list items => anchoredItem? number items
  | map entries => anchoredPart? number entries
  | anchored n node => (node.anchored? number).or (if n = number then some node else none)
  | .alias _ => none

/-- The same, for a list of items. -/
def anchoredItem? (number : Nat) : List Tree → Option Tree
  | [] => none
  | item :: items => (anchoredItem? number items).or (item.anchored? number)

/-- The same, for a list of entries. -/
def anchoredPart? (number : Nat) : List (Tree × Tree) → Option Tree
  | [] => none
  | (key, value) :: entries =>
    ((anchoredPart? number entries).or (value.anchored? number)).or (key.anchored? number)

end

end Tree

end TableSchema.Document.Yaml
