import TableSchema.Document.Yaml.Character
import TableSchema.Text.Hexadecimal
import TableSchema.Text.Utf8

/-!
# Anchors, tags and directives

What a node can say of itself before its content, and what a document can say before its root. An
anchor names a node, so that an alias can stand for it. A tag says what a node is: it is written in
full between angles, or in short with a handle that a directive explains.

A tag is a sequence of octets, which need not be a text. What is written of it in one place ends at
an octet of zero, although more may be written there.

Each reader takes the characters after the mark that announces the property.
-/

namespace TableSchema.Document.Yaml

/-! ## Anchors -/

/-- The characters other than gaps that may follow the name of an anchor. -/
def anchorEnds : List Char := ['?', ':', ',', ']', '\x7d', '%', '@', '\x60']

/-- Reads the name of an anchor. -/
def anchorName? (cs : List Char) : Option (String × List Char) :=
  let name := cs.takeWhile isNameChar
  let rest := cs.dropWhile isNameChar
  if !name.isEmpty && (isGap rest.head? || rest.head?.any anchorEnds.contains) then
    some (String.ofList name, rest)
  else none

/-! ## Tags -/

/-- A tag as it is written. -/
structure Tag where
  /-- the handle, empty for a tag in full -/
  handle : String
  /-- the octets of what follows the handle -/
  suffix : List Nat
  deriving DecidableEq, Repr

/-- Whether a tag may hold a character; brackets and commas only stand in a tag in full. -/
def isTagChar (inFull : Bool) (c : Char) : Bool :=
  isNameChar c || ";/?:@&=+$.!~*'()".toList.contains c || (inFull && ",[]".toList.contains c)

/-- How many octets of a character are still to come after an octet, where so many were. -/
def owedAfter? : (owed octet : Nat) → Option Nat
  | 0, octet =>
    if octet < 0x80 then some 0
    else if 0xC0 ≤ octet && octet < 0xE0 then some 1
    else if 0xE0 ≤ octet && octet < 0xF0 then some 2
    else if 0xF0 ≤ octet && octet < 0xF8 then some 3
    else none
  | owed + 1, octet => if 0x80 ≤ octet && octet < 0xC0 then some owed else none

/-- Reads the octets of a tag as far as it goes. A percent sign announces an octet by its two
digits, and the octets of a character stand together. -/
def tagOctets? (inFull : Bool) (owed : Nat) : List Char → Option (List Nat × List Char)
  | [] => if owed = 0 then some ([], []) else none
  | '%' :: a :: b :: cs => do
    let octet ← Text.hexadecimal? 2 [a, b]
    let (octets, rest) ← tagOctets? inFull (← owedAfter? owed octet) cs
    return (octet :: octets, rest)
  | c :: cs =>
    if c = '%' || owed ≠ 0 then none
    else if isTagChar inFull c then do
      let (octets, rest) ← tagOctets? inFull 0 cs
      return (c.toNat :: octets, rest)
    else some ([], c :: cs)

/-- The octets before the first octet of zero. -/
def beforeZero (octets : List Nat) : List Nat := octets.takeWhile (· ≠ 0)

/-- Reads a part of a tag as far as it goes. -/
def tagPart? (inFull : Bool) (cs : List Char) : Option (List Nat × List Char) := do
  let (octets, rest) ← tagOctets? inFull 0 cs
  return (beforeZero octets, rest)

/-- Reads a part of a tag for which something has to be written. -/
def writtenTagPart? (inFull : Bool) (cs : List Char) : Option (List Nat × List Char) := do
  let (octets, rest) ← tagOctets? inFull 0 cs
  if octets.isEmpty then none else return (beforeZero octets, rest)

/-- The tag that an exclamation mark alone is. -/
def loneTag : List Nat := Text.encode ['!']

/-- Reads a tag after its exclamation mark. A second exclamation mark ends a handle; the mark alone
is a tag of its own. -/
def tag? (cs : List Char) : Option (Tag × List Char) :=
  match cs with
  | '<' :: cs => do
    match ← writtenTagPart? true cs with
    | (octets, '>' :: rest) => return (⟨"", octets⟩, rest)
    | _ => none
  | cs =>
    let name := String.ofList (cs.takeWhile isNameChar)
    match cs.dropWhile isNameChar with
    | '!' :: r => do
      let (suffix, rest) ← writtenTagPart? false r
      return (⟨"!" ++ name ++ "!", suffix⟩, rest)
    | _ => do
      let (suffix, rest) ← tagPart? false cs
      return (if suffix.isEmpty then ⟨"", loneTag⟩ else ⟨"!", suffix⟩, rest)

/-! ## Directives -/

/-- What a document can say before its root. -/
inductive Directive where
  /-- the version of the language -/
  | version (major minor : Nat)
  /-- what the tags with a handle start with -/
  | handle (name : String) (start : List Nat)
  deriving DecidableEq, Repr

/-- Reads a number of at most nine digits. -/
def versionNumber? (cs : List Char) : Option (Nat × List Char) :=
  let digits := cs.takeWhile Char.isDigit
  if digits.isEmpty || 9 < digits.length then none
  else some (digits.foldl (fun n c => n * 10 + (c.toNat - '0'.toNat)) 0, cs.dropWhile Char.isDigit)

/-- Reads a handle: an exclamation mark, or a name between two. -/
def handle? (cs : List Char) : Option (String × List Char) :=
  match cs with
  | '!' :: cs =>
    let name := String.ofList (cs.takeWhile isNameChar)
    match cs.dropWhile isNameChar with
    | '!' :: rest => some ("!" ++ name ++ "!", rest)
    | rest => if name.isEmpty then some ("!", rest) else none
  | _ => none

/-- Reads the line of a directive after its percent sign. -/
def directive? (cs : List Char) : Option (Directive × List Char) := do
  let name := String.ofList (cs.takeWhile isNameChar)
  let rest := cs.dropWhile isNameChar
  if !isGap rest.head? then none
  let values := rest.dropWhile isBlank
  if name = "YAML" then
    match ← versionNumber? values with
    | (major, '.' :: r) =>
      let (minor, r) ← versionNumber? r
      return (.version major minor, ← endOfLine? r)
    | _ => none
  else if name = "TAG" then
    let (handle, r) ← handle? values
    if !r.head?.any isBlank then none
    let (start, r) ← writtenTagPart? true (r.dropWhile isBlank)
    if !isGap r.head? then none
    return (.handle handle start, ← endOfLine? r)
  else none

end TableSchema.Document.Yaml
