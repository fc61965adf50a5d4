import TableSchema.Document.Yaml.BlockScalar
import TableSchema.Document.Yaml.FlowScalar
import TableSchema.Document.Yaml.Tag

/-!
# Marks

A YAML text as a list of marks: the scalars, the properties of nodes, and the signs that make the
structure, those included that are only shown by the indentation.

Two things are found out late. A block collection starts where its first item or key stands further
right than the collection around it, and ends where something stands further left. And a key is
known as one only when its colon is met: until then every place where a key may start is a
candidate, and the marks of the key are put in at that place. A candidate lapses after its line or
after 1024 bytes, which is an error where nothing but a key could stand.
-/

namespace TableSchema.Document.Yaml

/-- A mark of a text. -/
inductive Mark where
  /-- a block list starts -/
  | list
  /-- a block map starts -/
  | map
  /-- a block list or map ends -/
  | blockEnd
  /-- an item of a block list follows -/
  | item
  /-- a key follows -/
  | key
  /-- a value follows -/
  | value
  /-- the opening bracket of a flow list -/
  | openList
  /-- the closing bracket of a flow list -/
  | closeList
  /-- the opening bracket of a flow map -/
  | openMap
  /-- the closing bracket of a flow map -/
  | closeMap
  /-- the comma in a flow list or map -/
  | comma
  | anchor (name : String)
  | alias (name : String)
  | tag (t : Tag)
  /-- a scalar, plain or not -/
  | scalar (text : String) (isPlain : Bool)
  | directive (d : Directive)
  /-- a document starts -/
  | documentStart
  /-- a document has ended -/
  | documentEnd
  deriving DecidableEq, Repr

/-! ## Places -/

/-- A place in a text, counted from zero. -/
structure Place where
  /-- the bytes before it -/
  index : Nat := 0
  /-- the lines before its line -/
  line : Nat := 0
  /-- the characters before it on its line -/
  column : Nat := 0
  deriving DecidableEq, Repr

/-- The place after a character. -/
def Place.after (p : Place) (c : Char) : Place :=
  let index := p.index + c.utf8Size
  if isBreak c then ⟨index, p.line + 1, 0⟩ else ⟨index, p.line, p.column + 1⟩

/-- A place where a key may have started. -/
structure Candidate where
  /-- where that is -/
  place : Place
  /-- the number of marks before it -/
  position : Nat
  /-- whether only a key can stand there -/
  isRequired : Bool
  deriving DecidableEq, Repr

/-- Whether a key that started at a candidate would be over at a place. -/
def Candidate.isLapsed (c : Candidate) (p : Place) : Bool :=
  c.place.line < p.line || c.place.index + 1024 < p.index

/-! ## Layout -/

/-- A text that has been read up to some place. -/
structure Layout where
  /-- the characters still to read -/
  rest : List Char
  /-- where they start -/
  place : Place := {}
  /-- the marks so far, the last one first -/
  marks : List Mark := []
  /-- the columns of the block collections that have not ended, the innermost first -/
  columns : List Nat := []
  /-- where a key may have started, outside all flow collections that have started since -/
  candidate : Option Candidate := none
  /-- the same for each flow collection around, the innermost first -/
  outer : List (Option Candidate) := []
  /-- whether a key may start here -/
  mayStartKey : Bool := true
  deriving Repr

namespace Layout

/-- Whether the place is inside a flow collection. -/
def inFlow (l : Layout) : Bool := !l.outer.isEmpty

/-- The least column for what is inside the innermost block collection. -/
def minimum (l : Layout) : Nat := match l.columns with
  | [] => 0
  | column :: _ => column + 1

/-- The layout at the start of some of the last characters. -/
def goTo (rest : List Char) (l : Layout) : Layout :=
  let passed := l.rest.take (l.rest.length - rest.length)
  { l with rest, place := passed.foldl Place.after l.place }

/-- The layout with a mark added. -/
def emit (m : Mark) (l : Layout) : Layout := { l with marks := m :: l.marks }

/-- The layout with a mark that takes some characters. -/
def emitOver (m : Mark) (width : Nat) (l : Layout) : Layout := (l.emit m).goTo (l.rest.drop width)

/-- The layout with a mark put in before the marks from a position on. -/
def insert (m : Mark) (position : Nat) (l : Layout) : Layout :=
  let later := l.marks.length - position
  { l with marks := l.marks.take later ++ m :: l.marks.drop later }

/-- The layout where a key may or may not start. -/
def allowKey (mayStartKey : Bool) (l : Layout) : Layout := { l with mayStartKey }

/-! ### Block collections -/

/-- Ends the block collections to the right of some column. -/
def endColumns (isOver : Nat → Bool) (l : Layout) : Layout :=
  if l.inFlow then l
  else
    let ended := l.columns.takeWhile isOver
    { l with
      marks := ended.map (fun _ => Mark.blockEnd) ++ l.marks
      columns := l.columns.drop ended.length }

/-- Starts a block collection at a column, before the marks from a position on, unless one has
started there or further right. -/
def startColumn (m : Mark) (column position : Nat) (l : Layout) : Layout :=
  if l.inFlow || column < l.minimum then l
  else { l.insert m position with columns := column :: l.columns }

/-! ### Candidates -/

/-- Gives up the candidate, unless it is required. -/
def dropCandidate (l : Layout) : Option Layout :=
  if l.candidate.any Candidate.isRequired then none else some { l with candidate := none }

/-- Makes the place a candidate if a key may start there. -/
def addCandidate (l : Layout) : Option Layout := do
  if !l.mayStartKey then return l
  let isRequired := !l.inFlow && l.columns.head? == some l.place.column
  return { ← l.dropCandidate with candidate := some ⟨l.place, l.marks.length, isRequired⟩ }

/-- Gives up every candidate that has lapsed, unless it is required. -/
def dropLapsed (l : Layout) : Option Layout :=
  let isLapsed (c : Candidate) : Bool := c.isLapsed l.place
  if (l.candidate :: l.outer).any (·.any fun c => isLapsed c && c.isRequired) then none
  else
    let keep (c? : Option Candidate) : Option Candidate := c?.filter fun c => !isLapsed c
    some { l with candidate := keep l.candidate, outer := l.outer.map keep }

/-! ### Gaps -/

/-- The characters after blanks, line breaks and comments, and whether a key may start there:
outside flow collections it may after a line break. A tab is no blank where a key may start. A byte
order mark is one at the start of a line, which `atStart` says, and `inComment` says that the line
is commented out from here on. -/
def skipBlanks (inFlow mayStartKey atStart inComment : Bool) : List Char → Bool × List Char
  | [] => (mayStartKey, [])
  | c :: cs =>
    if isBreak c then skipBlanks inFlow (mayStartKey || !inFlow) true false cs
    else if inComment || c == '#' then skipBlanks inFlow mayStartKey false true cs
    else if c == ' ' || (c == '\t' && (inFlow || !mayStartKey)) || (c == '\uFEFF' && atStart) then
      skipBlanks inFlow mayStartKey false false cs
    else (mayStartKey, c :: cs)

/-- The layout at the next mark. -/
def skipGap (l : Layout) : Layout :=
  let (mayStartKey, rest) :=
    skipBlanks l.inFlow l.mayStartKey (l.place.column == 0) false l.rest
  (l.goTo rest).allowKey mayStartKey

/-! ### Marks -/

/-- Reads a mark on which no block collection and no key can depend. -/
def documentMark (m : Mark) (rest : List Char) (l : Layout) : Option Layout := do
  return ((← (l.endColumns fun _ => true).dropCandidate).allowKey false |>.emit m).goTo rest

/-- Reads an opening bracket. -/
def openFlow (m : Mark) (l : Layout) : Option Layout := do
  let l ← l.addCandidate
  return { l.emitOver m 1 with
    candidate := none, outer := l.candidate :: l.outer, mayStartKey := true }

/-- Reads a closing bracket. -/
def closeFlow (m : Mark) (l : Layout) : Option Layout := do
  let l ← l.dropCandidate
  let l := match l.outer with
    | candidate :: outer => { l with candidate, outer }
    | [] => l
  return (l.emitOver m 1).allowKey false

/-- Reads a comma. -/
def comma (l : Layout) : Option Layout := do
  return ((← l.dropCandidate).emitOver .comma 1).allowKey true

/-- Starts a block collection at the place, if it is a new one. In a block this is an error where
no key may start. -/
def startHere (m : Mark) (l : Layout) : Option Layout :=
  if l.inFlow then some l
  else if l.mayStartKey then some (l.startColumn m l.place.column l.marks.length)
  else none

/-- Reads the dash of an item. -/
def item (l : Layout) : Option Layout := do
  return ((← (← l.startHere .list).dropCandidate).emitOver .item 1).allowKey true

/-- Reads a question mark that announces a key. -/
def key (l : Layout) : Option Layout := do
  return ((← (← l.startHere .map).dropCandidate).emitOver .key 1).allowKey !l.inFlow

/-- Reads a colon. It makes a key of the candidate if there is one. -/
def value (l : Layout) : Option Layout :=
  match l.candidate with
  | some c =>
    let l := (l.insert .key c.position).startColumn .map c.place.column c.position
    some (({ l with candidate := none }.emitOver .value 1).allowKey false)
  | none => do return ((← l.startHere .map).emitOver .value 1).allowKey !l.inFlow

/-- Reads a property or a scalar, at which a key may start but not after it. -/
def word (m : Mark) (rest : List Char) (l : Layout) : Option Layout := do
  return ((← l.addCandidate).emit m |>.allowKey false).goTo rest

/-- Reads a block scalar after its mark. -/
def block (folds : Bool) (cs : List Char) (l : Layout) : Option Layout := do
  let l ← l.dropCandidate
  let (text, rest) ← blockScalar? folds (l.columns.head?.getD 0) l.minimum cs
  return (l.emit (.scalar (String.ofList text) false) |>.allowKey true).goTo rest

/-- Reads a plain scalar. A key may start after it if it is followed by a line break. -/
def plainWord (l : Layout) : Option Layout := do
  let (text, spacing, rest) ← plain l.inFlow l.minimum l.place.column (.blanks []) l.rest
  let l' ← l.word (.scalar (String.ofList text) true) rest
  return l'.allowKey spacing.isMultiline

/-- The characters with which no plain scalar starts. -/
def signs : List Char :=
  [',', '[', ']', '\x7b', '\x7d', '#', '&', '*', '!', '|', '>', '\'', '"', '%', '@', '\x60']

/-- Whether a plain scalar can start with some characters. A dash may open it before anything but a
blank, and in a block a question mark or colon before anything but a gap. The tabs that are left
where a key may start open nothing. -/
def startsPlain (inFlow : Bool) (cs : List Char) : Bool :=
  match cs with
  | [] => false
  | '-' :: r => !r.head?.any isBlank
  | c :: r =>
    if c == '?' || c == ':' then !inFlow && !isGap r.head?
    else !isBlank c && !signs.contains c

/-- Reads a mark that does not depend on the column. -/
def next (l : Layout) : Option Layout :=
  match l.rest with
  | [] => none
  | c :: cs =>
    match c with
    | '[' => l.openFlow .openList
    | ']' => l.closeFlow .closeList
    | '\x7b' => l.openFlow .openMap
    | '\x7d' => l.closeFlow .closeMap
    | ',' => l.comma
    | '&' => do
      let (name, rest) ← anchorName? cs
      l.word (.anchor name) rest
    | '*' => do
      let (name, rest) ← anchorName? cs
      l.word (.alias name) rest
    | '!' => do
      let (t, rest) ← tag? cs
      if isGap rest.head? || (l.inFlow && rest.head? == some ',') then l.word (.tag t) rest
      else none
    | '\'' => do
      let (text, rest) ← singleQuotedRest (l.place.column + 1) (.blanks []) cs
      l.word (.scalar (String.ofList text) false) rest
    | '"' => do
      let (text, rest) ← doubleQuotedRest (l.place.column + 1) (.blanks []) cs
      l.word (.scalar (String.ofList text) false) rest
    | _ =>
      let isWord := isGap cs.head?
      if c == '-' && isWord then l.item
      else if c == '?' && (l.inFlow || isWord) then l.key
      else if c == ':' && (l.inFlow || isWord) then l.value
      else if !l.inFlow && (c == '|' || c == '>') then l.block (c == '>') cs
      else if startsPlain l.inFlow l.rest then l.plainWord
      else none

/-- Reads a mark. At the start of a line it may be a directive or a document mark. -/
def step (l : Layout) : Option Layout := do
  if l.place.column = 0 then
    if l.rest.head? = some '%' then
      let (d, rest) ← directive? (l.rest.drop 1)
      return ← l.documentMark (.directive d) rest
    if startsWithDocumentMark l.rest then
      let mark := if l.rest.head? = some '-' then Mark.documentStart else .documentEnd
      return ← l.documentMark mark (l.rest.drop 3)
  l.next

/-- Reads all marks, at most so many. -/
def read : Nat → Layout → Option Layout
  | 0, _ => none
  | fuel + 1, l => do
    let l ← l.skipGap.dropLapsed
    let l := l.endColumns (l.place.column < ·)
    if l.rest.isEmpty then (l.endColumns fun _ => true).dropCandidate
    else read fuel (← l.step)

end Layout

/-- The marks of a text. A text with a character that is not allowed has none. -/
def marks? (text : String) : Option (List Mark) := do
  let cs := text.toList
  if !cs.all isAllowed then none
  return (← Layout.read (cs.length + 1) { rest := normalizeBreaks cs }).marks.reverse

end TableSchema.Document.Yaml
