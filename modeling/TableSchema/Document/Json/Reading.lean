import TableSchema.Document.Json.Value
import TableSchema.Text.Hexadecimal

/-!
# Reading JSON

A JSON text is one value between blanks. Each step of the reader takes at least one character
before it descends into the parts of a value, so the number of characters bounds the depth.

A string is first cut into pieces, the characters that stand for themselves or have a short escape,
and the UTF-16 units that are given by number. Units of a surrogate pair are joined afterwards.
-/

namespace TableSchema.Document.Json

/-! ## Blanks -/

/-- The characters that may stand between the parts of a text. -/
def isBlank (c : Char) : Bool := c == ' ' || c == '\t' || c == '\n' || c == '\r'

/-- A text without the blanks at its start. -/
def skipBlanks (cs : List Char) : List Char := cs.dropWhile isBlank

/-! ## Strings -/

/-- A piece of a string. -/
inductive Piece where
  /-- a character -/
  | char (c : Char)
  /-- a UTF-16 unit -/
  | unit (value : Nat)
  deriving DecidableEq, Repr

/-- The unit that four digits give. -/
def unit? (a b c d : Char) : Option Nat := do
  return (((← Text.hexadecimalDigit? a) * 16 + (← Text.hexadecimalDigit? b)) * 16 +
    (← Text.hexadecimalDigit? c)) * 16 + (← Text.hexadecimalDigit? d)

/-- The character that a backslash and a letter or mark stand for. -/
def shortEscape? : Char → Option Char
  | '"' => some '"'
  | '\\' => some '\\'
  | '/' => some '/'
  | 'b' => some '\x08'
  | 'f' => some '\x0c'
  | 'n' => some '\n'
  | 'r' => some '\r'
  | 't' => some '\t'
  | _ => none

/-- The pieces of a string after its opening quote, and the text after its closing one. -/
def readPieces : List Char → Option (List Piece × List Char)
  | '"' :: r => some ([], r)
  | '\\' :: 'u' :: a :: b :: c :: d :: r => do
    let value ← unit? a b c d
    let (pieces, r) ← readPieces r
    return (.unit value :: pieces, r)
  | '\\' :: e :: r => do
    let c ← shortEscape? e
    let (pieces, r) ← readPieces r
    return (.char c :: pieces, r)
  | c :: r => do
    guard (c ≠ '\\' && 0x20 ≤ c.toNat)
    let (pieces, r) ← readPieces r
    return (.char c :: pieces, r)
  | [] => none

/-- Whether a unit is the first half of a surrogate pair. -/
def isLeading (n : Nat) : Bool := 0xD800 ≤ n && n < 0xDC00

/-- Whether a unit is the second half of a surrogate pair. -/
def isTrailing (n : Nat) : Bool := 0xDC00 ≤ n && n < 0xE000

/-- The characters that pieces stand for, unless a half of a surrogate pair stands alone. -/
def join? : List Piece → Option (List Char)
  | [] => some []
  | .char c :: ps => (join? ps).map (c :: ·)
  | .unit n :: .unit m :: ps =>
    if isLeading n && isTrailing m then
      (join? ps).map (Char.ofNat (0x10000 + (n - 0xD800) * 0x400 + (m - 0xDC00)) :: ·)
    else if isLeading n || isTrailing n then none
    else (join? (.unit m :: ps)).map (Char.ofNat n :: ·)
  | .unit n :: ps =>
    if isLeading n || isTrailing n then none else (join? ps).map (Char.ofNat n :: ·)

/-- The text of a string after its opening quote, if it stands for one, and the text after its
closing quote. -/
def readString (cs : List Char) : Option (Option String × List Char) :=
  (readPieces cs).map fun (pieces, r) => ((join? pieces).map String.ofList, r)

/-! ## Words and numbers -/

/-- One digit or more, and the text after them. -/
def readDigits (cs : List Char) : Option (List Char × List Char) :=
  let digits := cs.takeWhile Char.isDigit
  if digits.isEmpty then none else some (digits, cs.dropWhile Char.isDigit)

/-- The whole part of a number: zero, or digits of which the first is not zero. -/
def readWhole : List Char → Option (List Char × List Char)
  | '0' :: r => some (['0'], r)
  | cs => readDigits cs

/-- The fraction of a number, which may be missing. -/
def readFraction : List Char → Option (List Char × List Char)
  | '.' :: r => (readDigits r).map fun (digits, r) => ('.' :: digits, r)
  | cs => some ([], cs)

/-- The exponent of a number, which may be missing. -/
def readExponent : List Char → Option (List Char × List Char)
  | e :: r =>
    if e == 'e' || e == 'E' then
      match r with
      | '+' :: r => (readDigits r).map fun (digits, r) => (e :: '+' :: digits, r)
      | '-' :: r => (readDigits r).map fun (digits, r) => (e :: '-' :: digits, r)
      | r => (readDigits r).map fun (digits, r) => (e :: digits, r)
    else some ([], e :: r)
  | [] => some ([], [])

/-- A number without sign. -/
def readMagnitude (cs : List Char) : Option (List Char × List Char) := do
  let (whole, r) ← readWhole cs
  let (fraction, r) ← readFraction r
  let (exponent, r) ← readExponent r
  return (whole ++ fraction ++ exponent, r)

/-- A word or a number. -/
def readWord : List Char → Option (Value × List Char)
  | 'n' :: 'u' :: 'l' :: 'l' :: r => some (.null, r)
  | 't' :: 'r' :: 'u' :: 'e' :: r => some (.bool true, r)
  | 'f' :: 'a' :: 'l' :: 's' :: 'e' :: r => some (.bool false, r)
  | '-' :: r => (readMagnitude r).map fun (n, r) => (.number (String.ofList ('-' :: n)), r)
  | cs => (readMagnitude cs).map fun (n, r) => (.number (String.ofList n), r)

/-! ## Values -/

/-- The key of a member, and the text after its colon. -/
def readKey (cs : List Char) : Option (Option String × List Char) :=
  match skipBlanks cs with
  | '"' :: r => do
    let (key, r) ← readString r
    match skipBlanks r with
    | ':' :: r => return (key, r)
    | _ => none
  | _ => none

mutual

/-- A value at a depth of at most `fuel`, and the text after it. -/
def readValue : (fuel : Nat) → List Char → Option (Value × List Char)
  | 0, _ => none
  | fuel + 1, cs =>
    match skipBlanks cs with
    | '"' :: r => (readString r).map fun (text, r) => (.string text, r)
    | '[' :: r =>
      match skipBlanks r with
      | ']' :: r => some (.list [], r)
      | r => do
        let (item, r) ← readValue fuel r
        let (items, r) ← readItems fuel r
        return (.list (item :: items), r)
    | '\x7b' :: r =>
      match skipBlanks r with
      | '\x7d' :: r => some (.map [], r)
      | r => do
        let (key, r) ← readKey r
        let (value, r) ← readValue fuel r
        let (members, r) ← readMembers fuel r
        return (.map ((key, value) :: members), r)
    | r => readWord r

/-- The items of a list after the first, up to the closing bracket. -/
def readItems : (fuel : Nat) → List Char → Option (List Value × List Char)
  | 0, _ => none
  | fuel + 1, cs =>
    match skipBlanks cs with
    | ']' :: r => some ([], r)
    | ',' :: r => do
      let (item, r) ← readValue fuel r
      let (items, r) ← readItems fuel r
      return (item :: items, r)
    | _ => none

/-- The members of an object after the first, up to the closing brace. -/
def readMembers : (fuel : Nat) → List Char → Option (List (Option String × Value) × List Char)
  | 0, _ => none
  | fuel + 1, cs =>
    match skipBlanks cs with
    | '\x7d' :: r => some ([], r)
    | ',' :: r => do
      let (key, r) ← readKey r
      let (value, r) ← readValue fuel r
      let (members, r) ← readMembers fuel r
      return ((key, value) :: members, r)
    | _ => none

end

/-- The value that a text consists of. -/
def Value.ofText? (text : String) : Option Value :=
  let cs := text.toList
  match readValue (cs.length + 1) cs with
  | some (v, r) => if (skipBlanks r).isEmpty then some v else none
  | none => none

end TableSchema.Document.Json
