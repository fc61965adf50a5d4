/-!
# The meaning of plain scalars

A scalar without quotes may read as something other than a string: as nothing, as a truth value,
as an integer or as a decimal fraction. A string that looks like one of these has to be quoted.

* Integers have an optional sign and decimal digits, or a base mark (`0x`, `0o`, `0b`) and digits
  of that base. They have at most 128 bits, sign included when they are negative.
* Fractions are decimal numerals whose nearest double is finite, and the words for infinity and
  for the absence of a number, which start with a point.
* Digits after a leading zero are neither, but look too much like a number not to be quoted.
-/

namespace TableSchema.Document.Yaml

/-- The words for nothing. -/
def nullWords : List String := ["~", "null", "Null", "NULL"]

/-- The words for truth values. -/
def booleanWords : List String := ["true", "True", "TRUE", "false", "False", "FALSE"]

/-! ## Integers -/

/-- The value of a digit, of either case. -/
def digitValue (c : Char) : Nat :=
  if c.isDigit then c.toNat - '0'.toNat
  else if 'a' ≤ c && c ≤ 'z' then c.toNat - 'a'.toNat + 10
  else if 'A' ≤ c && c ≤ 'Z' then c.toNat - 'A'.toNat + 10
  else 36

/-- The value of a numeral in a base. -/
def numeral? (base : Nat) (cs : List Char) : Option Nat :=
  if cs.isEmpty || cs.any (fun c => base ≤ digitValue c) then none
  else some (cs.foldl (fun n c => n * base + digitValue c) 0)

/-- Whether a text is a numeral of at most a value, with a base mark or without. -/
def isMagnitude (bound : Nat) (cs : List Char) : Bool :=
  let value := match cs with
    | '0' :: 'x' :: ds => numeral? 16 ds
    | '0' :: 'o' :: ds => numeral? 8 ds
    | '0' :: 'b' :: ds => numeral? 2 ds
    | ds => numeral? 10 ds
  match value with
  | some n => n ≤ bound
  | none => false

/-- Whether a text reads as an integer. -/
def isInteger : List Char → Bool
  | '+' :: cs => isMagnitude (Nat.pow 2 128 - 1) cs
  | '-' :: cs => isMagnitude (Nat.pow 2 127) cs
  | cs => isMagnitude (Nat.pow 2 128 - 1) cs

/-! ## Fractions -/

/-- A decimal numeral without sign: its digits as a number, and the power of ten it is scaled by. -/
def decimal? (cs : List Char) : Option (Nat × Int) :=
  let whole := cs.takeWhile Char.isDigit
  let afterWhole := cs.dropWhile Char.isDigit
  let (fraction, tail) := match afterWhole with
    | '.' :: r => (r.takeWhile Char.isDigit, r.dropWhile Char.isDigit)
    | r => ([], r)
  let digits := whole ++ fraction
  let scaled (power : Int) : Option (Nat × Int) :=
    (numeral? 10 digits).map (·, power - fraction.length)
  match tail with
  | [] => scaled 0
  | e :: r =>
    if e == 'e' || e == 'E' then
      match r with
      | '-' :: ds => (numeral? 10 ds).bind fun n => scaled (-n)
      | '+' :: ds => (numeral? 10 ds).bind fun n => scaled n
      | ds => (numeral? 10 ds).bind fun n => scaled n
    else none

/-- Whether the double nearest to `digits * 10 ^ power` is finite, which it is below the point
half way between the greatest double and the power of two after it. -/
def isFinite (digits : Nat) (power : Int) : Bool :=
  let bound := Nat.pow 2 1024 - Nat.pow 2 970
  let size := (Nat.toDigits 10 digits).length + power
  if digits = 0 || size ≤ 308 then true
  else if size ≥ 310 then false
  else
    match power with
    | .ofNat p => digits * Nat.pow 10 p < bound
    | .negSucc p => digits < bound * Nat.pow 10 (p + 1)

/-- Whether a text without sign reads as a finite fraction. -/
def isFraction (cs : List Char) : Bool :=
  match decimal? cs with
  | some (digits, power) => isFinite digits power
  | none => false

/-- Whether a text reads as a fraction, or as infinity or the absence of a number. -/
def isFloat (cs : List Char) : Bool :=
  let infinite (cs : List Char) := [".inf", ".Inf", ".INF"].any (·.toList == cs)
  match cs with
  | '+' :: r => infinite r || isFraction r
  | '-' :: r => infinite r || isFraction r
  | r => infinite r || [".nan", ".NaN", ".NAN"].any (·.toList == r) || isFraction r

/-- Whether a text consists of digits after a leading zero, with or without a sign. -/
def hasLeadingZero (cs : List Char) : Bool :=
  let unsigned := match cs with
    | '+' :: r => r
    | '-' :: r => r
    | r => r
  match unsigned with
  | '0' :: d :: ds => (d :: ds).all Char.isDigit
  | _ => false

/-- Whether a plain scalar would be taken for something other than a string. -/
def looksSpecial (s : String) : Bool :=
  let cs := s.toList
  cs.isEmpty || nullWords.contains s || booleanWords.contains s || isInteger cs ||
    isFloat cs || hasLeadingZero cs

end TableSchema.Document.Yaml
