/-!
# Numbers in base sixteen

The value of digits of base sixteen, in capital or small letters.
-/

namespace TableSchema.Text

/-- The value of a digit. -/
def hexadecimalDigit? (c : Char) : Option Nat :=
  if c.isDigit then some (c.toNat - '0'.toNat)
  else if 'a' ≤ c && c ≤ 'f' then some (c.toNat - 'a'.toNat + 10)
  else if 'A' ≤ c && c ≤ 'F' then some (c.toNat - 'A'.toNat + 10)
  else none

/-- The value of the digits that a text starts with, so many of them. -/
def hexadecimal? (width : Nat) (cs : List Char) : Option Nat :=
  let digits := cs.take width
  if digits.length = width then
    digits.foldlM (fun n c => (hexadecimalDigit? c).map (n * 16 + ·)) 0
  else none

end TableSchema.Text
