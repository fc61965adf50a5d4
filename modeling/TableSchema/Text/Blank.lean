/-!
# Blank characters

The characters with the Unicode property White_Space separate tokens, surround the field of a
template placeholder, and make up an empty settings file. Everything else is ink: in particular
U+200B, U+FEFF, U+180E and the separators U+001C to U+001F are not blank.
-/

namespace TableSchema.Text

/-- Whether a character has the Unicode property White_Space. -/
def isBlank (c : Char) : Bool :=
  let n := c.toNat
  (0x09 ≤ n && n ≤ 0x0D) || n == 0x20 || n == 0x85 || n == 0xA0 || n == 0x1680 ||
    (0x2000 ≤ n && n ≤ 0x200A) || n == 0x2028 || n == 0x2029 || n == 0x202F || n == 0x205F ||
    n == 0x3000

/-- A text without the blanks at its two ends. -/
def trim (cs : List Char) : List Char :=
  ((cs.dropWhile isBlank).reverse.dropWhile isBlank).reverse

/-- Whether a text has no ink at all. -/
def allBlank (text : String) : Bool := text.toList.all isBlank

end TableSchema.Text
