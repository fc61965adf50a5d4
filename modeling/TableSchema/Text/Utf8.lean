/-!
# UTF-8

The bytes of a text, their number, and the text that a sequence of bytes stands for. Reading never
fails: the longest run of bytes that could have begun a character, but did not complete one, reads
as one replacement character, and so does a byte that can begin none. Where no replacement is
wanted, bytes read as the text whose bytes they are, if there is one.
-/

namespace TableSchema.Text

/-- The number of bytes that a text takes in UTF-8. -/
def byteLength : List Char → Nat
  | [] => 0
  | c :: cs => c.utf8Size + byteLength cs

@[simp] theorem byteLength_nil : byteLength [] = 0 := rfl

@[simp] theorem byteLength_cons (c : Char) (cs : List Char) :
    byteLength (c :: cs) = c.utf8Size + byteLength cs := rfl

@[simp] theorem byteLength_append (as bs : List Char) :
    byteLength (as ++ bs) = byteLength as + byteLength bs := by
  induction as with
  | nil => simp
  | cons a as ih => rw [List.cons_append, byteLength_cons, byteLength_cons, ih, Nat.add_assoc]

/-- The bytes of a text. -/
def encode (cs : List Char) : List Nat :=
  cs.flatMap fun c => (String.utf8EncodeChar c).map UInt8.toNat

/-! ## Reading bytes -/

/-- What stands for bytes that are no character. -/
def replacement : Char := '\uFFFD'

/-- What a leading byte promises: the bits it carries, and for each byte still to come the least
and the greatest value allowed there. The first of them is restricted further, so that no
character has a second, longer spelling and no surrogate or value above U+10FFFF is spelled. -/
def promise (b : Nat) : Option (Nat × List (Nat × Nat)) :=
  let tail := (0x80, 0xBF)
  if b ≤ 0x7F then some (b, [])
  else if 0xC2 ≤ b && b ≤ 0xDF then some (b % 0x20, [tail])
  else if b == 0xE0 then some (b % 0x10, [(0xA0, 0xBF), tail])
  else if b == 0xED then some (b % 0x10, [(0x80, 0x9F), tail])
  else if 0xE1 ≤ b && b ≤ 0xEF then some (b % 0x10, [tail, tail])
  else if b == 0xF0 then some (b % 0x08, [(0x90, 0xBF), tail, tail])
  else if 0xF1 ≤ b && b ≤ 0xF3 then some (b % 0x08, [tail, tail, tail])
  else if b == 0xF4 then some (b % 0x08, [(0x80, 0x8F), tail, tail])
  else none

/-- Reads bytes as text. `owed` holds the ranges of the bytes that the character under way still
needs, and `bits` its value so far; `owed` is empty between characters. -/
def decodeFrom (owed : List (Nat × Nat)) (bits : Nat) : List Nat → List Char
  | [] => if owed.isEmpty then [] else [replacement]
  | b :: bs =>
    let begin (_ : Unit) :=
      match promise b with
      | none => replacement :: decodeFrom [] 0 bs
      | some (value, []) => Char.ofNat value :: decodeFrom [] 0 bs
      | some (value, ranges) => decodeFrom ranges value bs
    match owed with
    | [] => begin ()
    | (low, high) :: later =>
      if low ≤ b && b ≤ high then
        let value := bits * 0x40 + b % 0x40
        if later.isEmpty then Char.ofNat value :: decodeFrom [] 0 bs
        else decodeFrom later value bs
      else replacement :: begin ()

/-- The text that bytes stand for, with U+FFFD in the place of what is no character. -/
def decode (bytes : List Nat) : String := String.ofList (decodeFrom [] 0 bytes)

/-- The text whose bytes these are, if there is one. -/
def decode? (bytes : List Nat) : Option String :=
  let text := decode bytes
  if encode text.toList = bytes then some text else none

example : decode [0xFF, 0x41, 0xC3, 0xA9] = "\uFFFDAé" := by decide +kernel
example : decode [0xE6, 0x97, 0x41, 0xC3] = "\uFFFDA\uFFFD" := by decide +kernel
example : decode? [0xC0, 0x80] = none := by decide +kernel

end TableSchema.Text
