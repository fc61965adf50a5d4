import TableSchema.Source.Catalog
import TableSchema.Text.Utf8

/-!
# Database files

The catalog of a SQLite database, read from the bytes of its file. The file is a sequence of pages
of one size. The catalog is a table whose tree of pages is rooted in the first of them: an inner
page lists the pages below it, and a leaf lists rows, each a sequence of values whose lengths stand
in front. A row that is too long for its page goes on in a chain of overflow pages.

Numbers have their most significant byte first. Changes that the database keeps in a separate log
are not seen.
-/

namespace TableSchema.Source

namespace DatabaseFile

/-! ## Numbers -/

/-- The number in so many bytes at an offset. -/
def number? (bytes : ByteArray) (offset : Nat) : (width : Nat) → Option Nat
  | 0 => some 0
  | width + 1 => do
    let high ← number? bytes offset width
    return high * 256 + (← bytes[offset + width]?).toNat

/-- The number of variable length at an offset, and its length: seven bits a byte as long as the
eighth is set, and all bits of the ninth byte. -/
def varint? (bytes : ByteArray) (offset : Nat) : (left length value : Nat) → Option (Nat × Nat)
  | 0, length, value => do
    return (value * 256 + (← bytes[offset + length]?).toNat, length + 1)
  | left + 1, length, value => do
    let byte := (← bytes[offset + length]?).toNat
    if byte < 128 then return (value * 128 + byte, length + 1)
    else varint? bytes offset left (length + 1) (value * 128 + (byte - 128))

/-- The number of variable length at an offset, and the offset after it. -/
def count? (bytes : ByteArray) (offset : Nat) : Option (Nat × Nat) := do
  let (value, length) ← varint? bytes offset 8 0 0
  return (value, offset + length)

/-! ## Texts -/

/-- How texts are stored. -/
inductive Encoding where
  | utf8
  | utf16le
  | utf16be
  deriving DecidableEq, Repr

/-- The characters of a sequence of sixteen-bit units, where two units of the surrogate range may
make up one character. -/
def decodeUnits : List Nat → List Char
  | high :: low :: units =>
    if 0xD800 ≤ high && high < 0xDC00 && 0xDC00 ≤ low && low < 0xE000 then
      Char.ofNat (0x10000 + (high - 0xD800) * 0x400 + (low - 0xDC00)) :: decodeUnits units
    else unit high :: decodeUnits (low :: units)
  | [last] => [unit last]
  | [] => []
where
  /-- The character of a unit on its own. -/
  unit (n : Nat) : Char := if 0xD800 ≤ n && n < 0xE000 then Text.replacement else Char.ofNat n

/-- The units of a sequence of bytes. -/
def unitsOf (bigEndian : Bool) : List Nat → List Nat
  | a :: b :: bytes => (if bigEndian then a * 256 + b else b * 256 + a) :: unitsOf bigEndian bytes
  | _ => []

/-- The text of a sequence of bytes. -/
def decodeText (encoding : Encoding) (bytes : List Nat) : String :=
  match encoding with
  | .utf8 => Text.decode bytes
  | .utf16le => String.ofList (decodeUnits (unitsOf false bytes))
  | .utf16be => String.ofList (decodeUnits (unitsOf true bytes))

/-! ## Pages -/

/-- What the head of a database file says. -/
structure Layout where
  /-- the bytes of the file -/
  bytes : ByteArray
  /-- the length of a page -/
  pageSize : Nat
  /-- the length of a page without the bytes at its end that are reserved -/
  usable : Nat
  /-- how texts are stored -/
  encoding : Encoding

/-- The lengths that a page can have. -/
def pageSizes : List Nat := (List.range 8).map fun n => 512 * Nat.pow 2 n

/-- The number of pages in a sequence of bytes, of which the last may be incomplete. -/
def pagesIn (bytes : ByteArray) (pageSize : Nat) : Nat := (bytes.size + pageSize - 1) / pageSize

/-- The bytes with zeros where the last page is incomplete. -/
def fillPages (bytes : ByteArray) (pageSize : Nat) : ByteArray :=
  bytes ++ ⟨Array.replicate (pagesIn bytes pageSize * pageSize - bytes.size) 0⟩

/-- The head of a database file. It tells the number of pages, unless it was not brought up to date
by the last change; there must not be fewer. -/
def layout (bytes : ByteArray) : Except ContentFault Layout := do
  let byte (offset : Nat) : Nat := (number? bytes offset 1).getD 0
  let number (offset : Nat) : Nat := (number? bytes offset 4).getD 0
  let pageSize := byte 16 * 256 + byte 17 * 65536
  let usable := pageSize - byte 20
  if (bytes.extract 0 16).data ≠ "SQLite format 3\x00".toUTF8.data then throw .notADatabase
  if 2 < byte 19 || [byte 21, byte 22, byte 23] ≠ [64, 32, 32] then throw .notADatabase
  if pageSize ∉ pageSizes then throw .notADatabase
  if number 24 = number 92 && pagesIn bytes pageSize < number 28 then throw .malformed
  if usable < 480 then throw .notADatabase
  if 4 < byte 47 then throw .unknownFormat
  let encoding := match number 56 % 4 with
    | 2 => Encoding.utf16le
    | 3 => .utf16be
    | _ => .utf8
  return ⟨fillPages bytes pageSize, pageSize, usable, encoding⟩

namespace Layout

/-- Where a page starts. Pages are counted from one. -/
def pageStart (l : Layout) (page : Nat) : Nat := (page - 1) * l.pageSize

/-- The number of pages. -/
def pageCount (l : Layout) : Nat := l.bytes.size / l.pageSize

/-- Some bytes of the file. -/
def slice (l : Layout) (offset length : Nat) : List Nat :=
  (l.bytes.extract offset (offset + length)).toList.map UInt8.toNat

/-- The bytes in a chain of overflow pages, at most so many. -/
def overflow? (l : Layout) : (fuel page length : Nat) → Option (List Nat)
  | 0, _, _ => none
  | fuel + 1, page, length => do
    if length = 0 then return []
    let start := l.pageStart page
    let here := min length (l.usable - 4)
    let rest ← l.overflow? fuel (← number? l.bytes start 4) (length - here)
    return l.slice (start + 4) here ++ rest

/-- How many bytes of a row stand on its own page. -/
def localLength (l : Layout) (length : Nat) : Nat :=
  let most := l.usable - 35
  let least := (l.usable - 12) * 32 / 255 - 23
  if length ≤ most then length
  else
    let even := least + (length - least) % (l.usable - 4)
    if even ≤ most then even else least

/-- The bytes of the row whose cell is at an offset. -/
def row? (l : Layout) (cell : Nat) : Option (List Nat) := do
  let (length, next) ← count? l.bytes cell
  let (_, start) ← count? l.bytes next
  let near := l.localLength length
  let far ← if near = length then some [] else do
    l.overflow? (l.pageCount + 1) (← number? l.bytes (start + near) 4) (length - near)
  return l.slice start near ++ far

/-- The rows below a page, in order. -/
def rows? (l : Layout) : (fuel page : Nat) → Option (List (List Nat))
  | 0, _ => none
  | fuel + 1, page => do
    let start := l.pageStart page
    let head := if page = 1 then 100 else start
    let cells ← number? l.bytes (head + 3) 2
    let cell (width index : Nat) : Option Nat := do
      return start + (← number? l.bytes (head + width + 2 * index) 2) % l.pageSize
    match ← number? l.bytes head 1 with
    | 13 => (List.range cells).mapM fun i => do l.row? (← cell 8 i)
    | 5 =>
      let below ← (List.range cells).mapM fun i => do
        l.rows? fuel (← number? l.bytes (← cell 12 i) 4)
      return below.flatten ++ (← l.rows? fuel (← number? l.bytes (head + 8) 4))
    | _ => none

end Layout

/-! ## Rows -/

/-- The length of a value of a type. -/
def valueLength (type : Nat) : Nat :=
  if type < 12 then [0, 1, 2, 3, 4, 6, 8, 8, 0, 0, 0, 0].getD type 0 else (type - 12) / 2

/-- The types of the values of a row, from an offset to the end of its head. -/
def types? (row : ByteArray) (finish : Nat) : (fuel offset : Nat) → Option (List Nat)
  | 0, _ => none
  | fuel + 1, offset => do
    if finish ≤ offset then return []
    let (type, next) ← count? row offset
    return type :: (← types? row finish fuel next)

/-- The texts among the values of some types, where any other value reads as the empty text. -/
def texts (encoding : Encoding) (values : List Nat) : List Nat → List String
  | [] => []
  | type :: types =>
    let length := valueLength type
    let text := if 13 ≤ type && type % 2 = 1 then decodeText encoding (values.take length) else ""
    text :: texts encoding (values.drop length) types

/-- A row of the catalog. Its five values are the type, the name, the name of the table it belongs
to, its page, and the definition. -/
def catalogRow? (encoding : Encoding) (row : List Nat) : Option CatalogRow := do
  let bytes := ByteArray.mk (row.map UInt8.ofNat).toArray
  let (finish, start) ← count? bytes 0
  let types ← types? bytes finish (row.length + 1) start
  match texts encoding (row.drop finish) types with
  | [type, name, _, _, sql] => return ⟨type, name, sql⟩
  | _ => none

/-- The catalog of a database. A file of at most one byte is a database that holds nothing. -/
def catalog (bytes : ByteArray) : Except ContentFault (List CatalogRow) := do
  if bytes.size ≤ 1 then return []
  let l ← layout bytes
  let rows := (l.rows? (l.pageCount + 1) 1).bind (·.mapM (catalogRow? l.encoding))
  match rows with
  | some rows => return rows
  | none => throw .malformed

end DatabaseFile

end TableSchema.Source
