import TableSchema.Text.Hexadecimal
import TableSchema.Text.Split
import TableSchema.Text.Utf8

/-!
# Data sources of database files

How the data source of a connection names a database file. It is a path, or the address of a file:
`file:`, a path, parameters after a question mark, and a fragment after a hash, which says nothing.

* A percent sign and two digits in an address stand for an octet; an octet of zero ends the part
  of the address that it is in.
* An address may say that the file is on this machine, but not that it is on another one.
* The parameter `mode` can ask for a temporary database, but not for more than reading a file.
* The parameters `cache` and `vfs` have to name something that there is.
* The parameter `modeof` names a file whose permissions a new database file would have. It is looked
  for even if nothing is made. All other parameters are passed over.

A temporary database is in no file and holds nothing. The empty path and `:memory:` stand for one.
The names in all other paths are settled one by one: `..` takes back the name before it, whether
there is a directory of that name or not.
-/

namespace TableSchema.Source

/-- Why no database file can be looked for at a data source. -/
inductive AddressFault where
  /-- the data source holds a character that no path can hold, after so many bytes -/
  | nul (position : Nat)
  /-- the file is on another machine -/
  | authority (name : String)
  /-- there is no such mode -/
  | unknownMode (name : String)
  /-- the mode allows more than is allowed already -/
  | refusedMode (name : String)
  /-- there is no such cache -/
  | unknownCache (name : String)
  /-- there is no such way to files -/
  | unknownFileSystem (name : String)
  deriving DecidableEq, Repr

namespace AddressFault

/-- The fault in words. -/
def message : AddressFault → String
  | nul position => s!"nul byte found in provided data at position: {position}"
  | authority name => s!"invalid uri authority: {name}"
  | unknownMode name => s!"no such access mode: {name}"
  | refusedMode name => s!"access mode not allowed: {name}"
  | unknownCache name => s!"no such cache mode: {name}"
  | unknownFileSystem name => s!"no such vfs: {name}"

/-- The fault as a result code with its meaning, where it has one. -/
def code : AddressFault → String
  | nul position => (nul position).message
  | refusedMode _ => "Error code 3: Access permission denied"
  | _ => "Error code 1: SQL logic error"

end AddressFault

/-! ## Addresses -/

/-- The part of a text before any of some marks. -/
def before (marks : List Char) (cs : List Char) : List Char := cs.takeWhile (!marks.contains ·)

/-- The octets that a part of an address stands for. -/
def octets : List Char → List Nat
  | '%' :: a :: b :: cs =>
    match Text.hexadecimal? 2 [a, b] with
    | some 0 => []
    | some octet => octet :: octets cs
    | none => '%'.toNat :: octets (a :: b :: cs)
  | c :: cs => Text.encode [c] ++ octets cs
  | [] => []

/-- The text that a part of an address stands for. -/
def unescape (part : List Char) : String := Text.decode (octets part)

/-- The parameters of an address, which stand between the question mark and the hash. One without
a name says nothing. -/
def parameters (address : List Char) : List (String × String) :=
  let text := (before ['#'] address).dropWhile (· ≠ '?') |>.drop 1
  ((Text.split '&' text).map fun piece =>
    (unescape (before ['='] piece), unescape (piece.dropWhile (· ≠ '=') |>.drop 1))).filter
      (·.1 ≠ "")

/-- The path of an address, after the machine that it may start with. -/
def addressPath (address : List Char) : Except AddressFault String :=
  let path := before ['?', '#'] address
  match address with
  | '/' :: '/' :: cs =>
    let machine := String.ofList (before ['/'] cs)
    if machine = "" || machine = "localhost" then
      .ok (unescape (path.drop (2 + machine.length)))
    else .error (.authority machine)
  | _ => .ok (unescape path)

/-! ## Parameters -/

/-- What may be done with a database. -/
inductive Access where
  | readOnly
  | readWrite
  | create
  /-- anything, with a temporary database -/
  | temporary
  deriving DecidableEq, Repr

namespace Access

/-- The modes, by the names that they have in addresses. -/
def modes : List (String × Access) :=
  [("ro", readOnly), ("rw", readWrite), ("rwc", create), ("memory", temporary)]

/-- How much may be done. -/
def rank : Access → Nat
  | readOnly => 0
  | readWrite => 1
  | create => 2
  | temporary => 3

/-- The access that a mode gives, where one is given already. -/
def request (current : Access) (mode : String) : Except AddressFault Access :=
  match modes.lookup mode with
  | none => .error (.unknownMode mode)
  | some wanted =>
    if wanted = temporary || wanted.rank ≤ current.rank then .ok wanted
    else .error (.refusedMode mode)

end Access

/-- The names of caches. -/
def caches : List String := ["shared", "private"]

/-- The names of the ways to files. The last of them leads to no file. -/
def fileSystems : List String := ["unix", "unix-none", "unix-dotfile", "unix-excl", "memdb"]

/-- The access after a parameter. -/
def applyParameter (access : Access) : String × String → Except AddressFault Access
  | ("mode", mode) => access.request mode
  | ("cache", cache) => if cache ∈ caches then .ok access else .error (.unknownCache cache)
  | _ => .ok access

/-- The access that parameters give. Of several ways to files the last one counts. -/
def accessOf (given : List (String × String)) : Except AddressFault Access := do
  let access ← given.foldlM applyParameter .readOnly
  match given.reverse.lookup "vfs" with
  | none => return access
  | some name =>
    if name ∉ fileSystems then throw (.unknownFileSystem name)
    return if name = "memdb" then .temporary else access

/-! ## Data sources -/

/-- The names of a path up to one more name, the last of them first. -/
def settleName (isAbsolute : Bool) (names : List String) (name : String) : List String :=
  if name = "" || name = "." then names
  else if name = ".." then
    match names with
    | [] => if isAbsolute then [] else [".."]
    | ".." :: _ => ".." :: names
    | _ :: rest => rest
  else name :: names

/-- The names of a path after each further name. -/
def settleNames (isAbsolute : Bool) (names : List String) : List String → List (List String)
  | [] => []
  | name :: rest =>
    let settled := settleName isAbsolute names name
    settled :: settleNames isAbsolute settled rest

/-- The path with some names, of which the last stands first. -/
def pathOfNames (isAbsolute : Bool) (names : List String) : String :=
  (if isAbsolute then "/" else "./") ++ "/".intercalate names.reverse

/-- A path as it is settled name by name: the path after each of its names. -/
def settlements (path : String) : List String :=
  let isAbsolute := path.toList.head? = some '/'
  (settleNames isAbsolute [] (Text.splitString '/' path)).map (pathOfNames isAbsolute)

example : settlements "a/.././b/" = ["./a", "./", "./", "./b", "./b"] := by decide +kernel

/-- Where a database file is looked for. -/
structure DatabasePath where
  /-- the path as it is settled name by name -/
  settlements : List String
  /-- the path of the file whose permissions a new file would have, if one is named -/
  model : Option String
  deriving DecidableEq, Repr

/-- The path with its names settled. -/
def DatabasePath.path (p : DatabasePath) : String := p.settlements.getLast?.getD ""

/-- The path of the database file, unless the data source is a temporary database. -/
def databasePath? (dataSource : String) : Except AddressFault (Option DatabasePath) := do
  let cs := dataSource.toList
  if '\x00' ∈ cs then throw (.nul (Text.byteLength (before ['\x00'] cs)))
  let (path, given) ←
    if cs.take 5 == "file:".toList then
      pure (← addressPath (cs.drop 5), parameters (cs.drop 5))
    else pure (dataSource, [])
  return if (← accessOf given) = .temporary || path = "" || path = ":memory:" then none
    else some ⟨settlements path, given.lookup "modeof"⟩

end TableSchema.Source
