import TableSchema.Source.DatabaseFile
import TableSchema.Text.Split
import TableSchema.Text.Utf8

/-!
# File trees

Directories and files, each at the list of names that leads to it from the root. Following a path
goes name by name and only through directories; a name may not be longer than 255 bytes, and a path
not longer than 4095. A file holds text, or a database, of which only its catalog counts, or bytes
that are no text, such as a text that breaks off inside a character.
-/

namespace TableSchema.Host

open Source

/-- Why something cannot be done with a file or directory. -/
inductive FileFault where
  | notFound
  | occupied
  | notDirectory
  | isDirectory
  | nameTooLong
  /-- any other reason, in words -/
  | other (reason : String)
  deriving DecidableEq, Repr

/-- The fault in words. -/
def FileFault.message : FileFault → String
  | notFound => "No such file or directory (os error 2)"
  | occupied => "File exists (os error 17)"
  | notDirectory => "Not a directory (os error 20)"
  | isDirectory => "Is a directory (os error 21)"
  | nameTooLong => "File name too long (os error 36)"
  | other reason => reason

/-- The names that lead to something from the root. -/
abbrev Location := List String

/-- What stands at a location. -/
inductive Entry where
  | directory
  | text (content : String)
  /-- a file whose bytes are no text -/
  | bytes (content : List UInt8)
  | database (catalog : List CatalogRow)
  deriving DecidableEq, Repr

/-- A file with the first bytes of a text, so many of them. -/
def Entry.start (text : String) (count : Nat) : Entry :=
  let bytes := text.toUTF8.extract 0 count
  match String.fromUTF8? bytes with
  | some content => .text content
  | none => .bytes bytes.data.toList

/-- What is left of a text may end inside a character. -/
example : Entry.start "aé" 1 = .text "a" ∧ Entry.start "aé" 2 = .bytes [0x61, 0xC3] := by
  decide +kernel

/-- Directories and files by location. -/
structure FileTree where
  /-- what stands where, but for the root -/
  entries : List (Location × Entry)
  deriving Repr

namespace FileTree

/-- The tree that consists of its root. -/
def empty : FileTree := ⟨[]⟩

/-- What stands at a location. The root is a directory. -/
def at? (t : FileTree) (l : Location) : Option Entry :=
  if l = [] then some .directory else t.entries.lookup l

/-- The tree with something new at a location. -/
def set (t : FileTree) (l : Location) (e : Entry) : FileTree :=
  ⟨(l, e) :: t.entries.filter fun x => x.1 ≠ l⟩

@[simp] theorem at?_set_self (t : FileTree) {l : Location} (e : Entry) (h : l ≠ []) :
    (t.set l e).at? l = some e := by
  simp [at?, set, h]

theorem at?_set_of_ne (t : FileTree) {l l' : Location} (e : Entry) (h : l' ≠ l) :
    (t.set l e).at? l' = t.at? l' := by
  have hb : (l' == l) = false := by simpa using h
  simp only [at?, set, List.lookup_cons, hb]
  congr 1
  induction t.entries with
  | nil => rfl
  | cons x xs ih =>
    obtain ⟨k, v⟩ := x
    by_cases hk : k = l
    · subst hk
      simpa [List.lookup_cons, hb] using ih
    · by_cases hl : l' = k
      · simp [hl, hk]
      · have hb' : (l' == k) = false := by simpa using hl
        simpa [List.lookup_cons, hk, hb'] using ih

/-! ## Paths -/

/-- The names in a path. -/
def names (path : String) : List String := Text.splitString '/' path

/-- Whether a name stands for the directory that it is looked up in. -/
def isHere (name : String) : Bool := name == "" || name == "."

/-- Whether a name is too long. -/
def isTooLong (name : String) : Bool := 255 < Text.byteLength name.toList

/-- Why a path leads nowhere whatever there is, if it does. -/
def pathFault? (path : String) : Option FileFault :=
  if '\x00' ∈ path.toList then some (.other "file name contained an unexpected NUL byte")
  else if 4095 < Text.byteLength path.toList then some .nameTooLong
  else none

/-- Where names lead from a location, and what stands there. Only the last of them may lead to
nothing. -/
def follow (t : FileTree) (l : Location) : List String → Except FileFault (Location × Option Entry)
  | [] => .ok (l, t.at? l)
  | name :: rest =>
    match t.at? l with
    | some .directory =>
      if isHere name then t.follow l rest
      else if name = ".." then t.follow l.dropLast rest
      else if isTooLong name then .error .nameTooLong
      else t.follow (l ++ [name]) rest
    | some _ => .error .notDirectory
    | none => .error .notFound

/-- Where a path leads from a directory: an absolute path starts at the root, and the empty path
leads nowhere. -/
def locate (t : FileTree) (directory : Location) (path : String) :
    Except FileFault (Location × Option Entry) :=
  if path = "" then .error .notFound
  else
    match pathFault? path with
    | some fault => .error fault
    | none => t.follow (if path.toList.head? = some '/' then [] else directory) (names path)

/-! ## Reading -/

/-- The text of a file. -/
def readText (t : FileTree) (directory : Location) (path : String) : Except FileFault String := do
  match ← t.locate directory path with
  | (_, some (.text content)) => return content
  | (_, some .directory) => throw .isDirectory
  | (_, some (.bytes _)) | (_, some (.database _)) =>
    throw (.other "stream did not contain valid UTF-8")
  | (_, none) => throw .notFound

/-- Whether a path leads to something, and if not, why. -/
def probe (t : FileTree) (directory : Location) (path : String) : Except FileFault Unit := do
  match ← t.locate directory path with
  | (_, some _) => return ()
  | (_, none) => throw .notFound

/-- Whether a path leads to a file. -/
def isFile (t : FileTree) (directory : Location) (path : String) : Bool :=
  match t.locate directory path with
  | .ok (_, some (.text _)) | .ok (_, some (.bytes _)) | .ok (_, some (.database _)) => true
  | _ => false

/-- The catalog of a database file. The bytes of any file may make up a database. -/
def readCatalog (t : FileTree) (directory : Location) (path : String) :
    Except FileFault (Except ContentFault (List CatalogRow)) := do
  match ← t.locate directory path with
  | (_, some (.text content)) => return DatabaseFile.catalog content.toUTF8
  | (_, some (.bytes content)) => return DatabaseFile.catalog content.toByteArray
  | (_, some (.database catalog)) => return .ok catalog
  | (_, some .directory) => throw .isDirectory
  | (_, none) => throw .notFound

/-! ## Writing -/

/-- The tree with something else in a file, whose directory has to be there. -/
def overwrite (t : FileTree) (directory : Location) (path : String) (e : Entry) :
    Except FileFault FileTree := do
  match ← t.locate directory path with
  | (_, some .directory) => throw .isDirectory
  | (l, _) => return t.set l e

/-- Whether names lead from a location to a directory. -/
def isDirectory (t : FileTree) (l : Location) (names : List String) : Bool :=
  match t.follow l names with
  | .ok (_, some .directory) => true
  | _ => false

/-- The tree with a directory where names lead from a location. There may be nothing yet, and the
names before the last, behind which slashes may stand, have to lead to a directory. -/
def makeDirectory (t : FileTree) (l : Location) (names : List String) :
    Except FileFault FileTree := do
  match names.reverse.dropWhile (· == "") with
  | [] => throw .occupied
  | last :: before =>
    match ← t.follow l before.reverse with
    | (l', some .directory) =>
      if last = "." || last = ".." then throw .occupied
      else if isTooLong last then throw .nameTooLong
      else if (t.at? (l' ++ [last])).isSome then throw .occupied
      else return t.set (l' ++ [last]) .directory
    | (_, some _) => throw .notDirectory
    | (_, none) => throw .notFound

/-- The tree with a directory where names lead from a location, and with those on the way; of the
names the last stands first, and after all of them come some that stay where they are. Only if
something is missing on the way the directory before is seen to. What was made before a fault
stays. -/
def makeDirectories (t : FileTree) (l : Location) (staying : List String) :
    List String → FileTree × Except FileFault Unit
  | [] => (t, .ok ())
  | name :: rest =>
    let names := (name :: rest).reverse ++ staying
    let settle (t : FileTree) (fault : FileFault) : FileTree × Except FileFault Unit :=
      (t, if t.isDirectory l names then .ok () else .error fault)
    match t.makeDirectory l names with
    | .ok t => (t, .ok ())
    | .error .notFound =>
      match t.makeDirectories l [] rest with
      | (t, .error fault) => (t, .error fault)
      | (t, .ok ()) =>
        match t.makeDirectory l names with
        | .ok t => (t, .ok ())
        | .error fault => settle t fault
    | .error fault => settle t fault

/-- The tree with a directory at a path and all directories on the way. -/
def createDirectories (t : FileTree) (directory : Location) (path : String) :
    FileTree × Except FileFault Unit :=
  match pathFault? path with
  | some fault => (t, .error fault)
  | none =>
    let reversed := (names path).reverse
    t.makeDirectories (if path.toList.head? = some '/' then [] else directory)
      (reversed.takeWhile isHere).reverse (reversed.filter (!isHere ·))

/-- The tree with the first directories on the way to that at a path, so many of them. -/
def createFirst (t : FileTree) (directory : Location) (path : String) (count : Nat) :
    FileTree × Except FileFault Unit :=
  match pathFault? path with
  | some fault => (t, .error fault)
  | none =>
    let above := ((names path).filter (!isHere ·)).dropLast
    t.makeDirectories (if path.toList.head? = some '/' then [] else directory) []
      (above.take count).reverse

end FileTree

/-- A path inside a directory. -/
def joinPath (directory name : String) : String :=
  if directory = "" || directory.toList.getLast? = some '/' then directory ++ name
  else directory ++ "/" ++ name

end TableSchema.Host
