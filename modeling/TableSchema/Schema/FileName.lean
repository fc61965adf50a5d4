import TableSchema.Schema.Format

/-!
# File names

The file of a table is called by the table name and the format, so a name that would lead out of
the output directory, or to no file at all, is refused.
-/

namespace TableSchema.Schema

/-- Whether a table name can be used as a file name: it is not empty, is no name of a directory
that every directory has, and holds neither a separator nor a null. -/
def isFileName (name : String) : Bool :=
  name ≠ "" && name ≠ "." && name ≠ ".." &&
    name.toList.all fun c => c ≠ '/' && c ≠ '\\' && c ≠ '\x00'

/-- The file name for a table, if its name can be used. -/
def fileName? (name : String) (format : Format) : Option String :=
  if isFileName name then some (name ++ "." ++ format.text) else none

end TableSchema.Schema
