import TableSchema.Catalog.Table
import TableSchema.OrderedMap

/-!
# Type tables

What the type names of a dialect mean. A look-up is exact: every spelling that a dialect knows has
an entry of its own, and a name without an entry has no meaning.
-/

namespace TableSchema.Catalog

/-- A type name without a meaning. -/
structure UnknownType where
  /-- the name that was looked up -/
  typeName : String
  deriving DecidableEq, Repr

/-- The error in words. -/
def UnknownType.message (e : UnknownType) : String := s!"Unknown data type: {e.typeName}"

/-- The meanings of the type names of a dialect. -/
structure TypeTable where
  /-- the name of the dialect -/
  dialect : String
  /-- the type names with their meanings -/
  entries : OrderedMap ColumnType
  deriving DecidableEq, Repr

namespace TypeTable

/-- The table of a dialect that knows no type name. -/
def empty (dialect : String) : TypeTable := ⟨dialect, .empty⟩

/-- The meaning of a type name, if it has one. -/
def get? (types : TypeTable) (typeName : String) : Option ColumnType :=
  types.entries.get? typeName

/-- The meaning of a type name. -/
def resolve (types : TypeTable) (typeName : String) : Except UnknownType ColumnType :=
  match types.get? typeName with
  | some type => .ok type
  | none => .error ⟨typeName⟩

/-- The table with one meaning added or replaced. -/
def insert (types : TypeTable) (typeName : String) (type : ColumnType) : TypeTable :=
  { types with entries := types.entries.insert typeName type }

/-- The table with meanings added or replaced, one after the other. -/
def extend (types : TypeTable) (entries : List (String × ColumnType)) : TypeTable :=
  { types with entries := types.entries.insertAll entries }

/-- The table with one meaning for several spellings. -/
def insertEach (types : TypeTable) (typeNames : List String) (type : ColumnType) : TypeTable :=
  types.extend (typeNames.map (·, type))

/-- The number of type names with a meaning. -/
def size (types : TypeTable) : Nat := types.entries.size

/-- Whether two tables are of one dialect and agree on every type name. -/
def same (types other : TypeTable) : Bool :=
  types.dialect == other.dialect && types.entries.sameEntries other.entries

/-! ## Built-in tables -/

/-- Moments, days and times of day are strings in a format of their own. -/
def formatted (format : String) : ColumnType := ⟨.string, some format⟩

/-- The type names of SQLite, in capitals and in small letters. -/
def sqlite : TypeTable :=
  (empty "sqlite3")
    |>.insertEach
      ["int", "INT", "integer", "INTEGER", "bigint", "BIGINT", "smallint", "SMALLINT",
        "tinyint", "TINYINT", "real", "REAL", "float", "FLOAT", "double", "DOUBLE",
        "numeric", "NUMERIC", "decimal", "DECIMAL"] ⟨.number, none⟩
    |>.insertEach ["varchar", "VARCHAR", "char", "CHAR", "text", "TEXT", "clob", "CLOB"]
      ⟨.string, none⟩
    |>.insertEach ["boolean", "BOOLEAN", "bool", "BOOL"] ⟨.boolean, none⟩
    |>.insertEach ["datetime", "DATETIME", "timestamp", "TIMESTAMP"] (formatted "date-time")
    |>.insertEach ["date", "DATE"] (formatted "date")
    |>.insertEach ["time", "TIME"] (formatted "time")

/-- The type names of MySQL, with their sizes, as its `DESCRIBE` reports them. -/
def mysql : TypeTable :=
  (empty "mysql")
    |>.insertEach
      ["int", "int unsigned", "bigint", "bigint unsigned", "smallint", "double", "float",
        "decimal(10,2)"] ⟨.number, none⟩
    |>.insertEach ["varchar(255)", "text", "longtext", "mediumtext"] ⟨.string, none⟩
    |>.insertEach ["tinyint(1)"] ⟨.boolean, none⟩
    |>.insertEach ["datetime", "datetime(3)", "timestamp"] (formatted "date-time")
    |>.insertEach ["date"] (formatted "date")

end TypeTable

end TableSchema.Catalog
