/-!
# Table definitions as written

What a `CREATE TABLE` statement says, clause by clause and in source order. Names are without
their quotes and numbers keep their spelling; nothing is resolved or checked against anything else.
-/

namespace TableSchema.Ddl

/-- The value of a `DEFAULT` modifier. -/
inductive DefaultValue where
  /-- a bare word or a quoted name -/
  | identifier (name : String)
  | number (text : String)
  | string (text : String)
  | null
  deriving DecidableEq, Repr

/-- What may follow the type of a column. -/
inductive Modifier where
  | notNull
  | default (value : DefaultValue)
  | autoIncrement
  deriving DecidableEq, Repr

/-- A type name of the dialect with its size, or precision and scale. -/
structure TypeSpec where
  /-- the type name -/
  name : String
  /-- at most two numbers -/
  arguments : List String
  deriving DecidableEq, Repr

/-- The declaration of a column. -/
structure Column where
  /-- the column name -/
  name : String
  /-- its declared type -/
  type : TypeSpec
  /-- its modifiers, in any order and with repetitions -/
  modifiers : List Modifier
  deriving DecidableEq, Repr

/-- The table and columns that a foreign key points to. -/
structure TableReference where
  /-- the table name -/
  table : String
  /-- its columns -/
  columns : List String
  deriving DecidableEq, Repr

/-- A foreign key without a name. -/
structure ForeignKey where
  /-- the referring columns -/
  columns : List String
  /-- where they point to -/
  references : TableReference
  deriving DecidableEq, Repr

/-- What a named constraint declares. -/
inductive ConstraintKind where
  | primaryKey
  | foreignKey
  deriving DecidableEq, Repr

/-- A constraint with a name. -/
structure NamedConstraint where
  /-- the constraint name -/
  name : String
  /-- what it declares -/
  kind : ConstraintKind
  /-- its columns -/
  columns : List String
  /-- where they point to, which a constraint of either kind may say -/
  references : Option TableReference
  deriving DecidableEq, Repr

/-- A value that a check allows. -/
inductive CheckValue where
  | number (text : String)
  | string (text : String)
  deriving DecidableEq, Repr

/-- The requirement that a column holds one of some values. -/
structure Check where
  /-- the column name -/
  column : String
  /-- the values it may hold -/
  values : List CheckValue
  deriving DecidableEq, Repr

/-! ## Clauses -/

/-- An entry of the parenthesized list of a table definition. -/
inductive Clause where
  | column (declaration : Column)
  | primaryKey (columns : List String)
  | foreignKey (key : ForeignKey)
  | constraint (constraint : NamedConstraint)
  | check (check : Check)
  deriving DecidableEq, Repr

/-- The five groups of clauses. -/
inductive ClauseGroup where
  | columns
  | primaryKeys
  | foreignKeys
  | constraints
  | checks
  deriving DecidableEq, Repr

/-- The place of a group: a clause of a lower group never follows one of a higher group. -/
def ClauseGroup.rank : ClauseGroup → Nat
  | columns => 0
  | primaryKeys => 1
  | foreignKeys => 2
  | constraints => 3
  | checks => 4

/-- The group of a clause. -/
def Clause.group : Clause → ClauseGroup
  | column _ => .columns
  | primaryKey _ => .primaryKeys
  | foreignKey _ => .foreignKeys
  | constraint _ => .constraints
  | check _ => .checks

namespace Clause

/-- The column that a clause declares. -/
def column? : Clause → Option Column
  | column d => some d
  | _ => none

/-- The columns of the unnamed primary key that a clause declares. -/
def primaryKey? : Clause → Option (List String)
  | primaryKey names => some names
  | _ => none

/-- The unnamed foreign key that a clause declares. -/
def foreignKey? : Clause → Option ForeignKey
  | foreignKey k => some k
  | _ => none

/-- The named constraint that a clause declares. -/
def constraint? : Clause → Option NamedConstraint
  | constraint c => some c
  | _ => none

/-- The check that a clause declares. -/
def check? : Clause → Option Check
  | check c => some c
  | _ => none

end Clause

/-! ## Statements -/

/-- A `CREATE TABLE` statement. -/
structure Statement where
  /-- the table name -/
  table : String
  /-- whether an existing table is left alone -/
  ifNotExists : Bool
  /-- the column declarations -/
  columns : List Column
  /-- the columns of all unnamed primary key clauses together -/
  primaryKey : List String
  /-- the unnamed foreign keys -/
  foreignKeys : List ForeignKey
  /-- the named constraints -/
  constraints : List NamedConstraint
  /-- the checks -/
  checks : List Check
  deriving DecidableEq, Repr

/-- The statement that a list of clauses makes up. -/
def Statement.ofClauses (table : String) (ifNotExists : Bool) (clauses : List Clause) :
    Statement where
  table := table
  ifNotExists := ifNotExists
  columns := clauses.filterMap Clause.column?
  primaryKey := (clauses.filterMap Clause.primaryKey?).flatten
  foreignKeys := clauses.filterMap Clause.foreignKey?
  constraints := clauses.filterMap Clause.constraint?
  checks := clauses.filterMap Clause.check?

end TableSchema.Ddl
