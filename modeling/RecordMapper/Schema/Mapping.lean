import RecordMapper.Schema.Storage
import RecordMapper.Text.AsciiCase
/-!
The mapping of a record type: its table, its columns and the joins that read other records along
with it.
-/

namespace RecordMapper

/-- A declared index over one column, which is not unique. -/
structure IndexDecl where
  name : Option String := none
  deriving DecidableEq, Repr

/-- The name given, or one made of the names of table and column. -/
def IndexDecl.nameFor (index : IndexDecl) (table column : String) : String :=
  index.name.getD ("idx_" ++ table ++ "_" ++ column)

/-- How a field of a record maps to a column of its table. -/
structure Column where
  field : String
  name : String := field
  storage : StorageClass
  nullable : Bool := false
  unique : Bool := false
  primaryKey : Bool := false
  index : Option IndexDecl := none
  deriving DecidableEq, Repr

namespace Column

def isRenamed (c : Column) : Bool := c.name != c.field

/-- An integer key, which the store fills in. -/
def isAutoIncrement (c : Column) : Bool := c.primaryKey && c.storage.isInteger

end Column

/-- A handle to another record type, resolved when it is needed. Handles are the same when their
names are. -/
structure RecordRef where
  name : String
  entry : Nat
  deriving Repr

def RecordRef.same (a b : RecordRef) : Bool := a.name == b.name

/-- A read-side edge to another record: the left field is this record's, the right field the
other's. -/
structure Join where
  leftField : String
  right : RecordRef
  rightField : String
  /-- Whether the right column is to be indexed. -/
  indexed : Bool := false
  deriving Repr

structure Mapping where
  name : String
  table : String
  columns : List Column
  joins : List Join
  deriving Repr

namespace Mapping

def primaryKey? (m : Mapping) : Option Column := m.columns.find? (·.primaryKey)

def columnByField? (m : Mapping) (field : String) : Option Column :=
  m.columns.find? (·.field == field)

/-- Column names are compared without regard to ASCII case. -/
def columnByName? (m : Mapping) (name : String) : Option Column :=
  m.columns.find? fun c => Text.sameName c.name name

end Mapping

end RecordMapper
