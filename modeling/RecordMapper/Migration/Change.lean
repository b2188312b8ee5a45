import RecordMapper.Migration.Rename
import RecordMapper.Migration.Uniqueness
/-!
How a declared column differs from its live counterpart.
-/

namespace RecordMapper

inductive ColumnChange
  | type | primaryKey | nullability | uniqueness
  deriving DecidableEq, Repr

def ColumnChange.name : ColumnChange → String
  | type => "type"
  | primaryKey => "primary key"
  | nullability => "nullability"
  | uniqueness => "uniqueness"

/-- Why a column cannot be added to a table that has rows. -/
inductive AddLimitation
  | primaryKey | unique | notNull
  deriving DecidableEq, Repr

def AddLimitation.reason : AddLimitation → String
  | primaryKey => "primary key"
  | unique => "unique"
  | notNull => "not null without a default"

namespace Column

def addLimitation? (c : Column) : Option AddLimitation :=
  if c.primaryKey then some .primaryKey
  else if c.unique then some .unique
  else if !c.nullable then some .notNull
  else none

/-- The declared type texts agree. The type of an integer key may be reported with modifiers. -/
def typeMatches (c : Column) (live : LiveColumn) : Bool :=
  let declared := Text.trim live.declaredType
  Text.sameName declared c.storage.sqlType ||
    (c.isAutoIncrement && Text.beginsWith "INTEGER" (Text.upper declared))

/-- The first difference to the live column. Of a key only type and place count. -/
def change? (c : Column) (m : Mapping) (live : LiveColumn) (previous : Option String)
    (table : LiveTable) : Option ColumnChange :=
  if !c.typeMatches live then some .type
  else if c.primaryKey != live.isKey then some .primaryKey
  else if c.primaryKey then none
  else if c.nullable == live.notNull then some .nullability
  else if c.unique != table.isUnique m c previous then some .uniqueness
  else none

end Column

/-- The first change of a declared column. The table has its columns under their new names. -/
def Mapping.firstChange? (m : Mapping) (renamed : LiveTable) (renames : List Rename) :
    Option ColumnChange :=
  m.columns.findSome? fun c =>
    (renamed.column? c.name).bind fun live =>
      c.change? m live (Rename.previousName? renames c.name) renamed

end RecordMapper
