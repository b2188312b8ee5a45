import RecordMapper.Text.AsciiCase
/-!
What the engine reports of a table: its columns, and every index of the database.
-/

namespace RecordMapper

structure LiveColumn where
  name : String
  /-- The type text as the table was declared with it. -/
  declaredType : String
  notNull : Bool := false
  /-- The place in the key, from one, or zero for a column outside it. -/
  keyPosition : Nat := 0
  deriving DecidableEq, Repr

def LiveColumn.isKey (c : LiveColumn) : Bool := 0 < c.keyPosition

structure LiveIndex where
  name : String
  table : String
  /-- The defining text. Indexes that the engine made have none. -/
  sql : Option String := none
  deriving DecidableEq, Repr

namespace LiveIndex

def isUnique (i : LiveIndex) : Bool :=
  match i.sql with
  | some sql => Text.occursIn "CREATE UNIQUE INDEX".toList (Text.upper sql).toList
  | none => false

/-- Made by the engine for a key or a unique column. -/
def isEngineMade (i : LiveIndex) : Bool := Text.beginsWith "sqlite_autoindex" i.name

def belongsTo (i : LiveIndex) (table : String) : Bool := Text.sameName i.table table

end LiveIndex

structure LiveTable where
  columns : List LiveColumn := []
  indexes : List LiveIndex := []
  deriving DecidableEq, Repr

def LiveTable.column? (t : LiveTable) (name : String) : Option LiveColumn :=
  t.columns.find? fun c => Text.sameName c.name name

end RecordMapper
