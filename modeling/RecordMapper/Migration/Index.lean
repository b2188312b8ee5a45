import RecordMapper.Migration.Live
import RecordMapper.Schema.JoinTarget
import RecordMapper.Statement.Basic
/-!
Index work: the indexes that a mapping wants, and the statements that bring the live ones in line.
-/

namespace RecordMapper

open Sql (Name)

structure DesiredIndex where
  name : String
  table : String
  column : String
  deriving DecidableEq, Repr

namespace DesiredIndex

/-- Adds an index unless one of its name is there. -/
def insert (desired : List DesiredIndex) (index : DesiredIndex) : List DesiredIndex :=
  if desired.any fun d => Text.sameName d.name index.name then desired else desired ++ [index]

def ofColumn? (m : Mapping) (c : Column) : Option DesiredIndex :=
  c.index.map fun index => ⟨index.nameFor m.table c.name, m.table, c.name⟩

/-- The index that a join wants on the other record's table. -/
def ofJoin (catalog : Catalog) (j : Join) : Except JoinFault DesiredIndex := do
  let (right, column) ← catalog.joinTarget j
  return ⟨"idx_" ++ right.table ++ "_" ++ column.name, right.table, column.name⟩

end DesiredIndex

/-- The wanted indexes: those of columns, then those of joins; of one name the first. -/
def Mapping.desiredIndexes (catalog : Catalog) (m : Mapping) :
    Except JoinFault (List DesiredIndex) := do
  let joined ← (m.joins.filter (·.indexed)).mapM (DesiredIndex.ofJoin catalog)
  return (m.columns.filterMap (DesiredIndex.ofColumn? m) ++ joined).foldl DesiredIndex.insert []

/-- The live indexes that outlast the column work. A rebuilt table loses its own. -/
def LiveTable.survivors (live : LiveTable) (table : String) (rebuilt : Bool) : List LiveIndex :=
  live.indexes.filter fun index => !(rebuilt && index.belongsTo table)

/-- Creates what is missing, then drops the table's indexes that nobody wants. -/
def indexStatements (table : String) (desired : List DesiredIndex) (survivors : List LiveIndex) :
    List Statement :=
  let missing := desired.filter fun d => !survivors.any fun i => Text.sameName i.name d.name
  let stale := survivors.filter fun i =>
    i.belongsTo table && !i.isUnique && !i.isEngineMade &&
      !desired.any fun d => Text.sameName d.name i.name
  (missing.map fun d =>
      .createIndex (.simple d.name) (.simple d.table) [.simple d.column] false true) ++
    stale.map fun i => .dropIndex (.simple i.name) true

end RecordMapper
