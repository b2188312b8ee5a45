import RecordMapper.Capability
import RecordMapper.Migration.Change
import RecordMapper.Migration.Index
/-!
The statements that bring a live table in line with a mapping. Renamed, added and dropped columns
are changed in place. Any other change, or one that the engine cannot make in place, rebuilds the
table through a shadow copy. Indexes come last.
-/

namespace RecordMapper

open Sql (Name)

structure SyncPlan where
  statements : List Statement
  rebuild : Bool
  changed : Option ColumnChange
  renames : List Rename
  /-- Added columns that the engine will refuse on a table with rows. -/
  rejected : List (String × AddLimitation)
  deriving Repr

namespace Mapping

variable (m : Mapping)

def addedColumns (renamed : LiveTable) : List Column :=
  m.columns.filter fun c => (renamed.column? c.name).isNone

def droppedColumns (renamed : LiveTable) : List LiveColumn :=
  renamed.columns.filter fun c => (m.columnByName? c.name).isNone

/-- The columns of the copy, each with the live column it is filled from. -/
def copyColumns (renamed : LiveTable) (renames : List Rename) : List (Name × Option Name) :=
  m.columns.map fun c =>
    (.simple c.name, (renamed.column? c.name).map fun live =>
      .simple ((Rename.previousName? renames live.name).getD live.name))

def rebuildStatements (capability : Capability) (renamed : LiveTable) (renames : List Rename) :
    List Statement :=
  let table := Name.simple m.table
  let shadow := Name.simple (m.table ++ capability.shadowSuffix)
  [.pragma "foreign_keys" (some "OFF"),
    .createTable shadow m.definitions false,
    .copyTable table shadow (m.copyColumns renamed renames),
    .dropTable table false,
    .renameTable shadow table,
    .pragma "foreign_keys" (some "ON")]

def inPlaceStatements (renamed : LiveTable) (renames : List Rename) : List Statement :=
  let table := Name.simple m.table
  renames.map (fun r => .renameColumn table (.simple r.source) (.simple r.target)) ++
    (m.addedColumns renamed).map (fun c => .addColumn table c.definition) ++
    (m.droppedColumns renamed).map fun c => .dropColumn table (.simple c.name)

/-- A column differs in its definition, or the engine cannot make a needed change in place. -/
def needsRebuild (capability : Capability) (renamed : LiveTable) (renames : List Rename) : Bool :=
  (m.firstChange? renamed renames).isSome ||
    (!renames.isEmpty && !capability.renameColumn) ||
    (!(m.droppedColumns renamed).isEmpty && !capability.dropColumn)

def columnStatements (capability : Capability) (live renamed : LiveTable)
    (renames : List Rename) : List Statement :=
  if m.needsRebuild capability renamed renames then
    m.rebuildStatements capability renamed renames
  else if live.columns.isEmpty then [.createTable (.simple m.table) m.definitions true]
  else m.inPlaceStatements renamed renames

def rejectedColumns (capability : Capability) (live renamed : LiveTable)
    (renames : List Rename) : List (String × AddLimitation) :=
  if m.needsRebuild capability renamed renames || live.columns.isEmpty then []
  else (m.addedColumns renamed).filterMap fun c => c.addLimitation?.map fun l => (c.name, l)

def syncPlan (catalog : Catalog) (capability : Capability) (live : LiveTable) :
    Except JoinFault SyncPlan := do
  let renames := Rename.detect m live
  let renamed := live.rename renames
  let rebuild := m.needsRebuild capability renamed renames
  let desired ← m.desiredIndexes catalog
  return {
    statements := m.columnStatements capability live renamed renames ++
      indexStatements m.table desired (live.survivors m.table rebuild)
    rebuild
    changed := m.firstChange? renamed renames
    renames
    rejected := m.rejectedColumns capability live renamed renames }

end Mapping

/-- The texts of the statements, in order. -/
def SyncPlan.script (plan : SyncPlan) (catalog : Catalog) (capability : Capability) :
    Except Error (List String) :=
  plan.statements.mapM fun s => (s.serialize catalog capability).map Statement.Serialized.text

end RecordMapper
