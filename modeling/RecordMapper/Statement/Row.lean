import RecordMapper.Record
import RecordMapper.RecordFault
import RecordMapper.Statement.Basic
/-!
Statements that write one record as a row of its table.
-/

namespace RecordMapper

open Sql (Name)

namespace Mapping

variable (m : Mapping) (r : Record)

def fieldValue (c : Column) : Except RecordFault Value :=
  match r.value? c.field with
  | some v => .ok v
  | none => .error (.hiddenField m.name c.field)

/-- The key column with the record's value for it. -/
def keyValue : Except RecordFault (Column × Value) := do
  let some key := m.primaryKey? | throw (.noKey m.name)
  return (key, ← m.fieldValue r key)

/-- Inserts all but the key that the store fills in. -/
def insertStatement : Except RecordFault Statement := do
  let columns := m.columns.filter (!·.isAutoIncrement)
  let values ← columns.mapM (m.fieldValue r)
  return .insert (.simple m.table) (columns.map fun c => .simple c.name) values

/-- Assigns all fields but the key and those that are null. -/
def updateStatement : Except RecordFault Statement := do
  let (key, keyValue) ← m.keyValue r
  let columns := m.columns.filter (!·.primaryKey)
  let values ← columns.mapM (m.fieldValue r)
  let assignments := (columns.zip values).filter (!·.2.isNull)
  if assignments.isEmpty then throw (.nothingToUpdate m.name)
  return .update (.simple m.table) (assignments.map fun (c, v) => (.simple c.name, v))
    (.simple key.name, keyValue)

def deleteStatement : Except RecordFault Statement := do
  let (key, keyValue) ← m.keyValue r
  return .delete (.simple m.table) (.simple key.name, keyValue)

end Mapping

end RecordMapper
