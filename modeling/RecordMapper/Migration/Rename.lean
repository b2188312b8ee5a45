import RecordMapper.Migration.Live
import RecordMapper.Schema.Mapping
/-!
Renamed columns: a declared column whose own name is missing from the live table takes over the
live column that still has the name of its field.
-/

namespace RecordMapper

structure Rename where
  source : String
  target : String
  deriving DecidableEq, Repr

namespace Rename

def detect (m : Mapping) (live : LiveTable) : List Rename :=
  m.columns.filterMap fun c =>
    if c.isRenamed && (live.column? c.name).isNone then
      (live.column? c.field).map fun previous => ⟨previous.name, c.name⟩
    else none

/-- The name of a live column after the renames. -/
def newName (renames : List Rename) (name : String) : String :=
  match renames.find? fun r => Text.sameName r.source name with
  | some r => r.target
  | none => name

/-- The live name that a rename to `name` starts from. -/
def previousName? (renames : List Rename) (name : String) : Option String :=
  (renames.find? fun r => Text.sameName r.target name).map Rename.source

end Rename

/-- The table with its columns under their new names. -/
def LiveTable.rename (live : LiveTable) (renames : List Rename) : LiveTable :=
  { live with
    columns := live.columns.map fun c => { c with name := Rename.newName renames c.name } }

end RecordMapper
