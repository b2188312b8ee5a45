import RecordMapper.RecordFault
import RecordMapper.Schema.Mapping
import RecordMapper.Wire.Decode
/-!
Writing the row id of an insert back into the key of the record. A key that holds something is left
alone.
-/

namespace RecordMapper

/-- A key that no row has: null, zero or the empty text. -/
def Value.isUnassignedKey : Value → Bool
  | .null => true
  | .i64 n => n.val == 0
  | .u64 n => n.val == 0
  | .text s => s.isEmpty
  | _ => false

inductive RowIdOutcome
  | assigned
  /-- The id does not fit the key. -/
  | refused
  | alreadyAssigned
  deriving DecidableEq, Repr

namespace Mapping

/-- A text key takes the id in decimal, every other key as an integer. -/
def writeRowId (key : Column) (id : IntOf .i64) (f : Field) : Field × DecodeOutcome :=
  if key.storage.isText then f.decode .text (.text (Numeral.ofInt id.val))
  else f.decode .integer (.integer id)

def assignRowId (m : Mapping) (id : IntOf .i64) (r : Record) :
    Except (Stop RecordFault) (Record × RowIdOutcome) := do
  let some key := m.primaryKey? | throw (.fault (.noKey m.name))
  let some current := r.value? key.field | throw (.fault (.hiddenField m.name key.field))
  if !current.isUnassignedKey then return (r, .alreadyAssigned)
  let some f := r.target? key.field | throw (.fault (.hiddenField m.name key.field))
  let (f, outcome) := writeRowId key id f
  match outcome with
  | .written => return (r.put key.field f, .assigned)
  | .refused => return (r, .refused)
  | .overflow => throw .overflow

end Mapping

end RecordMapper
