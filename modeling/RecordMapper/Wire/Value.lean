import RecordMapper.Json.Basic
import RecordMapper.Number.IntKind
/-!
Cells as they arrive from the store, loosely typed.
-/

namespace RecordMapper

inductive WireValue
  | null
  | bool (b : Bool)
  | integer (n : IntOf .i64)
  | unsigned (n : IntOf .u64)
  | float (x : Binary64)
  | text (s : String)
  | bytes (data : List UInt8)
  /-- A structured node that the transport left as it was. -/
  | json (node : Json)
  deriving Repr

namespace WireValue

def isNull : WireValue → Bool
  | null | json .null => true
  | _ => false

theorem isNull_eq_false_iff {w : WireValue} : w.isNull = false ↔ w ≠ null ∧ w ≠ json .null := by
  cases w with
  | null => simp [isNull]
  | json node => cases node <;> simp [isNull]
  | _ => simp [isNull]

/-- The name of the shape. -/
def kind : WireValue → String
  | null => "null"
  | bool _ => "bool"
  | integer _ => "integer"
  | unsigned _ => "unsigned"
  | float _ => "float"
  | text _ => "text"
  | bytes _ => "bytes"
  | json _ => "json"

end WireValue

end RecordMapper
