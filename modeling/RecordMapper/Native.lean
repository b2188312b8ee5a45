import RecordMapper.Number.Binary
import RecordMapper.Number.IntKind
import RecordMapper.Timestamp
/-!
The native types of record fields and what a field of each type holds.
-/

namespace RecordMapper

inductive NativeType
  | bool
  | int (kind : IntKind)
  | f32
  | f64
  | timestamp
  | string
  | bytes
  | vector
  deriving DecidableEq, Repr

namespace NativeType

def name : NativeType → String
  | bool => "bool"
  | int kind => kind.name
  | f32 => "f32"
  | f64 => "f64"
  | timestamp => "timestamp"
  | string => "string"
  | bytes => "bytes"
  | vector => "f32 vector"

def isInteger : NativeType → Bool
  | int _ => true
  | _ => false

/-- What a field of the type holds. -/
def Carrier : NativeType → Type
  | bool => Bool
  | int kind => IntOf kind
  | f32 => Binary32
  | f64 => Binary64
  | timestamp => Timestamp
  | string => String
  | bytes => List UInt8
  | vector => List Binary32

/-- What a field holds before anything is put into it. -/
def initial : (type : NativeType) → type.Carrier
  | bool => false
  | int _ => IntOf.zero
  | f32 => Binary32.zero
  | f64 => Binary64.zero
  | timestamp => Timestamp.epoch
  | string => ""
  | bytes => ([] : List UInt8)
  | vector => ([] : List Binary32)

end NativeType

end RecordMapper
