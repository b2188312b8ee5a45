import RecordMapper.Native
import RecordMapper.Number.Numeral
/-!
Storage classes: the type categories that columns are declared with.
-/

namespace RecordMapper

inductive StorageClass
  | integer
  | real
  | text
  | blob
  /-- So many 32-bit floats in a blob. The size is a machine word. -/
  | vector (size : UInt64)
  deriving DecidableEq, Repr

namespace StorageClass

/-- The storage class of a native type. A vector has no size until one is declared. -/
def ofNative : NativeType → StorageClass
  | .bool | .int _ | .timestamp => integer
  | .f32 | .f64 => real
  | .string => text
  | .bytes => blob
  | .vector => vector 0

/-- The type text of column definitions. -/
def sqlType : StorageClass → String
  | integer => "INTEGER"
  | real => "REAL"
  | text => "TEXT"
  | blob => "BLOB"
  | vector size => "F32_BLOB(" ++ Numeral.ofNat size.toNat ++ ")"

def isInteger (s : StorageClass) : Bool := s == integer

def isText (s : StorageClass) : Bool := s == text

end StorageClass

end RecordMapper
