import RecordMapper.Native
/-!
Statement values: what a query constant, a parameter or a record field carries.
-/

namespace RecordMapper

inductive Value
  | null
  | bool (b : Bool)
  | i64 (n : IntOf .i64)
  | u64 (n : IntOf .u64)
  | f32 (x : Binary32)
  | f64 (x : Binary64)
  | text (s : String)
  | bytes (data : List UInt8)
  | timestamp (t : Timestamp)
  | vector (items : List Binary32)
  | list (items : List Value)
  deriving Repr

namespace Value

/-- An integer as a value. All kinds but the unsigned 64-bit one widen to signed 64 bits. -/
def ofInt : (kind : IntKind) → IntOf kind → Value
  | .u64, n => u64 n
  | .i64, n => i64 n
  | .i8, n => i64 (n.weaken (by decide) (by decide))
  | .i16, n => i64 (n.weaken (by decide) (by decide))
  | .i32, n => i64 (n.weaken (by decide) (by decide))
  | .u8, n => i64 (n.weaken (by decide) (by decide))
  | .u16, n => i64 (n.weaken (by decide) (by decide))
  | .u32, n => i64 (n.weaken (by decide) (by decide))

def ofNative : (type : NativeType) → type.Carrier → Value
  | .bool, b => bool b
  | .int kind, n => ofInt kind n
  | .f32, x => f32 x
  | .f64, x => f64 x
  | .timestamp, t => timestamp t
  | .string, s => text s
  | .bytes, data => bytes data
  | .vector, items => vector items

def isNull : Value → Bool
  | null => true
  | _ => false

def isList : Value → Bool
  | list _ => true
  | _ => false

def asText? : Value → Option String
  | text s => some s
  | _ => none

/-- The signed 64-bit integer that the value is, if it is one. -/
def asInt? : Value → Option Int
  | i64 n => some n.val
  | u64 n => (IntOf.ofInt? .i64 n.val).map IntOf.val
  | _ => none

/-- Float vectors are equal when their numbers are, place by place. -/
def sameVector : List Binary32 → List Binary32 → Bool
  | [], [] => true
  | x :: xs, y :: ys => x.numEq y && sameVector xs ys
  | _, _ => false

mutual

/-- Equality that compares floats as numbers. -/
def same : Value → Value → Bool
  | null, null => true
  | bool a, bool b => a == b
  | i64 a, i64 b => a == b
  | u64 a, u64 b => a == b
  | f32 a, f32 b => a.numEq b
  | f64 a, f64 b => a.numEq b
  | text a, text b => a == b
  | bytes a, bytes b => a == b
  | timestamp a, timestamp b => a == b
  | vector a, vector b => sameVector a b
  | list a, list b => sameList a b
  | _, _ => false

def sameList : List Value → List Value → Bool
  | [], [] => true
  | a :: as, b :: bs => same a b && sameList as bs
  | _, _ => false

end

end Value

end RecordMapper
