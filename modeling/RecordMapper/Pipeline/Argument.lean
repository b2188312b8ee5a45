import RecordMapper.Error
import RecordMapper.Json.Basic
import RecordMapper.Number.Numeral
import RecordMapper.Text.Base64
import RecordMapper.Value
import RecordMapper.Wire.Value
import RecordMapper.Wire.Vector
/-!
Typed values as they travel in requests and in the cells of results. Integers travel as decimal
text and blobs in base64.
-/

namespace RecordMapper

inductive Argument
  | null
  | integer (value : String)
  | float (value : Binary64)
  | text (value : String)
  | blob (base64 : String)
  deriving DecidableEq, Repr

/-- A statement value that no single argument can carry. -/
inductive ArgumentFault
  | list
  deriving DecidableEq, Repr

def ArgumentFault.toError : ArgumentFault → Error
  | list => .of .invalidArgument "a list cannot be bound as a single parameter"

namespace Argument

def ofInt (i : Int) : Argument := integer (Numeral.ofInt i)

def ofBytes (data : List UInt8) : Argument := blob (Base64.encode data)

/-- Booleans travel as 0 and 1, timestamps as whole seconds, vectors as blobs. -/
def ofValue : Value → Except ArgumentFault Argument
  | .null => .ok null
  | .bool b => .ok (ofInt (if b then 1 else 0))
  | .i64 n => .ok (ofInt n.val)
  | .u64 n => .ok (ofInt n.val)
  | .f32 x => .ok (float x.widen)
  | .f64 x => .ok (float x)
  | .text s => .ok (text s)
  | .timestamp t => .ok (ofInt t.wholeSeconds)
  | .bytes data => .ok (ofBytes data)
  | .vector items => .ok (ofBytes (FloatVector.toBytes items))
  | .list _ => .error .list

/-- The cell that an argument becomes. An integer beyond all words stays text, and so does a blob
that is not base64. -/
def toWire : Argument → WireValue
  | null => .null
  | integer value =>
    match (Numeral.integer? value.toList).bind (IntOf.ofInt? .i64) with
    | some n => .integer n
    | none =>
      match (Numeral.unsigned? value.toList).bind fun n => IntOf.ofInt? .u64 n with
      | some n => .unsigned n
      | none => .text value
  | float value => .float value
  | text value => .text value
  | blob base64 =>
    match Base64.decode? base64 with
    | some data => .bytes data
    | none => .text base64

def toJson : Argument → Json
  | null => .object [("type", .string "null")]
  | integer value => .object [("type", .string "integer"), ("value", .string value)]
  | float value => .object [("type", .string "float"), ("value", .float value)]
  | text value => .object [("type", .string "text"), ("value", .string value)]
  | blob base64 => .object [("type", .string "blob"), ("base64", .string base64)]

end Argument

end RecordMapper
