import RecordMapper.Json.Printer
import RecordMapper.Number.Reading
import RecordMapper.Record
import RecordMapper.Schema.Storage
import RecordMapper.Text.Base64
import RecordMapper.Text.Blank
import RecordMapper.Wire.Value
import RecordMapper.Wire.Vector
/-!
Decoding a cell into a native field. The storage class of the column says which cells it reads and
which native types it fills. Whether a cell is accepted depends on the storage class, the type of
the field and whether it is optional, never on what the field holds. The bytes of a vector are
counted in machine words, and a count that does not fit in one stops the program.
-/

namespace RecordMapper

/-- What becomes of a cell. -/
inductive DecodeOutcome
  | written
  | refused
  /-- A number of bytes is beyond machine words, and the program stops. -/
  | overflow
  deriving DecidableEq, Repr

namespace WireValue

/-- The 64-bit integer that a text spells, blanks around it aside. -/
def integerText? (s : String) : Option (IntOf .i64) :=
  (Numeral.integer? (Text.trimList s.toList)).bind (IntOf.ofInt? .i64)

def integer? : WireValue → Option (IntOf .i64)
  | integer n => some n
  | unsigned n => IntOf.ofInt? .i64 n.val
  | float x | json (.float x) => x.datum.integer?.bind (IntOf.ofInt? .i64)
  | text s | json (.string s) => integerText? s
  | json (.integer i) => IntOf.ofInt? .i64 i
  | _ => none

def floatText? (s : String) : Option Binary64 := Binary64.ofText? (Text.trimList s.toList)

def float? : WireValue → Option Binary64
  | integer n => some (.ofInt n.val)
  | unsigned n => some (.ofInt n.val)
  | float x | json (.float x) => some x
  | text s | json (.string s) => floatText? s
  | json (.integer i) => some (.ofInt i)
  | _ => none

/-- The text form of a cell. -/
def text? : WireValue → Option String
  | null => none
  | bool b => some (if b then "true" else "false")
  | integer n => some (Numeral.ofInt n.val)
  | unsigned n => some (Numeral.ofInt n.val)
  | float x => some x.plainText
  | text s | json (.string s) => some s
  | bytes data => some (Base64.encode data)
  | json node => some node.print

/-- A binary payload, as bytes or in base64. -/
def payload? : WireValue → Option (List UInt8)
  | bytes data => some data
  | text s | json (.string s) => Base64.decode? (Text.trim s)
  | _ => none

end WireValue

namespace StorageClass

def decodeInteger? (n : IntOf .i64) : (type : NativeType) → Option type.Carrier
  | .bool => some (n.val != 0)
  | .int kind => IntOf.ofInt? kind n.val
  | .timestamp => Timestamp.ofSeconds? n.val
  | _ => none

def decodeReal? (x : Binary64) : (type : NativeType) → Option type.Carrier
  | .f64 => some x
  | .f32 => x.narrow?
  | _ => none

def decodeText? (s : String) : (type : NativeType) → Option type.Carrier
  | .string => some s
  | _ => none

def decodeBlob? (data : List UInt8) : (type : NativeType) → Option type.Carrier
  | .bytes => some data
  | .string => some (Base64.encode data)
  | _ => none

/-- The number of bytes that a vector takes up, four for each element, if a machine word holds
it. -/
def byteCount? (size : UInt64) : Option Nat :=
  if size.toNat * 4 < UInt64.size then some (size.toNat * 4) else none

/-- A vector takes up exactly the bytes that its declared elements do. -/
def decodeVector? (size : UInt64) (data : List UInt8) : (type : NativeType) → Option type.Carrier
  | .vector => if byteCount? size = some data.length then FloatVector.ofBytes? data else none
  | _ => none

/-- What a cell that is not null decodes to. -/
def decode? (storage : StorageClass) (type : NativeType) (w : WireValue) : Option type.Carrier :=
  match storage with
  | integer => w.integer?.bind (decodeInteger? · type)
  | real => w.float?.bind (decodeReal? · type)
  | text => w.text?.bind (decodeText? · type)
  | blob => w.payload?.bind (decodeBlob? · type)
  | vector size => w.payload?.bind (decodeVector? size · type)

/-- The bytes of a vector are counted as soon as there is a payload to compare them with. -/
def overflows (storage : StorageClass) (type : NativeType) (w : WireValue) : Bool :=
  match storage, type with
  | vector size, .vector => w.payload?.isSome && (byteCount? size).isNone
  | _, _ => false

end StorageClass

namespace Field

/-- The field after a cell, and what became of the cell. A null empties an optional field. -/
def decode (storage : StorageClass) (w : WireValue) (f : Field) : Field × DecodeOutcome :=
  if w.isNull then
    ({ f with slot := f.slot.clear }, if f.slot.isOptional then .written else .refused)
  else if storage.overflows f.type w then (f, .overflow)
  else
    match storage.decode? f.type w with
    | some x => ({ f with slot := f.slot.set x }, .written)
    | none => (f, .refused)

theorem name_decode (storage : StorageClass) (w : WireValue) (f : Field) :
    (f.decode storage w).1.name = f.name := by
  simp only [decode]
  split
  · rfl
  · split
    · rfl
    · split <;> rfl

/-- A cell that is not written leaves the field as it was. -/
theorem decode_of_not_written {storage : StorageClass} {w : WireValue} {f : Field}
    (h : (f.decode storage w).2 ≠ .written) : (f.decode storage w).1 = f := by
  obtain ⟨name, type, slot, readOnly⟩ := f
  simp only [decode] at h ⊢
  split at h
  next hw =>
    cases slot with
    | required x => simp [hw, Slot.clear]
    | optional x => simp [Slot.isOptional] at h
  next hw =>
    simp only [hw, Bool.false_eq_true, if_false]
    split at h
    next ho => simp only [ho, if_true]
    next ho =>
      simp only [ho]
      split at h
      next => simp at h
      next => rfl

end Field

end RecordMapper
