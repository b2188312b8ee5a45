import RecordMapper.Pipeline.Argument
import RecordMapper.Proofs.Number.Numeral
import RecordMapper.Proofs.Number.Rounding
import RecordMapper.Proofs.Text.Base64
import RecordMapper.Proofs.Wire.Vector
import RecordMapper.Wire.Decode
/-!
A value that is bound as an argument comes back from the cell that the argument becomes.
-/

namespace RecordMapper

namespace StorageClass

/-- The class of a native type, with whatever size is declared for vectors. -/
def IsClassOf (storage : StorageClass) : NativeType → Prop
  | .vector => ∃ size, storage = .vector size
  | type => storage = ofNative type

/-- What a column takes in without loss: integers of signed 64 bits, finite 32-bit floats, whole
seconds, and vectors of the declared size, which fit in memory. -/
def Keeps (storage : StorageClass) : (type : NativeType) → type.Carrier → Prop
  | .int _, n => n.val ≤ IntKind.i64.greatest
  | .f32, x => x.datum.isFinite = true
  | .timestamp, t => 1000000000 ∣ t.nanoseconds
  | .vector, items =>
    (∀ size, storage = .vector size → items.length = size.toNat) ∧ 4 * items.length < 2 ^ 63
  | _, _ => True

end StorageClass

namespace Argument

theorem toWire_ofInt (n : IntOf .i64) : (ofInt n.val).toWire = .integer n := by
  rw [ofInt, toWire, Numeral.integer?_ofInt, Option.bind_some, IntOf.ofInt?_val]

/-- An integer beyond the signed 64 bits is read a second time, without a sign. -/
theorem toWire_ofInt_unsigned {n : IntOf .u64} (h : IntKind.i64.greatest < n.val) :
    (ofInt n.val).toWire = .unsigned n := by
  obtain ⟨m, hm⟩ := Int.eq_ofNat_of_zero_le n.least_le
  have hsigned : IntOf.ofInt? .i64 n.val = none := IntOf.ofInt?_eq_none_iff.2 (.inr h)
  have hunsigned : Numeral.unsigned? (Numeral.ofInt n.val).toList = some m := by
    rw [hm]
    exact Numeral.unsigned?_ofNat m
  rw [ofInt, toWire, Numeral.integer?_ofInt, Option.bind_some, hsigned, hunsigned,
    Option.bind_some, ← hm, IntOf.ofInt?_val]

theorem toWire_ofBytes (data : List UInt8) : (ofBytes data).toWire = .bytes data := by
  rw [ofBytes, toWire, Base64.decode?_encode]

theorem ofValue_ofInt {kind : IntKind} (n : IntOf kind) :
    ofValue (.ofInt kind n) = .ok (ofInt n.val) := by
  cases kind <;> rfl

end Argument

open Argument

theorem IntKind.i64_least_le (kind : IntKind) : IntKind.i64.least ≤ kind.least := by
  cases kind <;> decide

/-- Only one kind reaches beyond the signed 64 bits. -/
theorem IntKind.eq_u64_of_lt_greatest {kind : IntKind} (h : i64.greatest < kind.greatest) :
    kind = u64 := by
  revert h
  cases kind <;> decide

theorem Timestamp.ofSeconds?_wholeSeconds {t : Timestamp} (h : 1000000000 ∣ t.nanoseconds) :
    ofSeconds? t.wholeSeconds = some t := by
  have hs : 1000000000 * t.wholeSeconds = t.nanoseconds := Int.mul_tdiv_cancel' h
  have hlo := t.least_le
  have hhi := t.le_greatest
  rw [ofSeconds?_eq_some_iff]
  omega

namespace StorageClass

variable {storage : StorageClass} {type : NativeType} {x : type.Carrier}

/-- A value of the field survives being bound and read back from its cell. -/
def ReadsBack (storage : StorageClass) (type : NativeType) (x : type.Carrier) : Prop :=
  ∃ a, ofValue (.ofNative type x) = .ok a ∧ a.toWire.isNull = false ∧
    storage.decode? type a.toWire = some x

theorem ReadsBack.intro {a : Argument} {w : WireValue} (ha : ofValue (.ofNative type x) = .ok a)
    (hw : a.toWire = w) (hn : w.isNull = false) (hd : storage.decode? type w = some x) :
    storage.ReadsBack type x := by
  refine ⟨a, ha, ?_, ?_⟩
  · rw [hw]
    exact hn
  · rw [hw]
    exact hd

theorem readsBack_timestamp {t : Timestamp} (h : 1000000000 ∣ t.nanoseconds) :
    integer.ReadsBack .timestamp t := by
  have ht := t.ofSeconds?_wholeSeconds h
  have hlo := t.least_le
  have hhi := t.le_greatest
  have hs : 1000000000 * t.wholeSeconds = t.nanoseconds := Int.mul_tdiv_cancel' h
  have hw : IntKind.i64.least ≤ t.wholeSeconds ∧ t.wholeSeconds ≤ IntKind.i64.greatest := by
    rw [IntKind.least, IntKind.greatest]
    omega
  exact .intro rfl (toWire_ofInt ⟨t.wholeSeconds, hw.1, hw.2⟩) rfl ht

theorem byteCount?_eq_some_iff {size : UInt64} {count : Nat} :
    byteCount? size = some count ↔ count = 4 * size.toNat ∧ size.toNat < 2 ^ 62 := by
  have hsize : UInt64.size = 2 ^ 64 := rfl
  rw [byteCount?, Option.ite_none_right_eq_some, Option.some.injEq]
  omega

theorem readsBack_vector {items : List Binary32} {size : UInt64} (hs : items.length = size.toNat)
    (h : 4 * items.length < 2 ^ 63) : (vector size).ReadsBack .vector items := by
  have hsize : byteCount? size = some (FloatVector.toBytes items).length := by
    rw [byteCount?_eq_some_iff, FloatVector.length_toBytes]
    omega
  refine .intro rfl (toWire_ofBytes _) rfl ?_
  exact (if_pos hsize).trans (FloatVector.ofBytes?_toBytes items)

theorem readsBack_of_keeps (hc : storage.IsClassOf type) (hx : storage.Keeps type x) :
    storage.ReadsBack type x := by
  cases type with
  | bool =>
    cases hc
    cases x with
    | false => exact .intro rfl (toWire_ofInt ⟨0, by decide, by decide⟩) rfl rfl
    | true => exact .intro rfl (toWire_ofInt ⟨1, by decide, by decide⟩) rfl rfl
  | int kind =>
    cases hc
    let n : IntOf .i64 := ⟨x.val, kind.i64_least_le.trans x.least_le, hx⟩
    exact .intro (ofValue_ofInt x) (toWire_ofInt n) rfl (IntOf.ofInt?_val x)
  | f32 =>
    cases hc
    exact .intro rfl rfl rfl (Binary32.narrow?_widen hx)
  | f64 =>
    cases hc
    exact .intro rfl rfl rfl rfl
  | timestamp =>
    cases hc
    exact readsBack_timestamp hx
  | string =>
    cases hc
    exact .intro rfl rfl rfl rfl
  | bytes =>
    cases hc
    exact .intro rfl (toWire_ofBytes _) rfl rfl
  | vector =>
    obtain ⟨size, rfl⟩ := hc
    obtain ⟨hs, hfit⟩ := hx
    exact readsBack_vector (hs size rfl) hfit

end StorageClass

end RecordMapper
