import RecordMapper.Proofs.Number.Integral
import RecordMapper.Proofs.Text.Trimming
import RecordMapper.Proofs.Wire.Row
/-!
A cell is an integer in many forms: a word, a float without a fraction, a numeral with blanks
around it. What an integer column decodes depends on the integer alone, and what is bound as an
integer of signed 64 bits is read back.
-/

namespace RecordMapper

open Text Argument

namespace WireValue

/-- The cell stands for the integer `z`. -/
def Denotes : WireValue → Int → Prop
  | integer n, z => n.val = z
  | unsigned n, z => n.val = z
  | float x, z | json (.float x), z => x.datum.value? = some (z : ℚ)
  | text s, z | json (.string s), z => ∃ numeral, Trims s.toList numeral ∧ Numeral.Spells numeral z
  | json (.integer i), z => i = z
  | _, _ => False

/-- The integer of a cell before it is brought into 64 bits. -/
def denoted? : WireValue → Option Int
  | integer n => some n.val
  | unsigned n => some n.val
  | float x | json (.float x) => x.datum.integer?
  | text s | json (.string s) => Numeral.integer? (trimList s.toList)
  | json (.integer i) => some i
  | _ => none

variable {w : WireValue} {z : Int}

theorem integer?_trimList_iff {s : List Char} :
    Numeral.integer? (trimList s) = some z ↔
      ∃ numeral, Trims s numeral ∧ Numeral.Spells numeral z := by
  rw [Numeral.integer?_eq_some_iff]
  constructor
  · intro h
    exact ⟨trimList s, trims_trimList s, h⟩
  · rintro ⟨numeral, ht, h⟩
    rwa [trimList_eq_iff.2 ht]

theorem denoted?_eq_some_iff : w.denoted? = some z ↔ w.Denotes z := by
  cases w with
  | integer n | unsigned n => exact Option.some_inj
  | float x => exact Datum.integer?_eq_some_iff
  | text s => exact integer?_trimList_iff
  | json node =>
    cases node with
    | integer i => exact Option.some_inj
    | float x => exact Datum.integer?_eq_some_iff
    | string s => exact integer?_trimList_iff
    | _ => exact iff_of_false nofun nofun
  | _ => exact iff_of_false nofun nofun

theorem integer?_eq (w : WireValue) : w.integer? = w.denoted?.bind (IntOf.ofInt? .i64) := by
  cases w with
  | integer n => exact (IntOf.ofInt?_val n).symm
  | json node => cases node <;> rfl
  | _ => rfl

theorem Denotes.integer? (h : w.Denotes z) : w.integer? = IntOf.ofInt? .i64 z := by
  rw [integer?_eq, denoted?_eq_some_iff.2 h, Option.bind_some]

theorem Denotes.isNull (h : w.Denotes z) : w.isNull = false := by
  rw [isNull_eq_false_iff]
  constructor
  · rintro rfl
    exact h
  · rintro rfl
    exact h

end WireValue

/-- An integer of signed 64 bits. -/
def InWord (z : Int) : Prop := IntKind.i64.least ≤ z ∧ z ≤ IntKind.i64.greatest

instance (z : Int) : Decidable (InWord z) := inferInstanceAs (Decidable (_ ∧ _))

namespace NativeType

/-- The type has a value for the integer `z`. -/
def Admits : NativeType → Int → Prop
  | bool, _ => True
  | int kind, z => kind.least ≤ z ∧ z ≤ kind.greatest
  | timestamp, z => -377705023201 ≤ z ∧ z ≤ 253402207200
  | _, _ => False

instance (type : NativeType) (z : Int) : Decidable (type.Admits z) :=
  match type with
  | bool => .isTrue trivial
  | int _ | timestamp => inferInstanceAs (Decidable (_ ∧ _))
  | f32 | f64 | string | bytes | vector => .isFalse id

/-- The value that an integer has in the type: whether it is not zero, itself, or as many
seconds. -/
def StandsFor : (type : NativeType) → type.Carrier → Int → Prop
  | bool, b, z => b = true ↔ z ≠ 0
  | int _, n, z => n.val = z
  | timestamp, t, z => t.nanoseconds = z * 1000000000
  | _, _, _ => False

end NativeType

namespace StorageClass

variable {type : NativeType} {n : IntOf .i64}

theorem decodeInteger?_eq_some_iff {x : type.Carrier} :
    decodeInteger? n type = some x ↔ type.Admits n.val ∧ type.StandsFor x n.val := by
  cases type with
  | bool =>
    have hb (b : Bool) : (n.val != 0) = b ↔ True ∧ (b = true ↔ n.val ≠ 0) := by
      cases b <;> simp
    exact Option.some_inj.trans (hb x)
  | int kind =>
    have hx : decodeInteger? n (.int kind) = some x ↔ x.val = n.val := IntOf.ofInt?_eq_some_iff
    rw [hx]
    constructor
    · intro h
      exact ⟨h ▸ ⟨x.least_le, x.le_greatest⟩, h⟩
    · exact And.right
  | timestamp => exact Timestamp.ofSeconds?_eq_some_iff
  | _ => exact iff_of_false nofun fun h => h.1

theorem exists_decodeInteger?_iff :
    (∃ x, decodeInteger? n type = some x) ↔ type.Admits n.val := by
  constructor
  · rintro ⟨x, hx⟩
    exact (decodeInteger?_eq_some_iff.1 hx).1
  · intro h
    cases type with
    | bool => exact ⟨_, rfl⟩
    | int kind => exact ⟨_, dif_pos h⟩
    | timestamp => exact ⟨_, dif_pos h⟩
    | _ => exact h.elim

end StorageClass

namespace Field

variable {f : Field} {w w' : WireValue} {z : Int}

theorem decode_integer_congr (hw : w.isNull = false) (hw' : w'.isNull = false)
    (h : w.integer? = w'.integer?) : f.decode .integer w = f.decode .integer w' := by
  have hd : StorageClass.integer.decode? f.type w = StorageClass.integer.decode? f.type w' := by
    rw [StorageClass.decode?, h, ← StorageClass.decode?]
  simp only [decode, hw, hw', hd]
  rfl

theorem decode_integer_none (hw : w.isNull = false) (h : w.integer? = none) :
    f.decode .integer w = (f, .refused) := by
  apply decode_of_decode?_none hw rfl
  rw [StorageClass.decode?, h, Option.bind_none]

theorem decode_beyond_word (h : w.Denotes z) (hz : ¬InWord z) :
    f.decode .integer w = (f, .refused) := by
  apply decode_integer_none h.isNull
  rw [h.integer?]
  exact dif_neg hz

theorem decode_in_word (h : w.Denotes z) (hz : InWord z) :
    ((f.decode .integer w).2 = .written ↔ f.type.Admits z) ∧
      ((f.decode .integer w).2 = .written →
        ∃ x, f.type.StandsFor x z ∧ (f.decode .integer w).1 = { f with slot := f.slot.set x }) := by
  obtain ⟨n, rfl⟩ : ∃ n : IntOf .i64, n.val = z := ⟨⟨z, hz.1, hz.2⟩, rfl⟩
  have hd : StorageClass.integer.decode? f.type w = StorageClass.decodeInteger? n f.type := by
    rw [StorageClass.decode?, h.integer?, IntOf.ofInt?_val, Option.bind_some]
  have hwritten : (f.decode .integer w).2 = .written ↔
      ∃ x, StorageClass.integer.decode? f.type w = some x := written_iff h.isNull
  rw [hd] at hwritten
  constructor
  · rw [hwritten, StorageClass.exists_decodeInteger?_iff]
  · intro ht
    obtain ⟨x, hx⟩ := hwritten.1 ht
    rw [← hd] at hx
    refine ⟨x, ?_, congrArg Prod.fst (decode_of_decode? h.isNull hx)⟩
    exact (StorageClass.decodeInteger?_eq_some_iff.1 (hd ▸ hx)).2

/-- What an integer column does with a cell is decided by the integer that the cell denotes. -/
theorem decode_integer (f : Field) (w : WireValue) (hw : w.isNull = false) :
    ((¬∃ z, w.Denotes z) ∨ (∃ z, w.Denotes z ∧ ¬InWord z) → f.decode .integer w = (f, .refused)) ∧
    (∀ z, w.Denotes z → InWord z →
      ((f.decode .integer w).2 = .written ↔ f.type.Admits z) ∧
        ((f.decode .integer w).2 = .written → ∃ x, f.type.StandsFor x z ∧
          (f.decode .integer w).1 = { f with slot := f.slot.set x }) ∧
        ((f.decode .integer w).2 = .refused → (f.decode .integer w).1 = f)) ∧
    ∀ z w', w.Denotes z → w'.Denotes z → f.decode .integer w = f.decode .integer w' := by
  refine ⟨?_, ?_, ?_⟩
  · rintro (h | ⟨z, h, hz⟩)
    · apply decode_integer_none hw
      cases hd : w.denoted? with
      | none => rw [WireValue.integer?_eq, hd, Option.bind_none]
      | some z => exact absurd ⟨z, WireValue.denoted?_eq_some_iff.1 hd⟩ h
    · exact decode_beyond_word h hz
  · intro z h hz
    obtain ⟨hwritten, hcontent⟩ := decode_in_word (f := f) h hz
    exact ⟨hwritten, hcontent, fun h => decode_of_not_written (by simp [h])⟩
  · intro z w' h h'
    apply decode_integer_congr h.isNull h'.isNull
    rw [h.integer?, h'.integer?]

end Field

/-- The greatest byte as a numeral with blanks around it and as a float. One more than a word holds
is refused, though the float is whole. -/
theorem decode_integer_level :
    let level : Field := ⟨"level", .int .u8, .optional none, false⟩
    let numeral : WireValue := .text "\u00a0+255 "
    let number : WireValue := .float ⟨0x406fe00000000000⟩
    let beyond : WireValue := .json (.float ⟨0x43e0000000000000⟩)
    (∃ x : IntOf .u8, x.val = 255 ∧
        (level.decode .integer numeral).1 = ⟨"level", .int .u8, .optional (some x), false⟩) ∧
      level.decode .integer numeral = level.decode .integer number ∧
      beyond.Denotes 9223372036854775808 ∧ level.decode .integer beyond = (level, .refused) := by
  intro level numeral number beyond
  have hnumeral : numeral.Denotes 255 := WireValue.denoted?_eq_some_iff.1 (by decide +kernel)
  have hnumber : number.Denotes 255 := WireValue.denoted?_eq_some_iff.1 (by decide +kernel)
  have hbeyond : beyond.Denotes 9223372036854775808 :=
    WireValue.denoted?_eq_some_iff.1 (by decide +kernel)
  obtain ⟨_, hword, hsame⟩ := Field.decode_integer level numeral rfl
  obtain ⟨hrefused, _, _⟩ := Field.decode_integer level beyond rfl
  obtain ⟨hwritten, hcontent, _⟩ := hword 255 hnumeral (by decide)
  refine ⟨?_, hsame 255 number hnumeral hnumber, hbeyond, ?_⟩
  · exact hcontent (hwritten.2 (by decide))
  · exact hrefused (.inr ⟨_, hbeyond, by decide⟩)

namespace Argument

/-- A bound integer comes back as a cell that denotes it. -/
theorem denotes_toWire_ofInt {kind : IntKind} (n : IntOf kind) :
    (ofInt n.val).toWire.Denotes n.val := by
  by_cases h : n.val ≤ IntKind.i64.greatest
  · rw [toWire_ofInt ⟨n.val, kind.i64_least_le.trans n.least_le, h⟩]
    rfl
  · have hn : IntKind.i64.greatest < n.val := by omega
    obtain rfl := IntKind.eq_u64_of_lt_greatest (hn.trans_le n.le_greatest)
    rw [toWire_ofInt_unsigned hn]
    rfl

end Argument

/-- A bound integer is read back into a field of its type exactly when a signed word holds it. -/
theorem Field.decode_bound_integer {kind : IntKind} (n : IntOf kind) (name : String)
    (slot : Slot (IntOf kind)) (readOnly : Bool) :
    ∃ a, ofValue (.ofNative (.int kind) n) = .ok a ∧ a.toWire.Denotes n.val ∧
      (n.val ≤ IntKind.i64.greatest →
        decode .integer a.toWire ⟨name, .int kind, slot, readOnly⟩ =
          (⟨name, .int kind, slot.set n, readOnly⟩, .written)) ∧
      (IntKind.i64.greatest < n.val →
        decode .integer a.toWire ⟨name, .int kind, slot, readOnly⟩ =
          (⟨name, .int kind, slot, readOnly⟩, .refused)) := by
  let f : Field := ⟨name, .int kind, slot, readOnly⟩
  have hcell := denotes_toWire_ofInt n
  refine ⟨ofInt n.val, ofValue_ofInt n, hcell, ?_, ?_⟩
  · intro h
    have hword : InWord n.val := ⟨kind.i64_least_le.trans n.least_le, h⟩
    obtain ⟨hwritten, hcontent⟩ := decode_in_word (f := f) hcell hword
    have ht := hwritten.2 ⟨n.least_le, n.le_greatest⟩
    obtain ⟨x, hx, hf⟩ := hcontent ht
    obtain rfl : x = n := IntOf.ext hx
    exact Prod.ext hf ht
  · intro h
    exact decode_beyond_word hcell fun hword => absurd hword.2 (by omega)

/-- The last signed word and the greatest unsigned one, both in unsigned fields. -/
theorem decode_bound_integer_limits :
    let word : IntOf .u64 := ⟨9223372036854775807, by decide, by decide⟩
    let greatest : IntOf .u64 := ⟨18446744073709551615, by decide, by decide⟩
    let size (slot : Slot (IntOf .u64)) : Field := ⟨"size", .int .u64, slot, false⟩
    (∃ a, ofValue (.ofNative (.int .u64) word) = .ok a ∧
        (size (.optional none)).decode .integer a.toWire =
          (size (.optional (some word)), .written)) ∧
      ∃ a, ofValue (.ofNative (.int .u64) greatest) = .ok a ∧
        (size (.required word)).decode .integer a.toWire = (size (.required word), .refused) := by
  intro word greatest size
  obtain ⟨a, ha, _, hkept, _⟩ := Field.decode_bound_integer word "size" (.optional none) false
  obtain ⟨b, hb, _, _, hrefused⟩ :=
    Field.decode_bound_integer greatest "size" (.required word) false
  exact ⟨⟨a, ha, hkept (by decide)⟩, b, hb, hrefused (by decide)⟩

/-- The greatest unsigned word is bound and comes back whole, and no unsigned field takes it. -/
theorem greatest_unsigned_not_read_back :
    let greatest : IntOf .u64 := ⟨18446744073709551615, by decide, by decide⟩
    let size : Field := ⟨"size", .int .u64, .required IntOf.zero, false⟩
    (∃ a, ofValue (.ofNative (.int .u64) greatest) = .ok a ∧ a.toWire = .unsigned greatest ∧
        size.decode .integer a.toWire = (size, .refused)) ∧
      ¬∃ a, ofValue (.ofNative (.int .u64) greatest) = .ok a ∧
        size.decode .integer a.toWire =
          (⟨"size", .int .u64, .required greatest, false⟩, .written) := by
  intro greatest size
  have hbound : ofValue (.ofNative (.int .u64) greatest) = .ok (ofInt greatest.val) := rfl
  have hcell : (ofInt greatest.val).toWire = .unsigned greatest :=
    toWire_ofInt_unsigned (by decide)
  have hrefused : size.decode .integer (ofInt greatest.val).toWire = (size, .refused) := by
    rw [hcell]
    rfl
  refine ⟨⟨_, hbound, hcell, hrefused⟩, ?_⟩
  rintro ⟨a, ha, hkept⟩
  obtain rfl := Except.ok.inj (hbound.symm.trans ha)
  rw [hrefused] at hkept
  exact absurd (congrArg Prod.snd hkept) (by decide)

end RecordMapper
