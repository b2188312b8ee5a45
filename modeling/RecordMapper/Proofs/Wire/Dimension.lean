import RecordMapper.Proofs.Wire.Payload
/-!
A vector is to be filled only by a payload of the declared dimension, and any other payload is to be
refused. The number of bytes that the dimension takes up is counted in machine words, so with a
dimension of `2 ^ 62` or more every payload stops the program.
-/

namespace RecordMapper

namespace StorageClass

variable {size : UInt64} {data : List UInt8} {type : NativeType} {w : WireValue}

theorem decodeVector?_of_length (hsize : size.toNat < 2 ^ 62)
    (hl : data.length = 4 * size.toNat) :
    decodeVector? size data .vector = FloatVector.ofBytes? data :=
  if_pos (byteCount?_eq_some_iff.2 ⟨hl, hsize⟩)

theorem decodeVector?_of_length_ne (hl : data.length ≠ 4 * size.toNat) :
    decodeVector? size data .vector = none :=
  if_neg fun hcount => hl (byteCount?_eq_some_iff.1 hcount).1

theorem decode?_vector (h : w.Carries data) :
    (vector size).decode? type w = decodeVector? size data type := by
  rw [decode?, WireValue.payload?_eq_some_iff.2 h, Option.bind_some]

theorem overflows_vector_iff (h : w.Carries data) :
    (vector size).overflows .vector w = true ↔ 2 ^ 62 ≤ size.toNat := by
  rw [overflows_iff, WireValue.payload?_eq_some_iff.2 h]
  constructor
  · rintro ⟨_, he, _, _, hsize⟩
    cases he
    exact hsize
  · intro hsize
    exact ⟨size, rfl, rfl, rfl, hsize⟩

theorem not_overflows_vector (h : w.Carries data) (hsize : size.toNat < 2 ^ 62) :
    (vector size).overflows .vector w = false := by
  rw [← Bool.not_eq_true, overflows_vector_iff h]
  omega

end StorageClass

namespace Field

/-- A field that holds a vector. -/
def ofVector (name : String) (slot : Slot (List Binary32)) (readOnly : Bool) : Field :=
  ⟨name, .vector, slot, readOnly⟩

/-- A payload of exactly four bytes for each of `size` elements fills the vector with the floats
that have these bytes, and any other is refused and leaves it alone. -/
structure FillsVector (name : String) (slot : Slot (List Binary32)) (readOnly : Bool)
    (size : UInt64) (w : WireValue) (data : List UInt8) : Prop where
  written_iff : ((ofVector name slot readOnly).decode (.vector size) w).2 = .written ↔
    data.length = 4 * size.toNat
  content : ((ofVector name slot readOnly).decode (.vector size) w).2 = .written →
    ∃ items : List Binary32, items.length = size.toNat ∧ FloatVector.toBytes items = data ∧
      ((ofVector name slot readOnly).decode (.vector size) w).1 =
        ofVector name (slot.set items) readOnly
  refused : data.length ≠ 4 * size.toNat →
    (ofVector name slot readOnly).decode (.vector size) w =
      (ofVector name slot readOnly, .refused)

variable {name : String} {slot : Slot (List Binary32)} {readOnly : Bool} {size : UInt64}
  {w : WireValue} {items : List Binary32} {data : List UInt8}

theorem decode_vector_of_length (h : w.Carries (FloatVector.toBytes items))
    (hsize : size.toNat < 2 ^ 62) (hl : items.length = size.toNat) :
    (ofVector name slot readOnly).decode (.vector size) w =
      (ofVector name (slot.set items) readOnly, .written) := by
  have hd : StorageClass.decode? (.vector size) .vector w = some items := by
    have hbytes : (FloatVector.toBytes items).length = 4 * size.toNat := by
      rw [FloatVector.length_toBytes, hl]
    rw [StorageClass.decode?_vector h, StorageClass.decodeVector?_of_length hsize hbytes]
    exact FloatVector.ofBytes?_toBytes items
  exact decode_of_decode? h.isNull hd

theorem decode_vector_of_length_ne (h : w.Carries data) (hsize : size.toNat < 2 ^ 62)
    (hl : data.length ≠ 4 * size.toNat) :
    (ofVector name slot readOnly).decode (.vector size) w =
      (ofVector name slot readOnly, .refused) := by
  have hd : StorageClass.decode? (.vector size) .vector w = none := by
    rw [StorageClass.decode?_vector h, StorageClass.decodeVector?_of_length_ne hl]
  exact decode_of_decode?_none h.isNull (StorageClass.not_overflows_vector h hsize) hd

theorem decode_vector_of_size (h : w.Carries data) (hsize : 2 ^ 62 ≤ size.toNat) :
    (ofVector name slot readOnly).decode (.vector size) w =
      (ofVector name slot readOnly, .overflow) :=
  decode_of_overflows ((StorageClass.overflows_vector_iff h).2 hsize)

theorem fillsVector_of_size (h : w.Carries data) (hsize : size.toNat < 2 ^ 62) :
    FillsVector name slot readOnly size w data := by
  by_cases hl : data.length = 4 * size.toNat
  · obtain ⟨items, rfl⟩ := FloatVector.exists_toBytes hl
    have hitems : items.length = size.toNat := by
      rw [FloatVector.length_toBytes] at hl
      omega
    have hd : (ofVector name slot readOnly).decode (.vector size) w =
        (ofVector name (slot.set items) readOnly, .written) :=
      decode_vector_of_length h hsize hitems
    refine ⟨iff_of_true (congrArg Prod.snd hd) hl, fun _ => ?_, fun hne => absurd hl hne⟩
    exact ⟨items, hitems, rfl, congrArg Prod.fst hd⟩
  · have hd : (ofVector name slot readOnly).decode (.vector size) w =
        (ofVector name slot readOnly, .refused) := decode_vector_of_length_ne h hsize hl
    have hnot : ((ofVector name slot readOnly).decode (.vector size) w).2 ≠ .written := by
      rw [hd]
      nofun
    exact ⟨iff_of_false hnot hl, fun hw => absurd hw hnot, fun _ => hd⟩

theorem not_fillsVector_of_size (h : w.Carries data) (hsize : 2 ^ 62 ≤ size.toNat) :
    ¬FillsVector name slot readOnly size w data := by
  intro hf
  have hd : (ofVector name slot readOnly).decode (.vector size) w =
      (ofVector name slot readOnly, .overflow) := decode_vector_of_size h hsize
  by_cases hl : data.length = 4 * size.toNat
  · have hw := hf.written_iff.2 hl
    rw [hd] at hw
    cases hw
  · have hr := hf.refused hl
    rw [hd] at hr
    cases hr

/-- Vectors are filled as their dimension says, and are read back from their own bytes, just when
the dimension takes up fewer than `2 ^ 64` bytes. With a larger one every payload stops the program
and leaves the vector alone. -/
theorem decode_vector_iff (name : String) (slot : Slot (List Binary32)) (readOnly : Bool)
    (size : UInt64) :
    (∀ w data, w.Carries data →
      (FillsVector name slot readOnly size w data ↔ size.toNat < 2 ^ 62)) ∧
    (∀ w items, w.Carries (FloatVector.toBytes items) → items.length = size.toNat →
      ((ofVector name slot readOnly).decode (.vector size) w =
          (ofVector name (slot.set items) readOnly, .written) ↔
        size.toNat < 2 ^ 62)) ∧
    ∀ w data, w.Carries data → 2 ^ 62 ≤ size.toNat →
      (ofVector name slot readOnly).decode (.vector size) w =
        (ofVector name slot readOnly, .overflow) := by
  refine ⟨fun w data h => ⟨fun hf => ?_, fillsVector_of_size h⟩,
    fun w items h hl => ⟨fun hd => ?_, fun hsize => decode_vector_of_length h hsize hl⟩,
    fun w data h => decode_vector_of_size h⟩
  · by_contra hsize
    exact not_fillsVector_of_size h (Nat.le_of_not_lt hsize) hf
  · by_contra hsize
    rw [decode_vector_of_size h (Nat.le_of_not_lt hsize)] at hd
    cases congrArg Prod.snd hd

end Field

/-- A vector of a NaN and a negative zero, in base64 with a blank in front. -/
theorem decode_vector_trace :
    let trace : WireValue := .text " AQDAfwAAAIA="
    Field.FillsVector "trace" (.optional none) false 2 trace [1, 0, 192, 127, 0, 0, 0, 128] ∧
      Field.decode (.vector 2) trace (.ofVector "trace" (.optional none) false) =
        (.ofVector "trace" (.optional (some [⟨0x7fc00001⟩, ⟨0x80000000⟩])) false, .written) := by
  intro trace
  obtain ⟨hfills, hback, _⟩ := Field.decode_vector_iff "trace" (.optional none) false 2
  have hcarries : trace.Carries [1, 0, 192, 127, 0, 0, 0, 128] :=
    WireValue.payload?_eq_some_iff.1 (by decide +kernel)
  refine ⟨(hfills trace _ hcarries).2 (by decide), ?_⟩
  exact (hback trace [⟨0x7fc00001⟩, ⟨0x80000000⟩] hcarries rfl).2 (by decide)

/-- Of `2 ^ 62` elements the bytes are too many for a machine word. No bytes are not refused as a
payload of another dimension: they stop the program. -/
theorem no_bytes_not_refused_trace :
    Field.decode (.vector 4611686018427387904) (.bytes [])
        (.ofVector "trace" (.required [⟨0x40e00000⟩]) false) =
        (.ofVector "trace" (.required [⟨0x40e00000⟩]) false, .overflow) ∧
      ¬Field.FillsVector "trace" (.required [⟨0x40e00000⟩]) false 4611686018427387904
        (.bytes []) [] := by
  have hd : Field.decode (.vector 4611686018427387904) (.bytes [])
      (.ofVector "trace" (.required [⟨0x40e00000⟩]) false) =
      (.ofVector "trace" (.required [⟨0x40e00000⟩]) false, .overflow) := rfl
  refine ⟨hd, fun h => ?_⟩
  have hrefused := h.refused (by decide)
  rw [hd] at hrefused
  cases hrefused

end RecordMapper
