import RecordMapper.Wire.Vector
/-!
Vectors are read back from their bytes, and bytes that come in fours are those of a vector.
-/

namespace RecordMapper

/-- A word is made up of its four bytes. -/
theorem word_of_bytes (w : UInt32) :
    w.toUInt8.toUInt32 ||| (w >>> 8).toUInt8.toUInt32 <<< 8 |||
      (w >>> 16).toUInt8.toUInt32 <<< 16 ||| (w >>> 24).toUInt8.toUInt32 <<< 24 = w := by
  have h8 : (UInt32.toBitVec 8 % 32).toNat = 8 := rfl
  have h16 : (UInt32.toBitVec 16 % 32).toNat = 16 := rfl
  have h24 : (UInt32.toBitVec 24 % 32).toNat = 24 := rfl
  apply UInt32.eq_of_toBitVec_eq
  apply BitVec.eq_of_getLsbD_eq
  intro i hi
  simp only [UInt32.toBitVec_or, UInt32.toBitVec_shiftLeft, UInt8.toBitVec_toUInt32,
    UInt32.toBitVec_toUInt8, UInt32.toBitVec_shiftRight, BitVec.shiftLeft_eq',
    BitVec.ushiftRight_eq', h8, h16, h24, BitVec.getLsbD_or, BitVec.getLsbD_shiftLeft,
    BitVec.getLsbD_setWidth, BitVec.getLsbD_ushiftRight]
  -- What is left asks in which byte the place `i` lies.
  grind

theorem Binary32.toBytes_ofBytes (a b c d : UInt8) : (ofBytes a b c d).toBytes = [a, b, c, d] := by
  have h8 : (UInt32.toBitVec 8 % 32).toNat = 8 := rfl
  have h16 : (UInt32.toBitVec 16 % 32).toNat = 16 := rfl
  have h24 : (UInt32.toBitVec 24 % 32).toNat = 24 := rfl
  simp only [toBytes, ofBytes, List.cons.injEq, and_true]
  refine ⟨?_, ?_, ?_, ?_⟩
  all_goals
    apply UInt8.eq_of_toBitVec_eq
    apply BitVec.eq_of_getLsbD_eq
    intro i hi
    simp only [UInt32.toBitVec_or, UInt32.toBitVec_shiftLeft, UInt8.toBitVec_toUInt32,
      UInt32.toBitVec_toUInt8, UInt32.toBitVec_shiftRight, BitVec.shiftLeft_eq',
      BitVec.ushiftRight_eq', h8, h16, h24, BitVec.getLsbD_or, BitVec.getLsbD_shiftLeft,
      BitVec.getLsbD_setWidth, BitVec.getLsbD_ushiftRight]
    -- Of the four bytes only one reaches the place `i`.
    grind

namespace FloatVector

theorem toBytes_cons (x : Binary32) (items : List Binary32) :
    toBytes (x :: items) = x.toBytes ++ toBytes items := rfl

theorem ofBytes?_cons (x : Binary32) (rest : List UInt8) :
    ofBytes? (x.toBytes ++ rest) = (ofBytes? rest).map (x :: ·) := by
  have hx : Binary32.ofBytes x.word.toUInt8 (x.word >>> 8).toUInt8 (x.word >>> 16).toUInt8
      (x.word >>> 24).toUInt8 = x := congrArg Binary32.mk (word_of_bytes x.word)
  simp only [Binary32.toBytes, List.cons_append, List.nil_append, ofBytes?, hx]

theorem ofBytes?_toBytes (items : List Binary32) : ofBytes? (toBytes items) = some items := by
  induction items with
  | nil => rfl
  | cons x items ih =>
    rw [toBytes_cons, ofBytes?_cons, ih, Option.map_some]

theorem length_toBytes (items : List Binary32) : (toBytes items).length = 4 * items.length := by
  induction items with
  | nil => rfl
  | cons x items ih =>
    have hx : x.toBytes.length = 4 := rfl
    rw [toBytes_cons, List.length_append, hx, ih, List.length_cons]
    omega

theorem exists_toBytes {data : List UInt8} {n : Nat} (h : data.length = 4 * n) :
    ∃ items, toBytes items = data := by
  induction n generalizing data with
  | zero => exact ⟨[], (List.length_eq_zero_iff.1 h).symm⟩
  | succ n ih =>
    match data with
    | a :: b :: c :: d :: rest =>
      have hrest : rest.length = 4 * n := by
        simp only [List.length_cons] at h
        omega
      obtain ⟨items, rfl⟩ := ih hrest
      refine ⟨.ofBytes a b c d :: items, ?_⟩
      rw [toBytes_cons, Binary32.toBytes_ofBytes]
      rfl

end FloatVector

end RecordMapper
