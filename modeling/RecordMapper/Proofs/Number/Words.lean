import RecordMapper.Number.Binary
import Mathlib.Data.Nat.Basic
/-!
The finite numbers of a format and their words.
-/

namespace RecordMapper.BinaryFormat

variable {f : BinaryFormat}

theorem fractionCount_pos : 0 < f.fractionCount := Nat.pow_pos (by decide)

section Fields

variable {negative : Bool} {field fraction : Nat}

theorem magnitude_lt_signPlace (hf : field < f.exponentCount) (hr : fraction < f.fractionCount) :
    field * f.fractionCount + fraction < f.signPlace :=
  calc field * f.fractionCount + fraction
      < field * f.fractionCount + f.fractionCount := Nat.add_lt_add_left hr _
    _ = (field + 1) * f.fractionCount := (Nat.succ_mul ..).symm
    _ ≤ f.signPlace := Nat.mul_le_mul_right _ hf

/-- What a word denotes, by its sign, exponent field and fraction. -/
theorem datum_withSign (hf : field < f.exponentCount) (hr : fraction < f.fractionCount) :
    f.datum (f.withSign negative (field * f.fractionCount + fraction)) =
      if field = f.exponentCount - 1 then
        if fraction = 0 then .infinite negative else .nan
      else if field = 0 then .finite negative fraction f.leastExponent
      else .finite negative (f.fractionCount + fraction) (f.leastExponent + field - 1) := by
  have hlt : field * f.fractionCount + fraction < f.signPlace := magnitude_lt_signPlace hf hr
  have hfield : (field * f.fractionCount + fraction) / f.fractionCount = field := by
    rw [Nat.add_comm, Nat.add_mul_div_right _ _ fractionCount_pos, Nat.div_eq_of_lt hr,
      Nat.zero_add]
  have hfraction : (field * f.fractionCount + fraction) % f.fractionCount = fraction :=
    (Nat.mul_add_mod_self_right ..).trans (Nat.mod_eq_of_lt hr)
  generalize field * f.fractionCount + fraction = magnitude at hlt hfield hfraction ⊢
  have hsign : decide (f.signPlace ≤ f.withSign negative magnitude) = negative := by
    cases negative with
    | false => exact decide_eq_false (Nat.not_le.2 hlt)
    | true => exact decide_eq_true (Nat.le_add_right ..)
  have hmod : f.withSign negative magnitude % f.signPlace = magnitude := by
    cases negative with
    | false => exact Nat.mod_eq_of_lt hlt
    | true => exact (Nat.add_mod_left ..).trans (Nat.mod_eq_of_lt hlt)
  have hrest : f.withSign negative magnitude % f.fractionCount = fraction := by
    have hmm := Nat.mod_mul_left_mod (f.withSign negative magnitude) f.exponentCount f.fractionCount
    exact hmm.symm.trans ((congrArg (· % f.fractionCount) hmod).trans hfraction)
  simp only [datum, hsign, hmod, hfield, hrest]

/-- Every word has a sign, an exponent field and a fraction. -/
theorem exists_eq_withSign {word : Nat} (h : word < 2 * f.signPlace) :
    ∃ negative field fraction, field < f.exponentCount ∧ fraction < f.fractionCount ∧
      word = f.withSign negative (field * f.fractionCount + fraction) := by
  have hfields : ∀ q < f.signPlace, ∃ field fraction, field < f.exponentCount ∧
      fraction < f.fractionCount ∧ q = field * f.fractionCount + fraction := by
    intro q hq
    refine ⟨q / f.fractionCount, q % f.fractionCount, ?_, Nat.mod_lt _ fractionCount_pos, ?_⟩
    · exact (Nat.div_lt_iff_lt_mul fractionCount_pos).2 hq
    · exact (Nat.div_add_mod' ..).symm
  by_cases hs : word < f.signPlace
  · obtain ⟨field, fraction, hf, hr, hq⟩ := hfields word hs
    exact ⟨false, field, fraction, hf, hr, hq⟩
  · obtain ⟨field, fraction, hf, hr, hq⟩ := hfields (word - f.signPlace) (by omega)
    refine ⟨true, field, fraction, hf, hr, ?_⟩
    rw [withSign, if_pos rfl, ← hq]
    omega

end Fields

variable {m : Nat} {e : Int}

/-- `m * 2 ^ e` with the significand and the exponent that the format has for it. -/
structure Represents (f : BinaryFormat) (m : Nat) (e : Int) : Prop where
  least_le : f.leastExponent ≤ e
  lt_greatest : e - f.leastExponent + 2 < f.exponentCount
  lt_twice : m < 2 * f.fractionCount
  subnormal : m < f.fractionCount → e = f.leastExponent

/-- The word of a number but for its sign. -/
def magnitude (f : BinaryFormat) (m : Nat) (e : Int) : Nat :=
  (e - f.leastExponent).toNat * f.fractionCount + m

namespace Represents

theorem magnitude_lt_infinity (h : f.Represents m e) : f.magnitude m e < f.infinityWord := by
  obtain ⟨hle, hgt, hm, _⟩ := h
  have hk : (e - f.leastExponent).toNat + 2 ≤ f.exponentCount - 1 := by omega
  calc f.magnitude m e
      < (e - f.leastExponent).toNat * f.fractionCount + 2 * f.fractionCount :=
        Nat.add_lt_add_left hm _
    _ = ((e - f.leastExponent).toNat + 2) * f.fractionCount := (Nat.add_mul ..).symm
    _ ≤ f.infinityWord := Nat.mul_le_mul_right _ hk

theorem datum_magnitude (h : f.Represents m e) (negative : Bool) :
    f.datum (f.withSign negative (f.magnitude m e)) = .finite negative m e := by
  obtain ⟨hle, hgt, hm, hsub⟩ := h
  by_cases hs : m < f.fractionCount
  · have he := hsub hs
    have hmag : f.magnitude m e = 0 * f.fractionCount + m := by
      rw [magnitude, he, Int.sub_self, Int.toNat_zero]
    rw [hmag, datum_withSign (by omega) hs, if_neg (by omega), if_pos rfl, he]
  · -- The leading bit is counted in the exponent field.
    have hmag : f.magnitude m e =
        ((e - f.leastExponent).toNat + 1) * f.fractionCount + (m - f.fractionCount) := by
      rw [magnitude, Nat.succ_mul]
      omega
    rw [hmag, datum_withSign (by omega) (by omega), if_neg (by omega), if_neg (by omega)]
    congr 1 <;> omega

end Represents

/-- The words of finite numbers are those that the format has for what they denote. -/
theorem represents_of_datum {word : Nat} {negative : Bool} (hx : 2 < f.exponentCount)
    (hw : word < 2 * f.signPlace) (h : f.datum word = .finite negative m e) :
    f.Represents m e ∧ word = f.withSign negative (f.magnitude m e) := by
  obtain ⟨sign, field, fraction, hf, hr, rfl⟩ := exists_eq_withSign hw
  rw [datum_withSign hf hr] at h
  split at h
  next => split at h <;> cases h
  next hinf =>
    split at h
    next hzero =>
      cases h
      refine ⟨⟨Int.le_refl _, by omega, by omega, fun _ => rfl⟩, ?_⟩
      rw [magnitude, hzero, Int.sub_self, Int.toNat_zero]
    next hzero =>
      cases h
      refine ⟨⟨by omega, by omega, by omega, fun hm => by omega⟩, ?_⟩
      have hk : (f.leastExponent + (field : Int) - 1 - f.leastExponent).toNat + 1 = field := by
        omega
      rw [magnitude, ← Nat.add_assoc, ← Nat.succ_mul, Nat.succ_eq_add_one, hk]

end RecordMapper.BinaryFormat
