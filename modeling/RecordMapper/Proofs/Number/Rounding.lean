import Mathlib.Algebra.Order.Field.Power
import Mathlib.Algebra.Order.Field.Rat
import Mathlib.Tactic.Positivity
import Mathlib.Tactic.Ring
import RecordMapper.Proofs.Number.Words
/-!
Rounding leaves alone what the format has. So a 32-bit number comes back from 64 bits.
-/

namespace RecordMapper

theorem roundQuotient_mul (m : Nat) {den : Nat} (h : 0 < den) :
    roundQuotient (m * den) den = m := by
  simp only [roundQuotient, Nat.mul_div_cancel m h, Nat.mul_mod_left, Nat.mul_zero, h, if_true]

theorem scaleUp_pos {n : Nat} (h : 0 < n) (e : Int) : 0 < scaleUp n e :=
  Nat.mul_pos h (Nat.pow_pos (by decide))

theorem two_zpow_mul (e : Int) : (2 : ℚ) ^ e * 2 ^ (-e).toNat = 2 ^ e.toNat := by
  cases e with
  | ofNat n =>
    have hneg : (-Int.ofNat n).toNat = 0 := by simp
    rw [hneg, pow_zero, mul_one]
    rfl
  | negSucc n =>
    have hneg : (-Int.negSucc n).toNat = n + 1 := rfl
    rw [hneg, zpow_negSucc, inv_mul_cancel₀ (by positivity)]
    rfl

theorem cast_scaleUp (n : Nat) (e : Int) : (scaleUp n e : ℚ) = n * 2 ^ e.toNat := by
  rw [scaleUp, Nat.pow_eq]
  push_cast
  rfl

/-- Both sides of a comparison may be scaled up to make it one of whole numbers. -/
theorem cast_scaleUp_eq (n : Nat) (e : Int) :
    (scaleUp n e : ℚ) = n * 2 ^ e * 2 ^ (-e).toNat := by
  rw [cast_scaleUp, mul_assoc, two_zpow_mul]

theorem scaleUp_le_iff {num den : Nat} {e : Int} :
    scaleUp den e ≤ scaleUp num (-e) ↔ (den : ℚ) * 2 ^ e ≤ num := by
  have hpos : (0 : ℚ) < 2 ^ (-e).toNat := by positivity
  rw [← Nat.cast_le (α := ℚ), cast_scaleUp_eq den, cast_scaleUp num, mul_le_mul_iff_left₀ hpos]

namespace BinaryFormat

theorem leadingExponent_spec {num den : Nat} (hn : num ≠ 0) (hd : den ≠ 0) :
    (den : ℚ) * 2 ^ leadingExponent num den ≤ num ∧
      (num : ℚ) < den * 2 ^ (leadingExponent num den + 1) := by
  have htwo : (2 : ℚ) ≠ 0 := by decide
  have hnum : (2 : ℚ) ^ (num.log2 : Int) ≤ num := by
    exact_mod_cast Nat.log2_self_le hn
  have hnum' : (num : ℚ) < 2 ^ (num.log2 + 1 : Int) := by
    exact_mod_cast Nat.lt_log2_self
  have hden : (2 : ℚ) ^ (den.log2 : Int) ≤ den := by
    exact_mod_cast Nat.log2_self_le hd
  have hden' : (den : ℚ) < 2 ^ (den.log2 + 1 : Int) := by
    exact_mod_cast Nat.lt_log2_self
  rw [leadingExponent]
  split
  next h =>
    refine ⟨scaleUp_le_iff.1 h, ?_⟩
    calc (num : ℚ) < 2 ^ (num.log2 + 1 : Int) := hnum'
      _ = 2 ^ (den.log2 : Int) * 2 ^ (num.log2 - den.log2 + 1 : Int) := by
        rw [← zpow_add₀ htwo]
        congr 1
        omega
      _ ≤ den * 2 ^ (num.log2 - den.log2 + 1 : Int) := by gcongr
  next h =>
    constructor
    · calc (den : ℚ) * 2 ^ (num.log2 - den.log2 - 1 : Int)
          ≤ 2 ^ (den.log2 + 1 : Int) * 2 ^ (num.log2 - den.log2 - 1 : Int) := by gcongr
        _ = 2 ^ (num.log2 : Int) := by
          rw [← zpow_add₀ htwo]
          congr 1
          omega
        _ ≤ num := hnum
    · rw [sub_add_cancel]
      exact not_le.1 fun hle => h (scaleUp_le_iff.2 hle)

variable {f : BinaryFormat} {m num den : Nat} {e : Int}

/-- The leading exponent is the place of the leading bit of a normal significand. -/
theorem leadingExponent_lt {k : Int} (hn : num ≠ 0) (hd : den ≠ 0)
    (h : (num : ℚ) < den * 2 ^ k) : leadingExponent num den < k := by
  have hpos : (0 : ℚ) < den := by exact_mod_cast Nat.pos_of_ne_zero hd
  have hlt := (leadingExponent_spec hn hd).1.trans_lt h
  rwa [mul_lt_mul_iff_right₀ hpos, zpow_lt_zpow_iff_right₀ (by decide)] at hlt

theorem le_leadingExponent {k : Int} (hn : num ≠ 0) (hd : den ≠ 0)
    (h : (den : ℚ) * 2 ^ k ≤ num) : k ≤ leadingExponent num den := by
  have hpos : (0 : ℚ) < den := by exact_mod_cast Nat.pos_of_ne_zero hd
  have hlt := h.trans_lt (leadingExponent_spec hn hd).2
  rw [mul_lt_mul_iff_right₀ hpos, zpow_lt_zpow_iff_right₀ (by decide)] at hlt
  omega

namespace Represents

/-- Rounding finds the exponent that the format has for the number. -/
theorem exponent_eq (h : f.Represents m e) (hp : 0 < f.precision) (hn : num ≠ 0) (hd : den ≠ 0)
    (hv : (num : ℚ) = den * (m * 2 ^ e)) :
    max (leadingExponent num den - (f.precision - 1)) f.leastExponent = e := by
  have htwo : (2 : ℚ) ≠ 0 := by decide
  have hpos : (0 : ℚ) < den := by exact_mod_cast Nat.pos_of_ne_zero hd
  have hcount : (f.fractionCount : ℚ) = 2 ^ (f.precision - 1 : Int) := by
    rw [fractionCount, Nat.pow_eq, Nat.cast_pow, ← zpow_natCast, Nat.cast_sub hp]
    rfl
  have hle := h.least_le
  -- Below the normal numbers the least exponent is the greater of the two.
  by_cases hs : m < f.fractionCount
  · have hlt : (num : ℚ) < den * 2 ^ (f.precision - 1 + e : Int) := by
      rw [hv, zpow_add₀ htwo, ← hcount]
      gcongr
    have hlead := leadingExponent_lt hn hd hlt
    have he := h.subnormal hs
    omega
  · have hlow : (den : ℚ) * 2 ^ (f.precision - 1 + e : Int) ≤ num := by
      rw [hv, zpow_add₀ htwo, ← hcount]
      gcongr
      exact_mod_cast not_lt.1 hs
    have hhigh : (num : ℚ) < den * 2 ^ (f.precision - 1 + e + 1 : Int) := by
      have hm2 : (m : ℚ) < 2 * f.fractionCount := by exact_mod_cast h.lt_twice
      calc (num : ℚ) = den * (m * 2 ^ e) := hv
        _ < den * (2 * f.fractionCount * 2 ^ e) := by gcongr
        _ = den * 2 ^ (f.precision - 1 + e + 1 : Int) := by
          rw [hcount, zpow_add₀ htwo, zpow_add₀ htwo, zpow_one]
          ring
    have hlead := leadingExponent_lt hn hd hhigh
    have hlead' := le_leadingExponent hn hd hlow
    omega

theorem nearest_eq (h : f.Represents m e) (hp : 0 < f.precision) (hd : den ≠ 0)
    (hv : (num : ℚ) = den * (m * 2 ^ e)) (negative : Bool) :
    f.nearest negative num den = f.withSign negative (f.magnitude m e) := by
  have hpos : (den : ℚ) ≠ 0 := by exact_mod_cast hd
  by_cases hm : m = 0
  · have hn : num = 0 := by
      rw [hm, Nat.cast_zero, zero_mul, mul_zero] at hv
      exact_mod_cast hv
    have he := h.subnormal (hm ▸ fractionCount_pos)
    rw [nearest, if_pos hn, magnitude, he, hm, Int.sub_self, Int.toNat_zero, Nat.zero_mul]
  · have hn : num ≠ 0 := by
      rintro rfl
      have htwo : (2 : ℚ) ^ e ≠ 0 := zpow_ne_zero e (by decide)
      have hm' : (m : ℚ) ≠ 0 := by exact_mod_cast hm
      exact mul_ne_zero hpos (mul_ne_zero hm' htwo) (by rw [← hv, Nat.cast_zero])
    have hscale : scaleUp num (-e) = m * scaleUp den e := by
      have hq : (scaleUp num (-e) : ℚ) = (m * scaleUp den e : Nat) := by
        rw [cast_scaleUp, Nat.cast_mul, cast_scaleUp_eq, hv]
        ring
      exact_mod_cast hq
    have hden : 0 < scaleUp den e := scaleUp_pos (Nat.pos_of_ne_zero hd) e
    simp only [nearest, if_neg hn, h.exponent_eq hp hn hd hv, hscale, roundQuotient_mul m hden]
    exact congrArg _ (Nat.min_eq_left h.magnitude_lt_infinity.le)

/-- The word of a datum that the format has a number for. -/
theorem ofDatum_eq {n : Nat} {d : Int} (h : f.Represents m e) (hp : 0 < f.precision)
    (hv : (n : ℚ) * 2 ^ d = m * 2 ^ e) (negative : Bool) :
    f.ofDatum (.finite negative n d) = f.withSign negative (f.magnitude m e) := by
  refine h.nearest_eq hp (scaleUp_pos Nat.one_pos _).ne' ?_ negative
  rw [cast_scaleUp_eq, cast_scaleUp, hv, Nat.cast_one, one_mul]
  ring

end Represents

/-- Every 32-bit number is one of 64 bits, with all places of the significand in use. -/
theorem exists_double (h : single.Represents m e) :
    ∃ n d, double.Represents n d ∧ (n : ℚ) * 2 ^ d = m * 2 ^ e ∧ (n = 0 ↔ m = 0) := by
  have hcount : double.fractionCount = 2 ^ 52 := rfl
  have hleast : double.leastExponent = -1074 := rfl
  have hexp : double.exponentCount = 2048 := rfl
  by_cases hm : m = 0
  · refine ⟨0, double.leastExponent, ⟨Int.le_refl _, ?_, ?_, fun _ => rfl⟩, ?_, by simp [hm]⟩
    · rw [Int.sub_self, hexp]
      decide
    · rw [hcount]
      decide
    · rw [hm, Nat.cast_zero, zero_mul, zero_mul]
  · have hlow : 2 ^ m.log2 ≤ m := Nat.log2_self_le hm
    have hhigh : m < 2 ^ (m.log2 + 1) := Nat.lt_log2_self
    have hlog : m.log2 < 24 := (Nat.log2_lt hm).2 h.lt_twice
    have hle : -149 ≤ e := h.least_le
    have hgt : e - -149 + 2 < 256 := h.lt_greatest
    let k := 52 - m.log2
    have hfull : 2 ^ 52 ≤ m * 2 ^ k := by
      calc 2 ^ 52 = 2 ^ m.log2 * 2 ^ k := by rw [← Nat.pow_add]; congr 1; omega
        _ ≤ m * 2 ^ k := Nat.mul_le_mul_right _ hlow
    have hlt : m * 2 ^ k < 2 * 2 ^ 52 := by
      calc m * 2 ^ k < 2 ^ (m.log2 + 1) * 2 ^ k := Nat.mul_lt_mul_of_pos_right hhigh (by positivity)
        _ = 2 * 2 ^ 52 := by rw [← Nat.pow_add, ← Nat.pow_succ']; congr 1; omega
    refine ⟨m * 2 ^ k, e - k, ⟨by omega, by omega, hlt, fun hs => by omega⟩, ?_, ?_⟩
    · have htwo : (2 : ℚ) ≠ 0 := by decide
      rw [Nat.cast_mul, Nat.cast_pow, Nat.cast_two, mul_assoc, ← zpow_natCast, ← zpow_add₀ htwo,
        add_sub_cancel]
    · simp [hm]

theorem Represents.double_lt (h : double.Represents m e) {negative : Bool} :
    double.withSign negative (double.magnitude m e) < 2 ^ 64 := by
  have hlt : double.magnitude m e < 2 ^ 63 := Nat.lt_trans h.magnitude_lt_infinity (by decide)
  cases negative with
  | false => exact Nat.lt_trans hlt (by decide)
  | true => exact Nat.add_lt_add_left hlt (2 ^ 63)

end BinaryFormat

theorem Binary32.represents_of_datum {x : Binary32} {negative : Bool} {m : Nat} {e : Int}
    (h : x.datum = .finite negative m e) :
    BinaryFormat.single.Represents m e ∧
      x.word.toNat = BinaryFormat.single.withSign negative (BinaryFormat.single.magnitude m e) :=
  BinaryFormat.represents_of_datum (by decide) x.word.toNat_lt h

/-- A finite 32-bit number comes back from 64 bits. -/
theorem Binary32.narrow?_widen {x : Binary32} (h : x.datum.isFinite = true) :
    x.widen.narrow? = some x := by
  cases hx : x.datum with
  | nan => simp [hx, Datum.isFinite] at h
  | infinite negative => simp [hx, Datum.isFinite] at h
  | finite negative m e =>
    obtain ⟨hs, hword⟩ := represents_of_datum hx
    obtain ⟨n, d, hd, hv, hzero⟩ := BinaryFormat.exists_double hs
    have hwide : x.widen.datum = .finite negative n d := by
      rw [widen, hx, hd.ofDatum_eq (by decide) hv.symm, Binary64.datum,
        UInt64.toNat_ofNat_of_lt' hd.double_lt, hd.datum_magnitude]
    have hback : UInt32.ofNat (BinaryFormat.single.ofDatum x.widen.datum) = x.word := by
      rw [hwide, hs.ofDatum_eq (by decide) hv, ← hword, UInt32.ofNat_toNat]
    have hkept : x.widen.datum.isZero = true ∨ x.datum.isZero = false := by
      rw [hwide, hx]
      cases m with
      | zero =>
        rw [hzero.2 rfl]
        exact .inl rfl
      | succ m => exact .inr rfl
    have hfinite : x.widen.datum.isFinite = true := by
      rw [hwide]
      rfl
    rw [Binary64.narrow?, hback, if_pos hfinite, if_pos]
    simpa [h] using hkept

end RecordMapper
