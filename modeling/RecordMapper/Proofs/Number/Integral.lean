import RecordMapper.Proofs.Number.Rounding
/-!
When a binary number is an integer, and which one.
-/

namespace RecordMapper.Datum

/-- The rational number that a finite datum denotes. -/
def value? : Datum → Option ℚ
  | finite negative m e => some ((if negative then -1 else 1) * (m * 2 ^ e))
  | _ => none

variable {m n : Nat} {e : Int}

theorem mul_two_zpow_eq_iff : (m : ℚ) * 2 ^ e = n ↔ scaleUp m e = n * 2 ^ (-e).toNat := by
  have hne : (2 : ℚ) ^ (-e).toNat ≠ 0 := pow_ne_zero _ (by decide)
  rw [← mul_left_inj' hne, ← cast_scaleUp_eq]
  norm_cast

theorem magnitude_eq_some_iff :
    (if 0 ≤ e then some (m * Nat.pow 2 e.toNat)
      else if m % Nat.pow 2 (-e).toNat = 0 then some (m / Nat.pow 2 (-e).toNat)
      else none) = some n ↔ (m : ℚ) * 2 ^ e = n := by
  rw [mul_two_zpow_eq_iff, scaleUp]
  split
  next he =>
    have hunit : (-e).toNat = 0 := by omega
    rw [hunit, pow_zero, mul_one, Option.some.injEq]
  next he =>
    have hunit : e.toNat = 0 := by omega
    have hpos : 0 < 2 ^ (-e).toNat := Nat.pow_pos (by decide)
    simp only [hunit, Nat.pow_eq, pow_zero, mul_one, Option.ite_none_right_eq_some,
      Option.some.injEq]
    constructor
    · rintro ⟨hrest, rfl⟩
      exact (Nat.div_mul_cancel (Nat.dvd_of_mod_eq_zero hrest)).symm
    · rintro rfl
      exact ⟨Nat.mul_mod_left .., Nat.mul_div_cancel _ hpos⟩

theorem exists_nat_of_nonneg {q : ℚ} {z : Int} (hq : 0 ≤ q) (h : q = z) :
    ∃ n : Nat, q = n ∧ (n : Int) = z := by
  have hz : 0 ≤ z := by exact_mod_cast h ▸ hq
  obtain ⟨n, rfl⟩ := Int.eq_ofNat_of_zero_le hz
  exact ⟨n, h, rfl⟩

/-- A datum has an integer exactly when its rational number is that integer. -/
theorem integer?_eq_some_iff {d : Datum} {z : Int} :
    d.integer? = some z ↔ d.value? = some (z : ℚ) := by
  cases d with
  | nan | infinite negative => exact iff_of_false nofun nofun
  | finite negative m e =>
    have hnonneg : (0 : ℚ) ≤ m * 2 ^ e := by positivity
    simp only [integer?, value?, Option.map_eq_some_iff, magnitude_eq_some_iff, Option.some.injEq]
    constructor
    · rintro ⟨n, hn, rfl⟩
      cases negative with
      | false => simp [hn]
      | true => simp [hn]
    · intro h
      cases negative with
      | false =>
        rw [if_neg (by decide), one_mul] at h
        exact exists_nat_of_nonneg hnonneg h
      | true =>
        rw [if_pos rfl, neg_one_mul, neg_eq_iff_eq_neg, ← Int.cast_neg] at h
        obtain ⟨n, hn, hz⟩ := exists_nat_of_nonneg hnonneg h
        refine ⟨n, hn, ?_⟩
        rw [if_pos rfl, hz, neg_neg]

end RecordMapper.Datum
