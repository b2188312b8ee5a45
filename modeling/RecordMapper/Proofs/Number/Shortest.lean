import RecordMapper.Number.Shortest
import RecordMapper.Proofs.Number.Rounding
/-!
The shortest decimal of a number lies in the interval that rounds to the number.
-/

namespace RecordMapper

namespace RoundingInterval

variable {r : RoundingInterval} {tie : TieRule}

theorem contains_of_onGrid? {k : Int} {c : Nat} (h : r.onGrid? tie k = some c) :
    r.contains c k = true := by
  unfold onGrid? at h
  dsimp only at h
  split at h
  next h₁ _ => exact Option.some.inj h ▸ h₁
  next _ h₂ => exact Option.some.inj h ▸ h₂
  next => cases h
  next h₁ h₂ =>
    split at h
    · exact Option.some.inj h ▸ h₁
    split at h
    · exact Option.some.inj h ▸ h₂
    cases tie with
    | up => exact Option.some.inj h ▸ h₂
    | even =>
      rw [← Option.some.inj h]
      split
      · exact h₁
      · exact h₂

theorem contains_of_shortestFrom {fuel : Nat} {k : Int} {d : Decimal}
    (h : r.shortestFrom tie fuel k = some d) : r.contains d.digits d.exponent = true := by
  induction fuel generalizing k with
  | zero => cases h
  | succ fuel ih =>
    rw [shortestFrom] at h
    split at h
    next hc => exact Option.some.inj h ▸ contains_of_onGrid? hc
    next => exact ih h

/-- Zero is outside an interval of positive numbers. -/
theorem ne_zero_of_contains {c : Nat} {k : Int} (hlow : 0 < r.low) (h : r.contains c k = true) :
    c ≠ 0 := by
  rintro rfl
  have hpos : 0 < r.low * Nat.pow 10 (-k).toNat := Nat.mul_pos hlow (Nat.pow_pos (by decide))
  unfold contains at h
  dsimp only at h
  rw [Nat.zero_mul, Nat.zero_mul] at h
  split at h
  · simp only [Bool.and_eq_true, decide_eq_true_eq] at h
    omega
  · simp only [Bool.and_eq_true, decide_eq_true_eq] at h
    omega

theorem ofBinary_low_pos (f : BinaryFormat) {m : Nat} (e : Int) (h : m ≠ 0) :
    0 < (ofBinary f m e).low := by
  have hbelow : (if m = f.fractionCount ∧ f.leastExponent < e then 1 else 2) ≤ 2 := by
    split <;> decide
  exact Nat.mul_pos (by omega) (scaleUp_pos (by decide) _)

end RoundingInterval

theorem BinaryFormat.shortest_digits_ne_zero (f : BinaryFormat) (tie : TieRule) {m : Nat} (e : Int)
    (h : m ≠ 0) : (f.shortest tie m e).digits ≠ 0 := by
  unfold shortest
  cases hd : (RoundingInterval.ofBinary f m e).shortestFrom tie 24 (ceilingExponent m e) with
  | none => exact h
  | some d =>
    exact RoundingInterval.ne_zero_of_contains (RoundingInterval.ofBinary_low_pos f e h)
      (RoundingInterval.contains_of_shortestFrom hd)

end RecordMapper
