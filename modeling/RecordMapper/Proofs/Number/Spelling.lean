import RecordMapper.Number.Layout
import RecordMapper.Timestamp
/-!
The characters that numbers and times are written with.
-/

namespace RecordMapper

/-- A letter or digit, a point, a colon or a minus sign. -/
def isSpelling (c : Char) : Bool := c.isAlphanum || c == '.' || c == ':' || c == '-'

def Spelled (cs : List Char) : Prop := ∀ c ∈ cs, isSpelling c = true

instance (cs : List Char) : Decidable (Spelled cs) :=
  List.decidableBAll (isSpelling · = true) cs

@[simp] theorem spelled_nil : Spelled [] := List.forall_mem_nil _

@[simp] theorem spelled_cons {c : Char} {cs : List Char} :
    Spelled (c :: cs) ↔ isSpelling c = true ∧ Spelled cs :=
  List.forall_mem_cons

@[simp] theorem spelled_append {xs ys : List Char} : Spelled (xs ++ ys) ↔ Spelled xs ∧ Spelled ys :=
  List.forall_mem_append

theorem Spelled.not_mem {cs : List Char} (h : Spelled cs) {c : Char} (hc : isSpelling c = false) :
    c ∉ cs := by
  intro hm
  rw [h c hm] at hc
  cases hc

theorem Spelled.sublist {xs ys : List Char} (h : Spelled ys) (hs : xs.Sublist ys) : Spelled xs :=
  fun c hc => h c (hs.subset hc)

@[simp] theorem spelled_toDigits (n : Nat) : Spelled (Nat.toDigits 10 n) := by
  intro c hc
  have hd := Nat.isDigit_of_mem_toDigits (by decide) (by decide) hc
  simp [isSpelling, Char.isAlphanum, hd]

@[simp] theorem spelled_zeros (n : Nat) : Spelled (List.replicate n '0') := by
  intro c hc
  rw [List.eq_of_mem_replicate hc]
  rfl

theorem Numeral.spelled_ofNat (n : Nat) : Spelled (ofNat n).toList := by
  rw [ofNat, String.toList_ofList]
  exact spelled_toDigits n

theorem Numeral.spelled_ofInt (i : Int) : Spelled (ofInt i).toList := by
  cases i with
  | ofNat n => exact spelled_ofNat n
  | negSucc n =>
    rw [ofInt, String.toList_append, spelled_append]
    exact ⟨by decide, spelled_ofNat _⟩

theorem FloatLayout.spelled_placePoint {digits : List Char} (h : Spelled digits) (point : Int) :
    Spelled (placePoint "" digits point) := by
  have hpoint : isSpelling '.' = true := rfl
  have hzero : isSpelling '0' = true := rfl
  rw [placePoint, zeros]
  split
  · simp [hpoint, hzero, h]
  · split
    · simp [zeros, h]
    · have htake := h.sublist (List.take_sublist point.toNat digits)
      have hdrop := h.sublist (List.drop_sublist point.toNat digits)
      simp [hpoint, htake, hdrop]

theorem Datum.spelled_plainText (f : BinaryFormat) (d : Datum) :
    Spelled (d.plainText f).toList := by
  cases d with
  | nan => exact (by decide : Spelled "NaN".toList)
  | infinite negative =>
    cases negative with
    | false => exact (by decide : Spelled "inf".toList)
    | true => exact (by decide : Spelled "-inf".toList)
  | finite negative m e =>
    have hsign : Spelled (if negative then ['-'] else []) := by cases negative <;> decide
    rw [plainText, FloatLayout.finite, String.toList_ofList, spelled_append]
    refine ⟨hsign, ?_⟩
    split
    · decide
    · exact FloatLayout.spelled_placePoint (spelled_toDigits _) _

namespace Timestamp

@[simp] theorem spelled_padded (width n : Nat) : Spelled (padded width n) := by
  simp [padded]

theorem spelled_yearText (year : Int) : Spelled (yearText year) := by
  have hminus : isSpelling '-' = true := rfl
  rw [yearText]
  split <;> simp [hminus]

theorem spelled_fractionText (nanoseconds : Nat) : Spelled (fractionText nanoseconds) := by
  have hpoint : isSpelling '.' = true := rfl
  rw [fractionText]
  split
  · exact spelled_nil
  · have hrest := (List.dropWhile_sublist (· == '0') (l := (padded 9 nanoseconds).reverse)).reverse
    rw [List.reverse_reverse] at hrest
    exact spelled_cons.2 ⟨hpoint, (spelled_padded 9 nanoseconds).sublist hrest⟩

theorem spelled_text (t : Timestamp) : Spelled t.text.toList := by
  have hmarks : isSpelling '-' = true ∧ isSpelling ':' = true ∧ isSpelling 'T' = true ∧
      isSpelling 'Z' = true := by decide
  rw [text, String.toList_ofList]
  simp [hmarks, spelled_yearText, spelled_fractionText]

end Timestamp

end RecordMapper
