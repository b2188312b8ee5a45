import RecordMapper.Text.AsciiCase
import RecordMapper.Text.Blank
import RecordMapper.Text.CaseFold
import Mathlib.Data.List.Basic
/-!
Plain identifiers: ASCII letters, digits and underscores, no digit first. On their characters simple
case folding is the case of ASCII letters, and none of them is a blank or a mark of punctuation.
-/

namespace RecordMapper.Text

def isWordChar (c : Char) : Bool := c.isAlphanum || c == '_'

def isPlain (s : String) : Bool :=
  match s.toList with
  | [] => false
  | c :: rest => isWordChar c && !c.isDigit && rest.all isWordChar

theorem toNat_le_of_isUpper {c : Char} (h : c.isUpper = true) : c.toNat ≤ 'Z'.toNat :=
  UInt32.le_iff_toNat_le.1 (of_decide_eq_true h).2

theorem toNat_le_of_isLower {c : Char} (h : c.isLower = true) : c.toNat ≤ 'z'.toNat :=
  UInt32.le_iff_toNat_le.1 (of_decide_eq_true (Bool.and_eq_true_iff.1 h).2)

theorem toNat_le_of_isDigit {c : Char} (h : c.isDigit = true) : c.toNat ≤ '9'.toNat :=
  UInt32.le_iff_toNat_le.1 (of_decide_eq_true (Bool.and_eq_true_iff.1 h).2)

theorem toNat_lt_of_isWordChar {c : Char} (h : isWordChar c = true) : c.toNat < 128 := by
  rcases Bool.or_eq_true_iff.1 h with h | h
  · rcases Bool.or_eq_true_iff.1 h with h | h
    · rcases Bool.or_eq_true_iff.1 h with h | h
      · exact Nat.lt_of_le_of_lt (toNat_le_of_isUpper h) (by decide)
      · exact Nat.lt_of_le_of_lt (toNat_le_of_isLower h) (by decide)
    · exact Nat.lt_of_le_of_lt (toNat_le_of_isDigit h) (by decide)
  · rw [beq_iff_eq] at h
    rw [h]
    decide

/-- A property of word characters holds when it holds of the ASCII ones. -/
theorem wordChar_induction {p : Char → Prop}
    (h : ∀ n : Fin 128, isWordChar (Char.ofNat n) = true → p (Char.ofNat n)) {c : Char}
    (hc : isWordChar c = true) : p c := by
  have hn := h ⟨c.toNat, toNat_lt_of_isWordChar hc⟩
  simp only [Char.ofNat_toNat] at hn
  exact hn hc

/-- Of the runs of folded characters only the first begins in ASCII. -/
theorem simpleFold_of_lt {c : Char} (h : c.toNat < 128) : simpleFold c = c.toLower := by
  have hruns : foldRuns = (0x41, 0x5a, 1, 32) :: foldRuns.tail := rfl
  have htail : foldRuns.tail.all (128 ≤ ·.1) = true := by decide +kernel
  have hall : ∀ n : Fin 128, (if 0x41 ≤ n.val ∧ n.val ≤ 0x5a then Char.ofNat (n + 32)
      else Char.ofNat n) = (Char.ofNat n).toLower := by
    decide +kernel
  have hc := hall ⟨c.toNat, h⟩
  simp only [Char.ofNat_toNat] at hc
  rw [← hc, simpleFold]
  split
  next first last step distance hfind =>
    have hmatch := List.find?_some hfind
    simp only [Bool.and_eq_true, decide_eq_true_eq] at hmatch
    have hmem := List.mem_of_find?_eq_some hfind
    rw [hruns, List.mem_cons] at hmem
    rcases hmem with hrun | hrun
    · cases hrun
      rw [if_pos hmatch.1]
      congr 1
    · have hfirst := List.all_eq_true.1 htail _ hrun
      simp only [decide_eq_true_eq] at hfirst
      omega
  next hfind =>
    rw [if_neg]
    intro hu
    rw [List.find?_eq_none] at hfind
    apply hfind _ (hruns ▸ List.mem_cons_self)
    simp [hu, Nat.mod_one]

theorem sameFold_iff {a b : Char} (ha : a.toNat < 128) (hb : b.toNat < 128) :
    sameFold a b = true ↔ a.toLower = b.toLower := by
  simp [sameFold, simpleFold_of_lt ha, simpleFold_of_lt hb]

/-- A function of characters ignores case when it does so on ASCII. -/
theorem toLower_congr {α : Type} {f : Char → α}
    (h : ∀ n : Fin 128, f (Char.ofNat n).toLower = f (Char.ofNat n)) (c : Char) :
    f c.toLower = f c := by
  by_cases hu : c.val ≥ 'A'.val ∧ c.val ≤ 'Z'.val
  · have hn : c.toNat < 128 := Nat.lt_of_le_of_lt (UInt32.le_iff_toNat_le.1 hu.2) (by decide)
    simpa only [Char.ofNat_toNat] using h ⟨c.toNat, hn⟩
  · have hc : c.toLower = c := dif_neg hu
    rw [hc]

theorem isWordChar_toLower (c : Char) : isWordChar c.toLower = isWordChar c :=
  toLower_congr (by decide +kernel) c

theorem isDigit_toLower (c : Char) : c.toLower.isDigit = c.isDigit :=
  toLower_congr (f := Char.isDigit) (by decide +kernel) c

theorem toList_lower (s : String) : (lower s).toList = s.toList.map Char.toLower := by
  simp [lower]

theorem lower_eq_iff {a b : String} :
    lower a = lower b ↔ a.toList.map Char.toLower = b.toList.map Char.toLower := by
  rw [← toList_lower, ← toList_lower, String.toList_inj]

theorem isPlain_lower (s : String) : isPlain (lower s) = isPlain s := by
  simp only [isPlain, toList_lower]
  cases s.toList with
  | nil => rfl
  | cons c rest => simp [isWordChar_toLower, isDigit_toLower, List.all_map, Function.comp_def]

/-- Names that agree up to case are plain together. -/
theorem isPlain_congr {a b : String} (h : lower a = lower b) : isPlain a = isPlain b := by
  rw [← isPlain_lower a, h, isPlain_lower]

theorem isWordChar_of_isPlain {s : String} (h : isPlain s = true) :
    ∀ c ∈ s.toList, isWordChar c = true := by
  simp only [isPlain] at h
  cases hs : s.toList with
  | nil => simp [hs] at h
  | cons c rest =>
    simp only [hs, Bool.and_eq_true, List.all_eq_true] at h
    intro d hd
    rcases List.mem_cons.1 hd with rfl | hd
    · exact h.1.1
    · exact h.2 d hd

theorem toList_ne_nil_of_isPlain {s : String} (h : isPlain s = true) : s.toList ≠ [] := by
  intro hs
  simp [isPlain, hs] at h

theorem isBlank_of_isWordChar {c : Char} (h : isWordChar c = true) : isBlank c = false := by
  apply wordChar_induction (p := fun c => isBlank c = false) _ h
  decide +kernel

end RecordMapper.Text
