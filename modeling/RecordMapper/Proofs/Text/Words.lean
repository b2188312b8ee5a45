import Mathlib.Data.List.Basic
import RecordMapper.Text.AsciiCase
/-!
Where a part with a blank in it can occur in a text: only across the end of one of its words.
-/

namespace RecordMapper.Text

/-- Words of a text end at the first blank. -/
theorem firstWord_eq {p q xs rest : List Char} (hp : ' ' ∉ p) (hx : ' ' ∉ xs)
    (h : (p ++ ' ' :: q) <+: (xs ++ ' ' :: rest)) : p = xs ∧ q <+: rest := by
  induction p generalizing xs with
  | nil =>
    cases xs with
    | nil => simpa using h
    | cons x xs =>
      simp only [List.nil_append, List.cons_append, List.cons_prefix_cons] at h
      exact absurd (h.1 ▸ List.mem_cons_self) hx
  | cons a p ih =>
    simp only [List.mem_cons, not_or] at hp
    cases xs with
    | nil =>
      simp only [List.nil_append, List.cons_append, List.cons_prefix_cons] at h
      exact absurd h.1.symm hp.1
    | cons x xs =>
      simp only [List.mem_cons, not_or] at hx
      simp only [List.cons_append, List.cons_prefix_cons] at h
      obtain ⟨he, hr⟩ := ih hp.2 hx.2 h.2
      exact ⟨by rw [h.1, he], hr⟩

theorem isPrefixOf_eq_false {p xs : List Char} (h : ¬p <+: xs) : p.isPrefixOf xs = false := by
  rw [Bool.eq_false_iff, ne_eq, List.isPrefixOf_iff_prefix]
  exact h

theorem occursIn_of_start {p xs : List Char} (h : p <+: xs) : occursIn p xs = true := by
  cases xs with
  | nil =>
    rw [List.prefix_nil.1 h]
    rfl
  | cons x xs => simp [occursIn, List.isPrefixOf_iff_prefix.2 h]

theorem not_occursIn_word {p q xs : List Char} (hx : ' ' ∉ xs) :
    occursIn (p ++ ' ' :: q) xs = false := by
  induction xs with
  | nil => simp [occursIn]
  | cons x xs ih =>
    have hn : ¬(p ++ ' ' :: q) <+: (x :: xs) := fun h => hx (h.subset (by simp))
    simp only [List.mem_cons, not_or] at hx
    rw [occursIn, ih hx.2, isPrefixOf_eq_false hn, Bool.or_false]

/-- A part with a blank occurs in a text only at the end of its first word or after it. -/
theorem not_occursIn_words (xs : List Char) {p q rest : List Char} (hp : ' ' ∉ p) (hx : ' ' ∉ xs)
    (hne : p <:+ xs → ¬q <+: rest) (hr : occursIn (p ++ ' ' :: q) rest = false) :
    occursIn (p ++ ' ' :: q) (xs ++ ' ' :: rest) = false := by
  induction xs with
  | nil =>
    have hn : ¬(p ++ ' ' :: q) <+: (' ' :: rest) := by
      intro h
      obtain ⟨rfl, hq⟩ := @firstWord_eq p q [] rest hp hx h
      exact hne (List.suffix_refl _) hq
    rw [List.nil_append, occursIn, hr, isPrefixOf_eq_false hn, Bool.or_false]
  | cons x xs ih =>
    have hn : ¬(p ++ ' ' :: q) <+: (x :: xs ++ ' ' :: rest) := by
      intro h
      obtain ⟨rfl, hq⟩ := firstWord_eq hp hx h
      exact hne (List.suffix_refl _) hq
    simp only [List.mem_cons, not_or] at hx
    have hi := ih hx.2 fun h => hne (h.trans (List.suffix_cons x xs))
    rw [List.cons_append, occursIn, hi, ← List.cons_append, isPrefixOf_eq_false hn, Bool.or_false]

end RecordMapper.Text
