import Mathlib.Data.List.DropRight
import RecordMapper.Text.Blank
/-!
A trimmed text is what is left of a text without the blanks at both its ends.
-/

namespace RecordMapper.Text

/-- The text `t` with any blanks around it. -/
def Pads (s t : List Char) : Prop :=
  ∃ left right, s = left ++ t ++ right ∧ (∀ c ∈ left, isBlank c = true) ∧
    ∀ c ∈ right, isBlank c = true

/-- The text `s` is `t` with any blanks around it, and `t` has none at its ends. -/
structure Trims (s t : List Char) : Prop where
  pads : Pads s t
  head : ∀ c ∈ t.head?, isBlank c = false
  last : ∀ c ∈ t.getLast?, isBlank c = false

variable {s t left right : List Char}

theorem dropWhile_of_head (h : ∀ c ∈ s.head?, isBlank c = false) : s.dropWhile isBlank = s := by
  cases s with
  | nil => rfl
  | cons c s => exact List.dropWhile_cons_of_neg (by simp [h c rfl])

theorem trimList_of_ends (hh : ∀ c ∈ s.head?, isBlank c = false)
    (hl : ∀ c ∈ s.getLast?, isBlank c = false) : trimList s = s := by
  rw [← List.head?_reverse] at hl
  rw [trimList, dropWhile_of_head hh, dropWhile_of_head hl, List.reverse_reverse]

theorem trimList_append_left (h : ∀ c ∈ left, isBlank c = true) :
    trimList (left ++ s) = trimList s := by
  rw [trimList, List.dropWhile_append_of_pos h, ← trimList]

theorem trimList_append_right (h : ∀ c ∈ right, isBlank c = true) :
    trimList (s ++ right) = trimList s := by
  have hrev : ∀ c ∈ right.reverse, isBlank c = true := by
    intro c hc
    exact h c (List.mem_reverse.1 hc)
  rw [trimList, trimList, List.dropWhile_append]
  split
  next hs =>
    -- Nothing but blanks: what stands before the other blanks is gone already.
    have hright : right.dropWhile isBlank = [] := List.dropWhile_eq_nil_iff.2 h
    rw [hright, List.isEmpty_iff.1 hs]
  next => rw [List.reverse_append, List.dropWhile_append_of_pos hrev]

theorem Pads.trimList_eq (h : Pads s t) : trimList s = trimList t := by
  obtain ⟨left, right, rfl, hl, hr⟩ := h
  rw [trimList_append_right hr, trimList_append_left hl]

theorem pads_trimList (s : List Char) : Pads s (trimList s) := by
  refine ⟨s.takeWhile isBlank, (s.dropWhile isBlank).rtakeWhile isBlank, ?_, ?_, ?_⟩
  · have htail : trimList s ++ (s.dropWhile isBlank).rtakeWhile isBlank = s.dropWhile isBlank :=
      List.rdropWhile_append_rtakeWhile
    rw [List.append_assoc, htail, List.takeWhile_append_dropWhile]
  · intro c hc
    exact List.mem_takeWhile_imp hc
  · intro c hc
    exact List.mem_rtakeWhile_imp hc

theorem trims_trimList (s : List Char) : Trims s (trimList s) where
  pads := pads_trimList s
  head := by
    intro c hc
    have hd := List.head?_dropWhile_not isBlank s
    obtain ⟨rest, hrest⟩ : trimList s <+: s.dropWhile isBlank := List.rdropWhile_prefix isBlank _
    rwa [← hrest, List.head?_append, hc, Option.some_or] at hd
  last := by
    intro c hc
    obtain ⟨hne, rfl⟩ := List.mem_getLast?_eq_getLast hc
    exact Bool.eq_false_iff.2 (List.rdropWhile_last_not isBlank _ hne)

theorem trimList_eq_iff : trimList s = t ↔ Trims s t := by
  constructor
  · rintro rfl
    exact trims_trimList s
  · intro h
    rw [h.pads.trimList_eq, trimList_of_ends h.head h.last]

theorem trim_eq_iff {s t : String} : trim s = t ↔ Trims s.toList t.toList := by
  rw [← trimList_eq_iff, trim, ← String.toList_inj, String.toList_ofList]

end RecordMapper.Text
