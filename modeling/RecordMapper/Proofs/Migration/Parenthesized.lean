import RecordMapper.Migration.Uniqueness
import RecordMapper.Proofs.Text.Plain
/-!
The search for a name that stands alone in parentheses, and the texts that it finds.
-/

namespace RecordMapper

open Text Remainders

/-- Between its parentheses a name has blanks around it and may be quoted. A quoting mark need not
have a partner. Letters match without regard to case. -/
def EnclosesAlone (name inside : List Char) : Prop :=
  ∃ left opening word closing right, inside = left ++ opening ++ word ++ closing ++ right ∧
    (∀ c ∈ left, isBlank c = true) ∧ (opening = [] ∨ opening = [mark]) ∧
    word.map simpleFold = name.map simpleFold ∧ (closing = [] ∨ closing = [mark]) ∧
    ∀ c ∈ right, isBlank c = true

/-- Some pair of parentheses in the text holds the name alone. -/
def Parenthesizes (text name : List Char) : Prop :=
  ∃ before inside after, text = before ++ '(' :: (inside ++ ')' :: after) ∧
    EnclosesAlone name inside

namespace Remainders

variable {name text rest : List Char}

theorem mem_afterBlanks : rest ∈ afterBlanks text ↔
    ∃ blanks, text = blanks ++ rest ∧ ∀ c ∈ blanks, isBlank c = true := by
  induction text with
  | nil => simp [afterBlanks]
  | cons c text ih =>
    rw [afterBlanks, List.mem_cons]
    constructor
    · rintro (rfl | h)
      · exact ⟨[], rfl, by simp⟩
      · split at h
        next hc =>
          obtain ⟨blanks, rfl, hb⟩ := ih.1 h
          exact ⟨c :: blanks, rfl, List.forall_mem_cons.2 ⟨hc, hb⟩⟩
        next => cases h
    · rintro ⟨_ | ⟨b, blanks⟩, he, hb⟩
      · exact .inl he.symm
      · cases he
        obtain ⟨hc, hb⟩ := List.forall_mem_cons.1 hb
        rw [if_pos hc]
        exact .inr (ih.2 ⟨blanks, rfl, hb⟩)

theorem mem_afterMark : rest ∈ afterMark text ↔
    ∃ quote, text = quote ++ rest ∧ (quote = [] ∨ quote = [mark]) := by
  simp only [and_or_left, exists_or, exists_eq_right, List.nil_append, List.singleton_append]
  cases text with
  | nil => simp [afterMark, eq_comm]
  | cons c text => by_cases hc : c = mark <;> simp [afterMark, hc, eq_comm]

theorem mem_afterName : rest ∈ afterName name text ↔
    ∃ word, text = word ++ rest ∧ word.map simpleFold = name.map simpleFold := by
  induction name generalizing text with
  | nil => simp [afterName, eq_comm]
  | cons a name ih =>
    cases text with
    | nil => simp [afterName]
    | cons c text =>
      rw [afterName, sameFold]
      constructor
      · intro h
        split at h
        next hac =>
          obtain ⟨word, rfl, hw⟩ := ih.1 h
          exact ⟨c :: word, rfl, by rw [List.map_cons, List.map_cons, hw, beq_iff_eq.1 hac]⟩
        next => cases h
      · rintro ⟨_ | ⟨b, word⟩, he, hw⟩
        · cases hw
        · cases he
          rw [List.map_cons, List.map_cons, List.cons.injEq] at hw
          rw [if_pos (beq_iff_eq.2 hw.1.symm)]
          exact ih.2 ⟨word, rfl, hw.2⟩

end Remainders

variable {name text : List Char}

theorem closesAround_iff : closesAround name text = true ↔
    ∃ inside after, text = inside ++ ')' :: after ∧ EnclosesAlone name inside := by
  simp only [closesAround, List.any_eq_true, List.mem_flatMap, beq_iff_eq, List.head?_eq_some_iff,
    mem_afterBlanks, mem_afterMark, mem_afterName]
  constructor
  · rintro ⟨_, ⟨_, ⟨_, ⟨_, ⟨_, ⟨left, rfl, hl⟩, opening, rfl, ho⟩, word, rfl, hw⟩, closing, rfl,
      hc⟩,
      right, rfl, hr⟩, after, rfl⟩
    exact ⟨left ++ opening ++ word ++ closing ++ right, after, by simp,
      left, opening, word, closing, right, rfl, hl, ho, hw, hc, hr⟩
  · rintro ⟨_, after, rfl, left, opening, word, closing, right, rfl, hl, ho, hw, hc, hr⟩
    exact ⟨_, ⟨_, ⟨_, ⟨_, ⟨_, ⟨left, by simp only [List.append_assoc], hl⟩, opening, rfl, ho⟩,
      word, rfl, hw⟩, closing, rfl, hc⟩, right, rfl, hr⟩, after, rfl⟩

theorem namesAlone_iff : namesAlone name text = true ↔ Parenthesizes text name := by
  induction text with
  | nil => simp [namesAlone, Parenthesizes]
  | cons c text ih =>
    rw [namesAlone, Bool.or_eq_true, Bool.and_eq_true, beq_iff_eq, closesAround_iff, ih]
    constructor
    · rintro (⟨rfl, inside, after, rfl, h⟩ | ⟨before, inside, after, rfl, h⟩)
      · exact ⟨[], inside, after, rfl, h⟩
      · exact ⟨c :: before, inside, after, rfl, h⟩
    · rintro ⟨_ | ⟨b, before⟩, inside, after, he, h⟩
      · cases he
        exact .inl ⟨rfl, inside, after, rfl, h⟩
      · cases he
        exact .inr ⟨before, inside, after, rfl, h⟩

theorem simpleFold_toLower (c : Char) : simpleFold c.toLower = simpleFold c := by
  have hascii : ∀ n : Fin 128, (Char.ofNat n).toNat < 128 ∧ (Char.ofNat n).toLower.toNat < 128 ∧
      (Char.ofNat n).toLower.toLower = (Char.ofNat n).toLower := by
    decide +kernel
  refine toLower_congr (f := simpleFold) (fun n => ?_) c
  obtain ⟨hn, hlower, hidem⟩ := hascii n
  rw [simpleFold_of_lt hlower, simpleFold_of_lt hn, hidem]

/-- The search does not tell names apart that are the same up to the case of ASCII letters. -/
theorem Parenthesizes.congr {a b : String} (h : Parenthesizes text a.toList)
    (he : lower a = lower b) : Parenthesizes text b.toList := by
  have hfold (s : String) : s.toList.map simpleFold = (lower s).toList.map simpleFold := by
    rw [toList_lower, List.map_map]
    exact List.map_congr_left fun c _ => (simpleFold_toLower c).symm
  obtain ⟨before, inside, after, rfl, left, opening, word, closing, right, hi, hl, ho, hw, hc,
    hr⟩ := h
  refine ⟨before, inside, after, rfl, left, opening, word, closing, right, hi, hl, ho, ?_, hc, hr⟩
  rw [hw, hfold a, he, ← hfold b]

end RecordMapper
