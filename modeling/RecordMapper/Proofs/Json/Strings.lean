import RecordMapper.Json.Printer
import RecordMapper.Json.Reader
/-!
Strings read back from their literals, whatever characters they hold.
-/

namespace RecordMapper.Json

/-- A unit that stands for a character, and the text that it is read from. -/
structure UnitFor (c : Char) (text : List Char) (unit : StringUnit) : Prop where
  read : ∀ rest, units? (text ++ rest) = (units? rest).map fun found => (unit :: found.1, found.2)
  spelled : ∀ units, spell? (unit :: units) = (spell? units).map (c :: ·)

theorem unitFor_short {a c : Char} (h : shortEscape? a = some c) :
    UnitFor c ['\\', a] (.plain c) where
  read rest := by
    have ha : a ≠ 'u' := by
      rintro rfl
      cases h
    rw [List.cons_append, List.cons_append, List.nil_append,
      units?.eq_4 a rest fun _ _ _ _ _ he => absurd he ha, h]
    cases units? rest <;> rfl
  spelled _ := rfl

theorem hexDigit?_hexDigit : ∀ n < 16, Numeral.hexDigit? (hexDigit n) = some n := by
  decide

/-- A control character is read as the code unit that its digits give. -/
theorem unitFor_control {c : Char} (h : c.toNat < 32) :
    UnitFor c ['\\', 'u', '0', '0', hexDigit (c.toNat / 16), hexDigit (c.toNat % 16)]
      (.code c.toNat) where
  read rest := by
    have hhex : hexUnit? '0' '0' (hexDigit (c.toNat / 16)) (hexDigit (c.toNat % 16)) =
        some c.toNat := by
      have hzero : Numeral.hexDigit? '0' = some 0 := rfl
      have hcode : ((0 * 16 + 0) * 16 + c.toNat / 16) * 16 + c.toNat % 16 = c.toNat := by omega
      rw [hexUnit?, hzero, hexDigit?_hexDigit _ (by omega), hexDigit?_hexDigit _ (by omega)]
      exact congrArg some hcode
    simp only [List.cons_append, List.nil_append]
    rw [units?.eq_3, hhex]
    cases units? rest <;> rfl
  spelled units := by
    have hhigh : isHighSurrogate c.toNat = false := by
      simp only [isHighSurrogate, Bool.and_eq_false_iff, decide_eq_false_iff_not]
      omega
    have hlow : isLowSurrogate c.toNat = false := by
      simp only [isLowSurrogate, Bool.and_eq_false_iff, decide_eq_false_iff_not]
      omega
    -- No surrogate begins here, so the unit after it plays no part.
    cases units with
    | nil => simp [spell?, hhigh, hlow, Char.ofNat_toNat]
    | cons unit units =>
      cases unit with
      | plain => simp [spell?, hhigh, hlow, Char.ofNat_toNat]
      | code => simp only [spell?, hhigh, hlow, Char.ofNat_toNat, Bool.false_eq_true, if_false]

theorem unitFor_plain {c : Char} (hquote : c ≠ '"') (hslash : c ≠ '\\') (h : 32 ≤ c.toNat) :
    UnitFor c [c] (.plain c) where
  read rest := by
    rw [List.cons_append, List.nil_append,
      units?.eq_5 c rest hquote (fun _ _ _ _ _ he => absurd he hslash)
        fun _ _ he => absurd he hslash,
      if_neg (Nat.not_lt.2 h)]
    cases units? rest <;> rfl
  spelled _ := rfl

theorem eq_ofNat {c : Char} {n : Nat} (h : c.toNat = n) : c = Char.ofNat n := by
  rw [← h, Char.ofNat_toNat]

theorem exists_unitFor (c : Char) : ∃ unit, UnitFor c (escape c) unit := by
  have hshort {a d : Char} (h : c = d) (ha : shortEscape? a = some d) :
      ∃ unit, UnitFor c ['\\', a] unit := by
    subst h
    exact ⟨_, unitFor_short ha⟩
  unfold escape
  split
  next h => exact hshort h rfl
  next hquote =>
  split
  next h => exact hshort h rfl
  next hslash =>
  split
  next h => exact hshort h rfl
  split
  next h => exact hshort h rfl
  split
  next h => exact hshort h rfl
  split
  next h => exact hshort (eq_ofNat h) rfl
  split
  next h => exact hshort (eq_ofNat h) rfl
  split
  next h => exact ⟨_, unitFor_control h⟩
  next h => exact ⟨_, unitFor_plain hquote hslash (Nat.le_of_not_lt h)⟩

/-- The units that the escapes of characters are read as spell the characters. -/
theorem exists_units (cs rest : List Char) :
    ∃ units, units? (cs.flatMap escape ++ '"' :: rest) = some (units, rest) ∧
      spell? units = some cs := by
  induction cs with
  | nil => exact ⟨[], rfl, rfl⟩
  | cons c cs ih =>
    obtain ⟨units, hu, hs⟩ := ih
    obtain ⟨unit, h⟩ := exists_unitFor c
    refine ⟨unit :: units, ?_, ?_⟩
    · rw [List.flatMap_cons, List.append_assoc, h.read, hu, Option.map_some]
    · rw [h.spelled, hs, Option.map_some]

theorem stringBody?_escape (s : String) (rest : List Char) :
    stringBody? (s.toList.flatMap escape ++ '"' :: rest) = some (s, rest) := by
  obtain ⟨units, hu, hs⟩ := exists_units s.toList rest
  rw [stringBody?, hu]
  simp only [Option.bind_eq_bind, Option.bind_some, hs, String.ofList_toList]
  rfl

end RecordMapper.Json
