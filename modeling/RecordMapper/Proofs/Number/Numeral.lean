import RecordMapper.Number.Numeral
/-!
Which texts are numerals, and of which integers. Numerals read back as the integers that they were
written from.
-/

namespace RecordMapper.Numeral

/-- One or more digits and the number that they spell. -/
structure SpellsNat (digits : List Char) (n : Nat) : Prop where
  ne_nil : digits ≠ []
  isDigit : ∀ c ∈ digits, c.isDigit = true
  value : Nat.ofDigitChars 10 digits 0 = n

/-- Digits with an optional sign and the integer that they spell. -/
inductive Spells : List Char → Int → Prop
  | unsigned {digits : List Char} {n : Nat} (h : SpellsNat digits n) : Spells digits n
  | plus {digits : List Char} {n : Nat} (h : SpellsNat digits n) : Spells ('+' :: digits) n
  | minus {digits : List Char} {n : Nat} (h : SpellsNat digits n) : Spells ('-' :: digits) (-n)

theorem digit?_of_isDigit {c : Char} (h : c.isDigit = true) : digit? c = some (c.toNat - 48) := by
  obtain ⟨hlo, hhi⟩ := Bool.and_eq_true_iff.1 h
  exact if_pos ⟨of_decide_eq_true hlo, of_decide_eq_true hhi⟩

theorem isDigit_eq (c : Char) : isDigit c = c.isDigit := by
  rw [Bool.eq_iff_iff]
  constructor
  · intro h
    rw [isDigit, digit?] at h
    split at h
    next hc => exact Bool.and_eq_true_iff.2 ⟨decide_eq_true hc.1, decide_eq_true hc.2⟩
    next => cases h
  · intro h
    rw [isDigit, digit?_of_isDigit h]
    rfl

theorem digitsValue_eq {digits : List Char} (h : ∀ c ∈ digits, c.isDigit = true) (acc : Nat) :
    digitsValue acc digits = Nat.ofDigitChars 10 digits acc := by
  induction digits generalizing acc with
  | nil => rfl
  | cons c digits ih =>
    have hc := digit?_of_isDigit (h c List.mem_cons_self)
    rw [Nat.ofDigitChars_cons, ← ih fun d hd => h d (.tail _ hd)]
    simp only [digitsValue, List.foldl_cons, hc, Option.getD_some, Nat.mul_comm]
    rfl

theorem isDigit_of_mem_toDigits {n : Nat} {c : Char} (h : c ∈ Nat.toDigits 10 n) :
    isDigit c = true := by
  rw [isDigit, digit?_of_isDigit (Nat.isDigit_of_mem_toDigits (by decide) (by decide) h)]
  rfl

theorem natural?_toDigits (n : Nat) : natural? (Nat.toDigits 10 n) = some n := by
  have hd : ∀ c ∈ Nat.toDigits 10 n, c.isDigit = true := fun c hc =>
    Nat.isDigit_of_mem_toDigits (by decide) (by decide) hc
  have ha : (Nat.toDigits 10 n).all isDigit = true :=
    List.all_eq_true.2 fun _ => isDigit_of_mem_toDigits
  rw [natural?, if_pos ⟨Nat.toDigits_ne_nil, ha⟩, digitsValue_eq hd, Nat.ofDigitChars_ten_toDigits]

theorem natural?_eq_some_iff {text : List Char} {n : Nat} :
    natural? text = some n ↔ SpellsNat text n := by
  simp only [natural?, Option.ite_none_right_eq_some, Option.some.injEq, List.all_eq_true,
    isDigit_eq]
  constructor
  · rintro ⟨⟨hne, hd⟩, rfl⟩
    exact ⟨hne, hd, (digitsValue_eq hd 0).symm⟩
  · rintro ⟨hne, hd, rfl⟩
    exact ⟨⟨hne, hd⟩, digitsValue_eq hd 0⟩

/-- The digits of a positive number do not start with a zero. -/
theorem head?_toDigits_ne_zero {n : Nat} (h : n ≠ 0) : (Nat.toDigits 10 n).head? ≠ some '0' := by
  induction n using Nat.strongRecOn with
  | ind n ih =>
    rcases Nat.lt_or_ge n 10 with hlt | hge
    · rw [Nat.toDigits_of_lt_base hlt]
      simpa using h
    · have hhead := ih (n / 10) (by omega) (by omega)
      rw [Nat.toDigits_of_base_le (by decide) hge, List.head?_append,
        Option.or_of_isSome (List.isSome_head?.2 Nat.toDigits_ne_nil)]
      exact hhead

theorem integer?_of_natural? {text : List Char} {n : Nat} (h : natural? text = some n) :
    integer? text = some n := by
  have hall : text.all isDigit = true := by
    rw [natural?, Option.ite_none_right_eq_some] at h
    exact h.1.2
  rw [List.all_eq_true] at hall
  -- A digit is no sign, so the whole text is read as digits.
  rw [integer?, h]
  · rfl
  · rintro digits rfl
    exact absurd (hall '-' List.mem_cons_self) (by decide)
  · rintro digits rfl
    exact absurd (hall '+' List.mem_cons_self) (by decide)

theorem integer?_eq_some_iff {text : List Char} {z : Int} :
    integer? text = some z ↔ Spells text z := by
  constructor
  · intro h
    rw [integer?.eq_def] at h
    split at h
    next digits =>
      obtain ⟨_, hi, rfl⟩ := Option.map_eq_some_iff.1 h
      obtain ⟨n, hn, hi⟩ := Option.bind_eq_some_iff.1 hi
      cases hi
      exact .minus (natural?_eq_some_iff.1 hn)
    next digits =>
      obtain ⟨n, hn, rfl⟩ := Option.map_eq_some_iff.1 h
      exact .plus (natural?_eq_some_iff.1 hn)
    next =>
      obtain ⟨n, hn, rfl⟩ := Option.map_eq_some_iff.1 h
      exact .unsigned (natural?_eq_some_iff.1 hn)
  · intro h
    cases h with
    | unsigned h => exact integer?_of_natural? (natural?_eq_some_iff.2 h)
    | plus h | minus h =>
      rw [integer?, natural?_eq_some_iff.2 h]
      rfl

theorem unsigned?_ofNat (n : Nat) : unsigned? (ofNat n).toList = some n := by
  have hn := natural?_toDigits n
  rw [ofNat, String.toList_ofList, unsigned?.eq_def]
  split
  next digits heq =>
    have hmem : '+' ∈ Nat.toDigits 10 n := heq ▸ List.mem_cons_self
    exact absurd (isDigit_of_mem_toDigits hmem) (by decide)
  next => exact hn

theorem integer?_ofInt (i : Int) : integer? (ofInt i).toList = some i := by
  cases i with
  | ofNat n =>
    rw [ofInt, ofNat, String.toList_ofList]
    exact integer?_of_natural? (natural?_toDigits n)
  | negSucc n =>
    rw [ofInt, ofNat, String.toList_append, String.toList_ofList, String.toList_ofList,
      List.singleton_append, integer?, natural?_toDigits]
    rfl

end RecordMapper.Numeral
