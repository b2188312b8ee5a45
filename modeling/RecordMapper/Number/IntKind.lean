/-!
The integer kinds of native fields, and integers that carry the proof that they fit their kind.
-/

namespace RecordMapper

inductive IntKind
  | i8 | i16 | i32 | i64 | u8 | u16 | u32 | u64
  deriving DecidableEq, Repr

namespace IntKind

def least : IntKind → Int
  | i8 => -128
  | i16 => -32768
  | i32 => -2147483648
  | i64 => -9223372036854775808
  | u8 | u16 | u32 | u64 => 0

def greatest : IntKind → Int
  | i8 => 127
  | i16 => 32767
  | i32 => 2147483647
  | i64 => 9223372036854775807
  | u8 => 255
  | u16 => 65535
  | u32 => 4294967295
  | u64 => 18446744073709551615

theorem least_le_zero (k : IntKind) : k.least ≤ 0 := by cases k <;> decide

theorem zero_le_greatest (k : IntKind) : 0 ≤ k.greatest := by cases k <;> decide

def name : IntKind → String
  | i8 => "i8"
  | i16 => "i16"
  | i32 => "i32"
  | i64 => "i64"
  | u8 => "u8"
  | u16 => "u16"
  | u32 => "u32"
  | u64 => "u64"

end IntKind

/-- An integer within the range of a kind. -/
structure IntOf (k : IntKind) where
  val : Int
  least_le : k.least ≤ val
  le_greatest : val ≤ k.greatest
  deriving DecidableEq, Repr

namespace IntOf

variable {k l : IntKind}

theorem ext {m n : IntOf k} (h : m.val = n.val) : m = n := by
  cases m
  cases n
  simp_all

def zero : IntOf k := ⟨0, k.least_le_zero, k.zero_le_greatest⟩

def ofInt? (k : IntKind) (i : Int) : Option (IntOf k) :=
  if h : k.least ≤ i ∧ i ≤ k.greatest then some ⟨i, h.1, h.2⟩ else none

theorem ofInt?_val (n : IntOf k) : ofInt? k n.val = some n := by
  simp [ofInt?, n.least_le, n.le_greatest]

theorem ofInt?_eq_none_iff {i : Int} : ofInt? k i = none ↔ i < k.least ∨ k.greatest < i := by
  simp only [ofInt?, dite_eq_right_iff, reduceCtorEq, imp_false]
  omega

theorem val_of_ofInt? {i : Int} {n : IntOf k} (h : ofInt? k i = some n) : n.val = i := by
  simp only [ofInt?, Option.dite_none_right_eq_some] at h
  obtain ⟨_, h⟩ := h
  rw [← Option.some.inj h]

theorem ofInt?_eq_some_iff {i : Int} {n : IntOf k} : ofInt? k i = some n ↔ n.val = i := by
  constructor
  · exact val_of_ofInt?
  · rintro rfl
    exact ofInt?_val n

/-- The same integer in a kind with a wider range. -/
def weaken (n : IntOf k) (lo : l.least ≤ k.least) (hi : k.greatest ≤ l.greatest) : IntOf l :=
  ⟨n.val, Int.le_trans lo n.least_le, Int.le_trans n.le_greatest hi⟩

end IntOf

end RecordMapper
