/-!
Names of tables, columns and indexes are compared without regard to the case of ASCII letters.
Other letters are left alone.
-/

namespace RecordMapper.Text

def lower (s : String) : String := String.ofList (s.toList.map Char.toLower)

def upper (s : String) : String := String.ofList (s.toList.map Char.toUpper)

/-- Equality up to the case of ASCII letters. -/
def sameName (a b : String) : Bool := lower a == lower b

theorem sameName_iff {a b : String} : sameName a b = true ↔ lower a = lower b := by
  simp [sameName]

theorem sameName_refl (a : String) : sameName a a = true := by
  simp [sameName]

/-- `s` begins with `start`, letter for letter. -/
def beginsWith (start s : String) : Bool := start.toList.isPrefixOf s.toList

/-- `part` occurs somewhere in `s`, letter for letter. -/
def occursIn (part : List Char) : List Char → Bool
  | [] => part.isEmpty
  | c :: rest => part.isPrefixOf (c :: rest) || occursIn part rest

end RecordMapper.Text
