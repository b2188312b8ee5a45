/-!
Classes of characters given as ranges of code points.
-/

namespace RecordMapper.Text

/-- `c` lies in one of the ranges, each given by its first and last code point. -/
def within (ranges : List (Nat × Nat)) (c : Char) : Bool :=
  ranges.any fun (first, last) => first ≤ c.toNat && c.toNat ≤ last

end RecordMapper.Text
