/-!
Names in statements: segments joined by dots.
-/

namespace RecordMapper.Sql

structure Name where
  segments : List String
  deriving DecidableEq, Repr

namespace Name

/-- A name of one segment. -/
def simple (s : String) : Name := ⟨[s]⟩

def text (n : Name) : String := ".".intercalate n.segments

/-- The last segment. -/
def base (n : Name) : String := n.segments.getLast?.getD ""

end Name

end RecordMapper.Sql
