/-!
What an engine can do beyond the common ground.
-/

namespace RecordMapper

structure Capability where
  renameColumn : Bool
  dropColumn : Bool
  vectorSearch : Bool
  /-- What the name of a shadow table adds to the table's. -/
  shadowSuffix : String
  deriving DecidableEq, Repr

namespace Capability

/-- An engine with vector search and in-place column changes. -/
def full : Capability := ⟨true, true, true, "_new"⟩

/-- An engine that can only add columns in place. -/
def addOnly : Capability := ⟨false, false, false, "_new"⟩

end Capability

end RecordMapper
