import RecordMapper.Error
import RecordMapper.Number.Numeral
/-!
Why a record cannot be written as a row or filled from one, and how filling one ends early.
-/

namespace RecordMapper

inductive RecordFault
  | hiddenField (record field : String)
  | noKey (record : String)
  | nothingToUpdate (record : String)
  | rowWidth (values columns : Nat)
  deriving DecidableEq, Repr

namespace RecordFault

def fault : RecordFault → Fault
  | hiddenField record field =>
    ⟨.schemaResolution, "record `" ++ record ++ "` does not expose field `" ++ field ++ "`"⟩
  | noKey record => ⟨.schemaResolution, "record `" ++ record ++ "` has no primary key"⟩
  | nothingToUpdate record =>
    ⟨.invalidArgument, "update of `" ++ record ++ "` has no non-null fields to assign"⟩
  | rowWidth values columns =>
    ⟨.invalidResponse, "row has " ++ Numeral.ofNat values ++ " values for " ++
      Numeral.ofNat columns ++ " columns"⟩

def toError (f : RecordFault) : Error := ⟨f.fault, []⟩

end RecordFault

/-- Why a computation ends early: with an error of its own, or with the whole program. -/
inductive Stop (ε : Type)
  | fault (error : ε)
  /-- A number is beyond machine words. -/
  | overflow
  deriving DecidableEq, Repr

def Stop.map {ε ε' : Type} (f : ε → ε') : Stop ε → Stop ε'
  | fault error => fault (f error)
  | overflow => overflow

end RecordMapper
