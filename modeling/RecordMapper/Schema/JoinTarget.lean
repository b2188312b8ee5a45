import RecordMapper.Schema.Catalog
/-!
What a join leads to: the other record's mapping and the column of its right field.
-/

namespace RecordMapper

inductive JoinFault
  | unresolved (name : String) (cause : Error)
  | unmappedField (target field : String)
  deriving Repr

namespace JoinFault

def fault : JoinFault → Fault
  | unresolved name _ => ⟨.schemaResolution, "cannot resolve join target `" ++ name ++ "`"⟩
  | unmappedField target field =>
    ⟨.schemaResolution, "join target `" ++ target ++ "` has no mapped field `" ++ field ++ "`"⟩

/-- The fault around what caused it. -/
def toError (f : JoinFault) : Error :=
  match f with
  | unresolved _ cause => cause.context f.fault
  | unmappedField .. => ⟨f.fault, []⟩

end JoinFault

def Catalog.joinTarget (catalog : Catalog) (j : Join) : Except JoinFault (Mapping × Column) :=
  match catalog.resolve j.right with
  | .error cause => .error (.unresolved j.right.name cause)
  | .ok right =>
    match right.columnByField? j.rightField with
    | some column => .ok (right, column)
    | none => .error (.unmappedField right.name j.rightField)

end RecordMapper
