import RecordMapper.RecordFault
import RecordMapper.Schema.Mapping
import RecordMapper.Wire.Decode
/-!
Decoding a result row into a record. Result columns find their column by its name and then by its
field, without regard to ASCII case; of several that find one field the first is decoded.
-/

namespace RecordMapper

/-- A cell that a field could not take. -/
structure Unassigned where
  column : String
  storage : StorageClass
  kind : String
  deriving DecidableEq, Repr

/-- What decoding passed over. -/
structure RowNotes where
  /-- Result columns that belong to no column. -/
  skipped : List String := []
  unassigned : List Unassigned := []
  deriving Repr

/-- A record while a row is decoded into it. -/
structure RowState where
  record : Record
  visited : List String := []
  assigned : Nat := 0
  notes : RowNotes := {}

namespace Mapping

/-- The column that a result column belongs to. -/
def resultColumn? (m : Mapping) (name : String) : Option Column :=
  (m.columnByName? name).or (m.columns.find? fun c => Text.sameName c.field name)

/-- One cell of a row. -/
def decodeCell (m : Mapping) (name : String) (w : WireValue) (s : RowState) :
    Except (Stop RecordFault) RowState :=
  match m.resultColumn? name with
  | none => .ok { s with notes.skipped := s.notes.skipped ++ [name] }
  | some c =>
    if c.field ∈ s.visited then .ok s
    else
      match s.record.target? c.field with
      | none => .error (.fault (.hiddenField m.name c.field))
      | some f =>
        let (f, outcome) := f.decode c.storage w
        let s := { s with visited := s.visited ++ [c.field] }
        match outcome with
        | .written => .ok { s with record := s.record.put c.field f, assigned := s.assigned + 1 }
        | .refused =>
          let entry := ⟨c.name, c.storage, w.kind⟩
          .ok { s with notes.unassigned := s.notes.unassigned ++ [entry] }
        | .overflow => .error .overflow

/-- The cells in order. A stop ends the row and leaves what was decoded before it. -/
def decodeCells (m : Mapping) :
    List (String × WireValue) → RowState → RowState × Option (Stop RecordFault)
  | [], s => (s, none)
  | (name, w) :: rest, s =>
    match m.decodeCell name w s with
    | .ok s => m.decodeCells rest s
    | .error stop => (s, some stop)

def decodeRow (m : Mapping) (columns : List String) (values : List WireValue) (s : RowState) :
    RowState × Option (Stop RecordFault) :=
  if columns.length = values.length then m.decodeCells (columns.zip values) s
  else (s, some (.fault (.rowWidth values.length columns.length)))

/-- Fills a blank record from a row. -/
def loadRow (m : Mapping) (blank : Record) (columns : List String) (values : List WireValue)
    (notes : RowNotes) : RowNotes × Except (Stop RecordFault) Record :=
  match m.decodeRow columns values { record := blank, notes } with
  | (s, none) => (s.notes, .ok s.record)
  | (s, some stop) => (s.notes, .error stop)

/-- A record for each row, up to the first stop. -/
def loadRows (m : Mapping) (blank : Record) (columns : List String) :
    List (List WireValue) → RowNotes → RowNotes × Except (Stop RecordFault) (List Record)
  | [], notes => (notes, .ok [])
  | values :: rest, notes =>
    match m.loadRow blank columns values notes with
    | (notes, .error stop) => (notes, .error stop)
    | (notes, .ok r) =>
      match m.loadRows blank columns rest notes with
      | (notes, .ok rs) => (notes, .ok (r :: rs))
      | (notes, .error stop) => (notes, .error stop)

end Mapping

end RecordMapper
