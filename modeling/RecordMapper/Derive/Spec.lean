import RecordMapper.Derive.Argument
import RecordMapper.Text.AsciiCase
/-!
What an item says about the record it is to be: its table, its fields with their marks, and its
joins. All faults of an item are reported together: those of the record's own attributes, those of
each field, and then those between fields. A field with a fault of its own counts as absent there.
-/

namespace RecordMapper.Derive

/-- Folds `step` over a list. What is refused is listed and changes nothing. -/
def gather {σ α ε : Type} (step : σ → α → Except ε σ) (state : σ) : List α → σ × List ε
  | [] => (state, [])
  | a :: rest =>
    match step state a with
    | .ok next => gather step next rest
    | .error fault =>
      let (last, faults) := gather step state rest
      (last, fault :: faults)

/-- The record attributes of a field. -/
structure FieldMarks where
  key : Bool := false
  column : Option ColumnArguments := none
  unique : Bool := false
  /-- The index and the name given for it. -/
  index : Option (Option TextLiteral) := none
  vector : Option IntegerLiteral := none
  skip : Bool := false
  deriving DecidableEq, Repr

namespace FieldMarks

/-- Takes in one attribute. Those that are no record attributes are left to others. -/
def add (m : FieldMarks) (a : Attribute) : Except ItemFault FieldMarks :=
  match a.name with
  | some "key" => if m.key then .error (.duplicateMark .key) else .ok { m with key := true }
  | some "column" =>
    if m.column.isSome then .error (.duplicateMark .column)
    else do return { m with column := some (← ColumnArguments.read (← a.arguments)) }
  | some "unique" =>
    if m.unique then .error (.duplicateMark .unique) else .ok { m with unique := true }
  | some "index" =>
    if m.index.isSome then .error (.duplicateMark .index)
    else do return { m with index := some (← indexName a) }
  | some "vector" =>
    if m.vector.isSome then .error (.duplicateMark .vector)
    else do return { m with vector := some (← vectorSize a) }
  | some "skip" => if m.skip then .error (.duplicateMark .skip) else .ok { m with skip := true }
  | _ => .ok m

def storage? (m : FieldMarks) : Option PlainStorage := m.column.bind (·.storage)

def columnName? (m : FieldMarks) : Option String := m.column.bind (·.name)

/-- Some mark other than `#[skip]` is there. -/
def mapped (m : FieldMarks) : Bool :=
  m.key || m.column.isSome || m.unique || m.index.isSome || m.vector.isSome

/-- Faults between the marks of one field. -/
def conflicts (m : FieldMarks) : List ItemFault :=
  (if m.skip && m.mapped then [.markedSkip] else []) ++
    match m.vector, m.storage? with
    | some _, some storage => [.vectorStorage storage]
    | _, _ => []

end FieldMarks

/-- A field whose own attributes are in order. -/
structure FieldSpec where
  /-- The name as written. -/
  ident : String
  type : List Token
  marks : FieldMarks
  deriving Repr

namespace FieldSpec

def name (f : FieldSpec) : String := unraw f.ident

def columnName (f : FieldSpec) : String := f.marks.columnName?.getD f.name

def ofField (field : ItemField) : Except (List ItemFault) FieldSpec :=
  let (marks, faults) := gather FieldMarks.add {} field.attributes
  match faults ++ marks.conflicts with
  | [] => .ok ⟨field.name, field.type, marks⟩
  | faults => .error faults

end FieldSpec

/-- The fields that are in order, and the faults of the others. -/
def readFields : List ItemField → List FieldSpec × List ItemFault
  | [] => ([], [])
  | field :: rest =>
    let (fields, faults) := readFields rest
    match FieldSpec.ofField field with
    | .ok spec => (spec :: fields, faults)
    | .error own => (fields, own ++ faults)

/-- The record's own attributes. -/
structure RecordMarks where
  table : Option TextLiteral := none
  joins : List JoinSpec := []
  deriving Repr

def RecordMarks.add (m : RecordMarks) (a : Attribute) : Except ItemFault RecordMarks :=
  match a.name with
  | some "table" =>
    if m.table.isSome then .error .duplicateTable
    else do return { m with table := some (← tableName a) }
  | some "join" => do return { m with joins := m.joins ++ [← JoinSpec.ofAttribute a] }
  | _ => .ok m

/-- A record as its item describes it. -/
structure RecordSpec where
  visibility : List Token
  name : String
  table : Option TextLiteral
  /-- All fields, the skipped ones too. -/
  fields : List FieldSpec
  joins : List JoinSpec
  deriving Repr

/-- The fields that have columns. -/
def mappedFields (fields : List FieldSpec) : List FieldSpec := fields.filter (!·.marks.skip)

namespace RecordSpec

def keyFaults (fields : List FieldSpec) : List ItemFault :=
  if (fields.filter (·.marks.key)).length ≤ 1 then [] else [.twoKeys]

/-- A fault for each column whose name has occurred before, up to the case of ASCII letters. -/
def columnFaults (seen : List String) : List FieldSpec → List ItemFault
  | [] => []
  | field :: rest =>
    let name := Text.lower field.columnName
    if name ∈ seen then .columnTaken :: columnFaults seen rest
    else columnFaults (name :: seen) rest

/-- A fault for each join whose left field is none of the fields. -/
def joinFaults (fields : List FieldSpec) (joins : List JoinSpec) : List ItemFault :=
  (joins.filter fun join => !fields.any (·.name == join.left)).map fun _ => .unknownJoinField

def ofItem (item : Item) : Except (List ItemFault) RecordSpec :=
  match item.fields with
  | .unnamed => .error [.unnamedFields]
  | .named written =>
    if item.generic then .error [.generic]
    else
      let (marks, ownFaults) := gather RecordMarks.add {} item.attributes
      let (fields, fieldFaults) := readFields written
      let mapped := mappedFields fields
      match
        ownFaults ++ fieldFaults ++ keyFaults fields ++ columnFaults [] mapped ++
          joinFaults mapped marks.joins
      with
      | [] => .ok ⟨item.visibility, item.name, marks.table, fields, marks.joins⟩
      | faults => .error faults

end RecordSpec

end RecordMapper.Derive
