import RecordMapper.Schema.Mapping
import RecordMapper.Text.Blank
/-!
A declaration becomes a mapping when it is valid: a table name, one key, distinct column names and
sized vectors.
-/

namespace RecordMapper

/-- What is wrong with a declaration of the record `record`. -/
inductive MappingFault
  | emptyTable (record : String)
  | noKey (record : String)
  | twoKeys (record first second : String)
  | keyStorage (record field : String)
  | nullableKey (record field : String)
  | duplicateColumn (column record : String)
  | unsizedVector (record field : String)
  deriving DecidableEq, Repr

namespace MappingFault

def detail : MappingFault → String
  | emptyTable record => "record `" ++ record ++ "` maps to an empty table name"
  | noKey record => "record `" ++ record ++ "` has no primary key"
  | twoKeys record first second =>
    "record `" ++ record ++ "` declares more than one primary key (`" ++ first ++ "` and `" ++
      second ++ "`)"
  | keyStorage record field =>
    "primary key `" ++ record ++ "." ++ field ++ "` must be an integer or a string"
  | nullableKey record field =>
    "primary key `" ++ record ++ "." ++ field ++ "` cannot be nullable"
  | duplicateColumn column record =>
    "duplicate column name `" ++ column ++ "` in record `" ++ record ++ "`"
  | unsizedVector record field =>
    "vector column `" ++ record ++ "." ++ field ++ "` must declare its size"

end MappingFault

/-- The first column whose name has occurred before, `seen` holding the lower-case names so far. -/
def firstDuplicate? (seen : List String) : List Column → Option Column
  | [] => none
  | c :: rest =>
    let name := Text.lower c.name
    if name ∈ seen then some c else firstDuplicate? (name :: seen) rest

namespace Mapping

def checkTable (m : Mapping) : Except MappingFault Unit :=
  if Text.isBlankText m.table then .error (.emptyTable m.name) else .ok ()

def checkKey (m : Mapping) : Except MappingFault Unit :=
  match m.columns.filter (·.primaryKey) with
  | [] => .error (.noKey m.name)
  | first :: second :: _ => .error (.twoKeys m.name first.field second.field)
  | [key] =>
    if !key.storage.isInteger && !key.storage.isText then .error (.keyStorage m.name key.field)
    else if key.nullable then .error (.nullableKey m.name key.field)
    else .ok ()

def checkColumnNames (m : Mapping) : Except MappingFault Unit :=
  match firstDuplicate? [] m.columns with
  | some c => .error (.duplicateColumn c.name m.name)
  | none => .ok ()

def checkVectors (m : Mapping) : Except MappingFault Unit :=
  match m.columns.find? (·.storage == .vector 0) with
  | some c => .error (.unsizedVector m.name c.field)
  | none => .ok ()

def check (m : Mapping) : Except MappingFault Unit := do
  m.checkTable
  m.checkKey
  m.checkColumnNames
  m.checkVectors

end Mapping

/-- What a record type declares. The table is named after the record unless it is given. -/
structure Declaration where
  name : String
  table : Option String := none
  columns : List Column := []
  joins : List Join := []
  deriving Repr

namespace Declaration

/-- Field names that make a key when no column is marked as one, the most wanted first. -/
def defaultKeys : List String := ["Id", "Key", "ID", "KeyId", "Key_ID", "id"]

/-- Marks the first column of a field. -/
def markKey (field : String) : List Column → List Column
  | [] => []
  | c :: rest => if c.field = field then { c with primaryKey := true } :: rest
    else c :: markKey field rest

/-- The columns with the default key marked where none is. -/
def withDefaultKey (columns : List Column) : List Column :=
  if columns.any (·.primaryKey) then columns
  else
    match defaultKeys.find? fun key => columns.any (·.field == key) with
    | some key => markKey key columns
    | none => columns

def assemble (d : Declaration) : Mapping :=
  { name := d.name
    table := d.table.getD d.name
    columns := withDefaultKey d.columns
    joins := d.joins }

def build (d : Declaration) : Except MappingFault Mapping := do
  d.assemble.check
  return d.assemble

end Declaration

end RecordMapper
