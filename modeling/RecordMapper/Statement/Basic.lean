import RecordMapper.Query.Plan
import RecordMapper.Sql.Name
/-!
Statements and their serialized form. A query is planned against the catalog; every other
statement is written as it stands.
-/

namespace RecordMapper

open Sql (Fragment Name)

/-- A column as a statement defines it, apart from the field that it stores. -/
structure ColumnDef where
  name : String
  storage : StorageClass
  notNull : Bool
  unique : Bool
  primaryKey : Bool
  autoIncrement : Bool
  deriving DecidableEq, Repr

/-- Only a column declared as an integer key without more is filled in by the engine. -/
def ColumnDef.text (d : ColumnDef) : String :=
  if d.autoIncrement then d.name ++ " INTEGER PRIMARY KEY AUTOINCREMENT"
  else
    d.name ++ " " ++ d.storage.sqlType ++
      if d.primaryKey then " PRIMARY KEY NOT NULL"
      else (if d.notNull then " NOT NULL" else "") ++ (if d.unique then " UNIQUE" else "")

def Column.definition (c : Column) : ColumnDef where
  name := c.name
  storage := c.storage
  notNull := !c.nullable
  unique := c.unique
  primaryKey := c.primaryKey
  autoIncrement := c.isAutoIncrement

/-- The columns of a table for the records of a mapping. -/
def Mapping.definitions (m : Mapping) : List ColumnDef := m.columns.map Column.definition

inductive Statement
  | query (q : Query)
  | insert (table : Name) (columns : List Name) (values : List Value)
  | update (table : Name) (assignments : List (Name × Value)) (key : Name × Value)
  | delete (table : Name) (key : Name × Value)
  | createTable (name : Name) (columns : List ColumnDef) (ifNotExists : Bool)
  | addColumn (table : Name) (column : ColumnDef)
  | dropColumn (table column : Name)
  | renameColumn (table source target : Name)
  | renameTable (table target : Name)
  /-- Copies rows. Each target column takes a source column or null. -/
  | copyTable (source target : Name) (columns : List (Name × Option Name))
  | createIndex (name table : Name) (columns : List Name) (unique ifNotExists : Bool)
  | dropIndex (name : Name) (ifExists : Bool)
  | dropTable (name : Name) (ifExists : Bool)
  | pragma (name : String) (value : Option String)
  deriving Repr

namespace Statement

/-- Statements about tables and indexes, as against rows. -/
def isSchema : Statement → Bool
  | query _ | insert .. | update .. | delete .. => false
  | _ => true

def optionalText (present : Bool) (text : String) : String := if present then text else ""

def names (columns : List Name) : String := Sql.nameList (columns.map Name.text)

/-- `column = ?` -/
def assignment (a : Name × Value) : List Fragment := [.text (a.1.text ++ " = "), .bound a.2]

/-- A source column keeps its name when it agrees with the target's and is renamed otherwise. -/
def copySource (target : Name) : Option Name → String
  | some source =>
    if Text.sameName source.base target.base then source.text
    else source.text ++ " AS " ++ target.text
  | none => "NULL AS " ++ target.text

/-- The fragments of a statement other than a query. -/
def plainFragments : Statement → List Fragment
  | query _ => []
  | insert table columns values =>
    .text ("INSERT INTO " ++ table.text ++ " (" ++ names columns ++ ") VALUES (") ::
      Sql.commaSeparated (values.map fun v => [.bound v]) ++ [.text ")"]
  | update table assignments key =>
    .text ("UPDATE " ++ table.text ++ " SET ") ::
      Sql.commaSeparated (assignments.map assignment) ++ .text " WHERE " :: assignment key
  | delete table key => .text ("DELETE FROM " ++ table.text ++ " WHERE ") :: assignment key
  | createTable name columns ifNotExists =>
    [.text ("CREATE TABLE " ++ optionalText ifNotExists "IF NOT EXISTS " ++ name.text ++ " (" ++
      Sql.nameList (columns.map ColumnDef.text) ++ ")")]
  | addColumn table column =>
    [.text ("ALTER TABLE " ++ table.text ++ " ADD COLUMN " ++ column.text)]
  | dropColumn table column =>
    [.text ("ALTER TABLE " ++ table.text ++ " DROP COLUMN " ++ column.text)]
  | renameColumn table source target =>
    [.text ("ALTER TABLE " ++ table.text ++ " RENAME COLUMN " ++ source.text ++ " TO " ++
      target.text)]
  | renameTable table target =>
    [.text ("ALTER TABLE " ++ table.text ++ " RENAME TO " ++ target.text)]
  | copyTable source target columns =>
    [.text ("INSERT INTO " ++ target.text ++ " (" ++ names (columns.map Prod.fst) ++ ") SELECT " ++
      Sql.nameList (columns.map fun c => copySource c.1 c.2) ++ " FROM " ++ source.text)]
  | createIndex name table columns unique ifNotExists =>
    [.text ("CREATE " ++ optionalText unique "UNIQUE " ++ "INDEX " ++
      optionalText ifNotExists "IF NOT EXISTS " ++ name.text ++ " ON " ++ table.text ++ "(" ++
      names columns ++ ")")]
  | dropIndex name ifExists =>
    [.text ("DROP INDEX " ++ optionalText ifExists "IF EXISTS " ++ name.text)]
  | dropTable name ifExists =>
    [.text ("DROP TABLE " ++ optionalText ifExists "IF EXISTS " ++ name.text)]
  | pragma name value =>
    [.text ("PRAGMA " ++ name ++ (value.map ("=" ++ ·)).getD "")]

/-- The fragments of any statement. -/
def fragments (catalog : Catalog) (capability : Capability) :
    Statement → Except Error (List Fragment)
  | query q =>
    match q.toSelect catalog capability with
    | .ok select => .ok select.fragments
    | .error fault => .error fault.toError
  | s => .ok s.plainFragments

/-- A statement as it is sent: its text, and the parameters with its own in placeholder order. -/
structure Serialized where
  text : String
  params : List Value
  deriving Repr

/-- Writes a fragment at the end, and pushes the value that it binds. -/
def Serialized.write (out : Serialized) (f : Fragment) : Serialized :=
  ⟨out.text ++ f.written, out.params ++ f.param?.toList⟩

/-- The parameters of a statement are pushed onto those that are given. -/
def serialize (catalog : Catalog) (capability : Capability) (s : Statement)
    (given : List Value := []) : Except Error Serialized := do
  let fragments ← s.fragments catalog capability
  let out := fragments.foldl Serialized.write ⟨"", given⟩
  return ⟨out.text ++ ";", out.params⟩

/-- The number of question marks in a text. -/
def placeholderCount (text : String) : Nat := text.toList.count '?'

end Statement

end RecordMapper
