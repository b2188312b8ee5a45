import RecordMapper.Proofs.Engine.StoredIndex
import RecordMapper.Proofs.Schema.Validity
import RecordMapper.Statement.Basic
/-!
The schema of a database, and what schema statements do to it. A statement that the engine refuses
has no result. Rows are left out, so a column that is not null can be added.
-/

namespace RecordMapper

namespace Engine

/-- A table is stored under its lower-case name, and one without columns is no table. -/
structure Database where
  tables : String → List LiveColumn
  indexes : List StoredIndex

/-- A name for a new table or index. Names of the engine's own begin with `sqlite_`. -/
def isFree (name : String) : Bool :=
  Text.isPlain name && !Text.beginsWith "sqlite_" (Text.lower name)

end Engine

namespace ColumnDef

/-- A column that is to be filled in is written as a key, whatever else is said of it. -/
def isKey (d : ColumnDef) : Bool := d.autoIncrement || d.primaryKey

/-- The column that a definition makes. -/
def stored (d : ColumnDef) : LiveColumn where
  name := d.name
  declaredType := if d.autoIncrement then "INTEGER" else d.storage.sqlType
  notNull := !d.autoIncrement && (d.primaryKey || d.notNull)
  keyPosition := if d.isKey then 1 else 0

/-- The engine makes an index for each unique column and for a key that is no integer. -/
def needsIndex (d : ColumnDef) : Bool :=
  if d.isKey then !d.autoIncrement && !d.storage.isInteger else d.unique

end ColumnDef

namespace Column

variable (c : Column)

@[simp] theorem name_definition : c.definition.name = c.name := rfl

@[simp] theorem unique_definition : c.definition.unique = c.unique := rfl

@[simp] theorem isKey_definition : c.definition.isKey = c.primaryKey := by
  cases h : c.primaryKey <;> simp [ColumnDef.isKey, definition, isAutoIncrement, h]

theorem stored_definition :
    c.definition.stored = ⟨c.name, c.storage.sqlType,
      !c.isAutoIncrement && (c.primaryKey || !c.nullable), if c.primaryKey then 1 else 0⟩ := by
  rw [ColumnDef.stored, isKey_definition]
  cases h : c.isAutoIncrement with
  | false => simp [definition, h]
  | true =>
    have hs : c.storage = .integer := by
      simpa [StorageClass.isInteger] using (Bool.and_eq_true_iff.1 h).2
    simp [definition, h, hs, StorageClass.sqlType]

@[simp] theorem name_stored_definition : c.definition.stored.name = c.name := rfl

theorem needsIndex_definition :
    c.definition.needsIndex = (!c.isAutoIncrement && (c.primaryKey || c.unique)) := by
  rw [ColumnDef.needsIndex, isKey_definition]
  cases hk : c.primaryKey <;> cases hi : c.storage.isInteger <;>
    simp [definition, isAutoIncrement, hk, hi]

end Column

@[simp] theorem Mapping.names_definitions (m : Mapping) :
    m.definitions.map ColumnDef.name = m.columns.map Column.name := by
  simp [definitions, Function.comp_def]

theorem Mapping.plain_definitions (m : Mapping) :
    (∀ d ∈ m.definitions, Text.isPlain d.name = true) ↔
      ∀ c ∈ m.columns, Text.isPlain c.name = true := by
  simp [definitions]

namespace Engine

def engineIndexes (table : String) (columns : List ColumnDef) : List StoredIndex :=
  (List.range (columns.countP ColumnDef.needsIndex)).map fun k =>
    { name := "sqlite_autoindex_" ++ table ++ "_" ++ Numeral.ofNat (k + 1), table }

namespace StoredIndex

def belongsTo (i : StoredIndex) (table : String) : Bool := Text.sameName i.table table

def uses (i : StoredIndex) (column : String) : Bool :=
  i.definition.any fun d => d.columns.any fun c => Text.sameName c column

def mapColumns (i : StoredIndex) (f : String → String) : StoredIndex :=
  { i with definition := i.definition.map fun d => { d with columns := d.columns.map f } }

/-- The engine's own indexes are named after their table. -/
def renameTable (i : StoredIndex) (source target : String) : StoredIndex :=
  let name :=
    if i.definition.isSome then i.name
    else "sqlite_autoindex_" ++ target ++ String.ofList (i.name.toList.drop (17 + source.length))
  { i with name, table := target }

end StoredIndex

namespace Database

def columns (db : Database) (table : String) : List LiveColumn := db.tables (Text.lower table)

def hasTable (db : Database) (table : String) : Bool := !(db.columns table).isEmpty

def hasColumn (db : Database) (table column : String) : Bool :=
  (db.columns table).any fun l => Text.sameName l.name column

def hasIndex (db : Database) (name : String) : Bool :=
  db.indexes.any fun i => Text.sameName i.name name

/-- What the engine reports of a table. -/
def snapshot (db : Database) (table : String) : LiveTable :=
  ⟨db.columns table, db.indexes.map StoredIndex.live⟩

def setColumns (db : Database) (table : String) (columns : List LiveColumn) : Database :=
  { db with tables := fun name => if name = Text.lower table then columns else db.tables name }

/-- Changes the indexes of one table. -/
def mapIndexes (db : Database) (table : String) (f : StoredIndex → StoredIndex) : Database :=
  { db with indexes := db.indexes.map fun i => if i.belongsTo table then f i else i }

def createTable (db : Database) (table : String) (columns : List ColumnDef) : Database :=
  { db.setColumns table (columns.map ColumnDef.stored) with
    indexes := db.indexes ++ engineIndexes table columns }

def dropTable (db : Database) (table : String) : Database :=
  { db.setColumns table [] with indexes := db.indexes.filter fun i => !i.belongsTo table }

def renameTable (db : Database) (source target : String) : Database :=
  ((db.setColumns source []).setColumns target (db.columns source)).mapIndexes source
    (·.renameTable source target)

/-- Gives the columns of a table other names, also where indexes are defined over them. -/
def mapColumns (db : Database) (table : String) (f : String → String) : Database :=
  (db.setColumns table ((db.columns table).map fun l => { l with name := f l.name })).mapIndexes
    table (·.mapColumns f)

def renameColumn (db : Database) (table source target : String) : Database :=
  db.mapColumns table fun name => if Text.sameName source name then target else name

def addColumn (db : Database) (table : String) (d : ColumnDef) : Database :=
  db.setColumns table (db.columns table ++ [d.stored])

def dropColumn (db : Database) (table column : String) : Database :=
  db.setColumns table ((db.columns table).filter fun l => !Text.sameName l.name column)

/-- A column can go when it is no key, no index uses it and it is not the last one. -/
def canDrop (db : Database) (table column : String) : Bool :=
  db.hasColumn table column &&
    (db.columns table).all (fun l => !Text.sameName l.name column || !l.isKey) &&
    (db.columns table).any (fun l => !Text.sameName l.name column) &&
    db.indexes.all fun i => !(i.belongsTo table && i.uses column)

def canCopy (db : Database) (source target : String) (columns : List (Sql.Name × Option Sql.Name)) :
    Bool :=
  db.hasTable source && db.hasTable target && columns.all fun c =>
    db.hasColumn target c.1.text && c.2.all fun column => db.hasColumn source column.text

/-- The database after a statement, unless the engine refuses it. -/
def exec (db : Database) : Statement → Option Database
  | .createTable name columns ifNotExists =>
    if db.hasTable name.text then if ifNotExists then some db else none
    else if isFree name.text && !db.hasIndex name.text && !columns.isEmpty &&
        columns.all (Text.isPlain ·.name) && DistinctNames (columns.map ColumnDef.name) then
      some (db.createTable name.text columns)
    else none
  | .addColumn table d =>
    if db.hasTable table.text && !db.hasColumn table.text d.name && Text.isPlain d.name &&
        !d.isKey && !d.unique then
      some (db.addColumn table.text d)
    else none
  | .dropColumn table column =>
    if db.canDrop table.text column.text then some (db.dropColumn table.text column.text) else none
  | .renameColumn table source target =>
    if db.hasColumn table.text source.text && !db.hasColumn table.text target.text &&
        Text.isPlain target.text then
      some (db.renameColumn table.text source.text target.text)
    else none
  | .renameTable table target =>
    if db.hasTable table.text && !db.hasTable target.text && isFree target.text then
      some (db.renameTable table.text target.text)
    else none
  | .copyTable source target columns =>
    if db.canCopy source.text target.text columns then some db else none
  | .createIndex name table columns unique ifNotExists =>
    if db.hasIndex name.text then if ifNotExists then some db else none
    else if isFree name.text && !db.hasTable name.text && Text.isPlain table.text &&
        !columns.isEmpty &&
        columns.all (fun c => Text.isPlain c.text && db.hasColumn table.text c.text) then
      let definition := some ⟨unique, columns.map Sql.Name.text, false⟩
      some { db with indexes := db.indexes ++ [⟨name.text, table.text, definition⟩] }
    else none
  | .dropIndex name ifExists =>
    if db.hasIndex name.text then
      if db.indexes.all (fun i => !Text.sameName i.name name.text || i.definition.isSome) then
        some { db with indexes := db.indexes.filter fun i => !Text.sameName i.name name.text }
      else none
    else if ifExists then some db
    else none
  | .dropTable name ifExists =>
    if db.hasTable name.text then some (db.dropTable name.text)
    else if ifExists then some db
    else none
  | .pragma .. | .query _ | .insert .. | .update .. | .delete .. => some db

/-- The database after a script, unless the engine refuses one of its statements. -/
def run (db : Database) (script : List Statement) : Option Database := script.foldlM exec db

end Database

end Engine

end RecordMapper
