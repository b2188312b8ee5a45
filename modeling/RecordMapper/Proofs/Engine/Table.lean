import RecordMapper.Migration.Change
import RecordMapper.Proofs.Engine.Execution
import RecordMapper.Proofs.Migration.Renames
/-!
Tables with their rows, and what schema statements do to the rows. Keys, constraints and indexes
are left out: a statement is refused for the tables and columns that it names.
-/

namespace RecordMapper

open Text

/-- A table with rows can be given the column: it is no key, not unique, and null in the rows. -/
def ColumnDef.isAddable (d : ColumnDef) : Bool := !d.isKey && !d.unique && !d.notNull

theorem Column.isAddable_definition {c : Column} :
    c.definition.isAddable = true ↔ c.addLimitation? = none := by
  rw [ColumnDef.isAddable, isKey_definition, addLimitation?]
  cases c.primaryKey <;> cases hu : c.unique <;> cases hn : c.nullable <;>
    simp [definition, hu, hn]

namespace Engine

/-- The cells of a row under the names of their columns. A null has no value. -/
abbrev Row (α : Type) := List (String × Option α)

/-- Columns in order, and rows with a cell for each of them. -/
structure Table (α : Type) where
  columns : List String
  rows : List (Row α)
  wide : ∀ row ∈ rows, row.map Prod.fst = columns

variable {α : Type}

namespace Row

/-- The cell of a column that the row has. -/
def cell? (row : Row α) (column : String) : Option (Option α) :=
  (row.find? fun cell => sameName cell.1 column).map Prod.snd

def mapNames (f : String → String) (row : Row α) : Row α := row.map fun cell => (f cell.1, cell.2)

def nulls (columns : List String) : Row α := columns.map fun column => (column, none)

def keep (p : String → Bool) (row : Row α) : Row α := row.filter fun cell => p cell.1

/-- A new row with given cells in their columns, and nulls in the others. -/
def filled (columns : List String) (cells : Row α) : Row α :=
  columns.map fun column => (column, (cells.cell? column).join)

/-- The cells that a copy selects: each target with the cell of its source. -/
def select (row : Row α) (columns : List (String × Option String)) : Row α :=
  columns.map fun (target, source) => (target, source.bind fun s => (row.cell? s).join)

variable {row : Row α} {a b : String}

theorem cell?_congr (h : lower a = lower b) : row.cell? a = row.cell? b := by
  simp only [cell?, sameName, h]

theorem cell?_append (r s : Row α) (column : String) :
    (r ++ s).cell? column = (r.cell? column).or (s.cell? column) := by
  simp only [cell?, List.find?_append, Option.map_or]

theorem cell?_eq_none : row.cell? a = none ↔ ∀ n ∈ row.map Prod.fst, lower n ≠ lower a := by
  simp [cell?, sameName_iff]

theorem cell?_of_mem {cell : String × Option α} (hd : DistinctNames (row.map Prod.fst))
    (hc : cell ∈ row) (h : lower cell.1 = lower a) : row.cell? a = some cell.2 := by
  have hf : row.find? (fun cell => sameName cell.1 a) = some cell := by
    apply find?_eq_some_of_unique hc (sameName_iff.2 h)
    intro other ho hs
    exact hd.eq ho hc ((sameName_iff.1 hs).trans h.symm)
  rw [cell?, hf, Option.map_some]

theorem cell?_keep {p : String → Bool} (h : ∀ n, lower n = lower a → p n = true) :
    (row.keep p).cell? a = row.cell? a := by
  have hp : (fun cell : String × Option α => decide (p cell.1 = true ∧ sameName cell.1 a = true)) =
      fun cell => sameName cell.1 a := by
    funext cell
    cases hs : sameName cell.1 a with
    | false => simp
    | true => simp [h cell.1 (sameName_iff.1 hs)]
  rw [cell?, keep, List.find?_filter, hp, cell?]

theorem cell?_map {columns : List String} {f : String → Option α} (ha : a ∈ columns)
    (hf : ∀ n, lower n = lower a → f n = f a) :
    cell? (columns.map fun n => (n, f n)) a = some (f a) := by
  induction columns with
  | nil => cases ha
  | cons n columns ih =>
    rw [List.map_cons, cell?, List.find?_cons]
    cases hs : sameName n a with
    | true => exact congrArg some (hf n (sameName_iff.1 hs))
    | false =>
      rcases List.mem_cons.1 ha with rfl | ha
      · rw [sameName_refl] at hs
        cases hs
      · exact ih ha

theorem cell?_nulls {columns : List String} (ha : a ∈ columns) :
    (nulls columns : Row α).cell? a = some none :=
  cell?_map ha fun _ _ => rfl

theorem cell?_filled {columns : List String} {cells : Row α} (ha : a ∈ columns) :
    (filled columns cells).cell? a = some (cells.cell? a).join :=
  cell?_map ha fun _ h => congrArg Option.join (cell?_congr h)

end Row

namespace Table

def hasColumn (t : Table α) (column : String) : Bool := t.columns.any fun c => sameName c column

def empty (columns : List String) : Table α := ⟨columns, [], by simp⟩

def mapNames (f : String → String) (t : Table α) : Table α where
  columns := t.columns.map f
  rows := t.rows.map (Row.mapNames f)
  wide := by
    rw [List.forall_mem_map]
    intro row hr
    rw [← t.wide row hr, Row.mapNames, List.map_map, List.map_map]
    rfl

/-- New columns, null in every row. -/
def addColumns (columns : List String) (t : Table α) : Table α where
  columns := t.columns ++ columns
  rows := t.rows.map (· ++ Row.nulls columns)
  wide := by
    rw [List.forall_mem_map]
    intro row hr
    simp [t.wide row hr, Row.nulls, Function.comp_def]

def keepColumns (p : String → Bool) (t : Table α) : Table α where
  columns := t.columns.filter p
  rows := t.rows.map (Row.keep p)
  wide := by
    rw [List.forall_mem_map]
    intro row hr
    rw [← t.wide row hr, List.filter_map]
    rfl

def copyRows (t source : Table α) (columns : List (String × Option String)) : Table α where
  columns := t.columns
  rows := t.rows ++ source.rows.map fun row => Row.filled t.columns (row.select columns)
  wide := by
    rw [List.forall_mem_append, List.forall_mem_map]
    refine ⟨t.wide, fun row _ => ?_⟩
    simp [Row.filled, Function.comp_def]

theorem ext {t u : Table α} (hc : t.columns = u.columns) (hr : t.rows = u.rows) : t = u := by
  cases t
  cases u
  cases hc
  cases hr
  rfl

theorem hasColumn_iff {t : Table α} {column : String} :
    t.hasColumn column = true ↔ ∃ c ∈ t.columns, lower c = lower column := by
  simp [hasColumn, sameName_iff]

theorem hasColumn_eq_false {t : Table α} {column : String} :
    t.hasColumn column = false ↔ ∀ c ∈ t.columns, lower c ≠ lower column := by
  simp [hasColumn, sameName]

theorem mapNames_id (t : Table α) : t.mapNames id = t := by
  apply ext
  · exact List.map_id _
  · have hid : Row.mapNames id = (id : Row α → Row α) := by
      funext row
      exact List.map_id _
    exact (congrArg t.rows.map hid).trans (List.map_id _)

theorem mapNames_mapNames (t : Table α) (f g : String → String) :
    (t.mapNames f).mapNames g = t.mapNames (g ∘ f) := by
  apply ext
  · exact List.map_map
  · simp [mapNames, Row.mapNames, Function.comp_def]

theorem addColumns_nil (t : Table α) : t.addColumns [] = t := by
  apply ext
  · exact List.append_nil _
  · simp [addColumns, Row.nulls]

theorem addColumns_addColumns (t : Table α) (a b : List String) :
    (t.addColumns a).addColumns b = t.addColumns (a ++ b) := by
  apply ext
  · exact List.append_assoc ..
  · simp [addColumns, Row.nulls, Function.comp_def]

theorem keepColumns_keepColumns (t : Table α) (p q : String → Bool) :
    (t.keepColumns p).keepColumns q = t.keepColumns fun n => q n && p n := by
  apply ext
  · simp [keepColumns, List.filter_filter]
  · simp [keepColumns, Row.keep, List.filter_filter, Function.comp_def]

theorem keepColumns_true (t : Table α) : t.keepColumns (fun _ => true) = t := by
  apply ext
  · exact List.filter_true _
  · have hid : Row.keep (fun _ => true) = (id : Row α → Row α) := by
      funext row
      exact List.filter_true _
    exact (congrArg t.rows.map hid).trans (List.map_id _)

end Table

/-- Tables under their lower-case names. -/
structure Store (α : Type) where
  tables : String → Option (Table α)

namespace Store

def empty : Store α := ⟨fun _ => none⟩

def table? (store : Store α) (name : String) : Option (Table α) := store.tables (lower name)

def put (store : Store α) (name : String) (t : Option (Table α)) : Store α :=
  ⟨fun n => if n = lower name then t else store.tables n⟩

/-- The store after a statement, unless the engine refuses it. Statements about rows are no part of
a plan. -/
def exec (store : Store α) : Statement → Option (Store α)
  | .createTable name columns ifNotExists =>
    match store.table? name.text with
    | some _ => if ifNotExists then some store else none
    | none =>
      if columns ≠ [] ∧ DistinctNames (columns.map ColumnDef.name) then
        some (store.put name.text (some (.empty (columns.map ColumnDef.name))))
      else none
  | .addColumn table d => do
    let t ← store.table? table.text
    if t.hasColumn d.name = false ∧ d.isAddable then
      some (store.put table.text (some (t.addColumns [d.name])))
    else none
  | .dropColumn table column => do
    let t ← store.table? table.text
    if t.hasColumn column.text ∧ ∃ c ∈ t.columns, lower c ≠ lower column.text then
      some (store.put table.text (some (t.keepColumns fun c => !sameName c column.text)))
    else none
  | .renameColumn table source target => do
    let t ← store.table? table.text
    if t.hasColumn source.text ∧ t.hasColumn target.text = false then
      let renamed := t.mapNames fun c => if sameName source.text c then target.text else c
      some (store.put table.text (some renamed))
    else none
  | .renameTable table target => do
    let t ← store.table? table.text
    if (store.table? target.text).isNone then
      some ((store.put table.text none).put target.text (some t))
    else none
  | .copyTable source target columns => do
    let s ← store.table? source.text
    let t ← store.table? target.text
    if ∀ c ∈ columns, t.hasColumn c.1.text ∧ ∀ column ∈ c.2, s.hasColumn column.text then
      let listed := columns.map fun c => (c.1.text, c.2.map Sql.Name.text)
      some (store.put target.text (some (t.copyRows s listed)))
    else none
  | .dropTable name ifExists =>
    match store.table? name.text with
    | some _ => some (store.put name.text none)
    | none => if ifExists then some store else none
  | .pragma .. | .query _ | .createIndex .. | .dropIndex .. => some store
  | .insert .. | .update .. | .delete .. => none

/-- The store after a script, unless the engine refuses one of its statements. -/
def run (store : Store α) (script : List Statement) : Option (Store α) := script.foldlM exec store

variable {store : Store α}

theorem table?_put (store : Store α) (a b : String) (t : Option (Table α)) :
    (store.put a t).table? b = if lower b = lower a then t else store.table? b := rfl

@[simp] theorem table?_put_self (store : Store α) (name : String) (t : Option (Table α)) :
    (store.put name t).table? name = t := by
  rw [table?_put, if_pos rfl]

@[simp] theorem put_put (store : Store α) (name : String) (t u : Option (Table α)) :
    (store.put name t).put name u = store.put name u := by
  simp only [put, Store.mk.injEq]
  funext n
  split <;> rfl

theorem put_table? (store : Store α) (name : String) :
    store.put name (store.table? name) = store := by
  cases store
  simp only [put, table?, Store.mk.injEq]
  funext n
  split
  next h => rw [h]
  next => rfl

theorem put_comm (store : Store α) {a b : String} (h : lower a ≠ lower b)
    (t u : Option (Table α)) : (store.put a t).put b u = (store.put b u).put a t := by
  simp only [put, Store.mk.injEq]
  funext n
  by_cases ha : n = lower a
  · have hb : n ≠ lower b := fun hb => h (ha.symm.trans hb)
    rw [if_neg hb, if_pos ha, if_pos ha]
  · rw [if_neg ha, if_neg ha]

theorem run_nil (store : Store α) : store.run [] = some store := rfl

theorem run_cons (store : Store α) (s : Statement) (script : List Statement) :
    store.run (s :: script) = (store.exec s).bind (·.run script) := rfl

theorem run_append (store : Store α) (a b : List Statement) :
    store.run (a ++ b) = (store.run a).bind (·.run b) := by
  simp only [run, List.foldlM_append]
  rfl

end Store

end Engine

end RecordMapper
