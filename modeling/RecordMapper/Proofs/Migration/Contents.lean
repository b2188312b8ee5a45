import RecordMapper.Proofs.Migration.Drops
import RecordMapper.Proofs.Migration.Retention
/-!
The rows of a database beside its schema. What the engine does to a schema it does to tables with
rows as well, and both have the same columns afterwards. Only the schema knows of keys and indexes,
so a column that one of them uses can go from the rows alone.
-/

namespace RecordMapper

open Text Engine Sql

/-- Schema work that rows do not stand in the way of. A column that is not null cannot be added to
them. -/
def Statement.SuitsRows : Statement → Prop
  | .addColumn _ d => d.notNull = false
  | s => s.isSchema = true

namespace Engine

variable {α : Type} {db db' : Database} {store store' : Store α} {table column : String}
  {t t' : Table α}

/-- The names of columns in their order. No columns are no table. -/
def columnNames? (columns : List LiveColumn) : Option (List String) :=
  if columns.isEmpty then none else some (columns.map LiveColumn.name)

/-- The tables of the database, each with its columns in their order. -/
def Store.HasSchema (store : Store α) (db : Database) : Prop :=
  ∀ table, (store.table? table).map Table.columns = columnNames? (db.columns table)

namespace Database

theorem isEmpty_columns (db : Database) (table : String) :
    (db.columns table).isEmpty = !db.hasTable table := (Bool.not_not _).symm

theorem hasTable_of_hasColumn (h : db.hasColumn table column = true) :
    db.hasTable table = true := by
  obtain ⟨l, hl, _⟩ := List.any_eq_true.1 h
  simpa [hasTable] using List.ne_nil_of_mem hl

theorem tables_createIndex {name table : Name} {columns : List Name} {unique ifNotExists : Bool}
    (h : db.exec (.createIndex name table columns unique ifNotExists) = some db') :
    db'.tables = db.tables := by
  rw [exec] at h
  split at h
  next =>
    obtain ⟨_, h⟩ := Option.ite_none_right_eq_some.1 h
    cases h
    rfl
  next =>
    obtain ⟨_, h⟩ := Option.ite_none_right_eq_some.1 h
    cases h
    rfl

theorem tables_dropIndex {name : Name} {ifExists : Bool}
    (h : db.exec (.dropIndex name ifExists) = some db') : db'.tables = db.tables := by
  rw [exec] at h
  split at h
  next =>
    obtain ⟨_, h⟩ := Option.ite_none_right_eq_some.1 h
    cases h
    rfl
  next =>
    obtain ⟨_, h⟩ := Option.ite_none_right_eq_some.1 h
    cases h
    rfl

end Database

namespace Store.HasSchema

theorem of_tables (h : store.HasSchema db) (ht : db'.tables = db.tables) :
    store.HasSchema db' := by
  intro table
  rw [h table, Database.columns, Database.columns, ht]

theorem put (h : store.HasSchema db) (table : String) {t : Option (Table α)}
    (columns : List LiveColumn) (ht : t.map Table.columns = columnNames? columns) :
    (store.put table t).HasSchema (db.setColumns table columns) := by
  intro name
  rw [table?_put, Database.columns_setColumns]
  split
  · exact ht
  · exact h name

variable (h : store.HasSchema db)

include h

theorem exists_table (ht : db.hasTable table = true) :
    ∃ t, store.table? table = some t ∧ t.columns = (db.columns table).map LiveColumn.name := by
  have hcolumns := h table
  rw [columnNames?, db.isEmpty_columns, ht] at hcolumns
  exact Option.map_eq_some_iff.1 hcolumns

theorem table?_eq_none (ht : db.hasTable table = false) : store.table? table = none := by
  have hcolumns := h table
  rw [columnNames?, db.isEmpty_columns, ht] at hcolumns
  exact Option.map_eq_none_iff.1 hcolumns

theorem columns_of_table (ht : store.table? table = some t) :
    db.hasTable table = true ∧ t.columns = (db.columns table).map LiveColumn.name := by
  have hcolumns := h table
  rw [ht, Option.map_some, columnNames?, db.isEmpty_columns] at hcolumns
  obtain ⟨hne, hcolumns⟩ := Option.ite_none_left_eq_some.1 hcolumns.symm
  exact ⟨by simpa using hne, (Option.some.inj hcolumns).symm⟩

/-- New rows change nothing about the columns. -/
theorem put_of_columns (ht : store.table? table = some t) (hc : t'.columns = t.columns) :
    (store.put table (some t')).HasSchema db := by
  rw [← db.setColumns_columns table]
  apply h.put
  rw [← h table, ht, Option.map_some, Option.map_some, hc]

theorem hasColumn (ht : store.table? table = some t) :
    t.hasColumn column = db.hasColumn table column := by
  rw [Table.hasColumn, (h.columns_of_table ht).2, List.any_map]
  rfl

/-! ### One statement -/

theorem createTable {name : Name} {columns : List ColumnDef} {ifNotExists : Bool}
    (hx : db.exec (.createTable name columns ifNotExists) = some db') :
    ∃ store', store.exec (.createTable name columns ifNotExists) = some store' ∧
      store'.HasSchema db' := by
  rw [Database.exec] at hx
  split at hx
  next ht =>
    obtain ⟨t, htable, _⟩ := h.exists_table ht
    obtain ⟨he, hx⟩ := Option.ite_none_right_eq_some.1 hx
    cases hx
    exact ⟨store, by rw [exec, htable]; exact if_pos he, h⟩
  next ht =>
    simp only [Option.ite_none_right_eq_some, Option.some.injEq, Bool.and_eq_true,
      Bool.not_eq_true', List.isEmpty_eq_false_iff, decide_eq_true_eq] at hx
    obtain ⟨⟨⟨⟨_, hne⟩, _⟩, hd⟩, rfl⟩ := hx
    have htable := h.table?_eq_none (Bool.eq_false_iff.2 ht)
    refine ⟨_, by rw [exec, htable]; exact if_pos ⟨hne, hd⟩, ?_⟩
    refine of_tables (h.put name.text (columns.map ColumnDef.stored) ?_) rfl
    simp [columnNames?, hne, Table.empty, Function.comp_def, ColumnDef.stored]

theorem addColumn {name : Name} {d : ColumnDef} (hd : d.notNull = false)
    (hx : db.exec (.addColumn name d) = some db') :
    ∃ store', store.exec (.addColumn name d) = some store' ∧ store'.HasSchema db' := by
  simp only [Database.exec, Option.ite_none_right_eq_some, Option.some.injEq, Bool.and_eq_true,
    Bool.not_eq_true'] at hx
  obtain ⟨⟨⟨⟨⟨ht, hfree⟩, _⟩, hk⟩, hu⟩, rfl⟩ := hx
  obtain ⟨t, htable, hcolumns⟩ := h.exists_table ht
  have hd' : d.isAddable = true := by simp [ColumnDef.isAddable, hk, hu, hd]
  refine ⟨store.put name.text (some (t.addColumns [d.name])), ?_, ?_⟩
  · rw [exec, htable]
    exact if_pos ⟨by rw [h.hasColumn htable, hfree], hd'⟩
  · apply h.put
    simp [columnNames?, Table.addColumns, hcolumns, ColumnDef.stored]

theorem dropColumn {name column : Name} (hx : db.exec (.dropColumn name column) = some db') :
    ∃ store', store.exec (.dropColumn name column) = some store' ∧ store'.HasSchema db' := by
  simp only [Database.exec, Option.ite_none_right_eq_some, Option.some.injEq,
    Database.canDrop_iff] at hx
  obtain ⟨⟨hc, _, ⟨l, hl, hne⟩, _⟩, rfl⟩ := hx
  obtain ⟨t, htable, hcolumns⟩ := h.exists_table (Database.hasTable_of_hasColumn hc)
  have hstays : ∃ c ∈ t.columns, lower c ≠ lower column.text :=
    ⟨l.name, hcolumns ▸ List.mem_map_of_mem hl, hne⟩
  refine ⟨store.put name.text (some (t.keepColumns fun c => !sameName c column.text)), ?_, ?_⟩
  · rw [exec, htable]
    exact if_pos ⟨by rw [h.hasColumn htable, hc], hstays⟩
  · apply h.put
    have hleft : (db.columns name.text).filter (fun l => !sameName l.name column.text) ≠ [] :=
      List.ne_nil_of_mem (List.mem_filter.2 ⟨hl, by simpa [sameName] using hne⟩)
    have hkept : (t.keepColumns fun c => !sameName c column.text).columns =
        ((db.columns name.text).filter fun l => !sameName l.name column.text).map
          LiveColumn.name := (congrArg (List.filter _) hcolumns).trans List.filter_map
    rw [columnNames?, List.isEmpty_eq_false_iff.2 hleft, Option.map_some, hkept]
    rfl

theorem renameColumn {name source target : Name}
    (hx : db.exec (.renameColumn name source target) = some db') :
    ∃ store', store.exec (.renameColumn name source target) = some store' ∧
      store'.HasSchema db' := by
  simp only [Database.exec, Option.ite_none_right_eq_some, Option.some.injEq, Bool.and_eq_true,
    Bool.not_eq_true'] at hx
  obtain ⟨⟨⟨hs, hfree⟩, _⟩, rfl⟩ := hx
  obtain ⟨t, htable, hcolumns⟩ := h.exists_table (Database.hasTable_of_hasColumn hs)
  refine ⟨_, by
    rw [exec, htable]
    exact if_pos ⟨by rw [h.hasColumn htable, hs], by rw [h.hasColumn htable, hfree]⟩, ?_⟩
  refine of_tables (h.put name.text _ ?_) (Database.tables_mapColumns ..)
  simp [columnNames?, Table.mapNames, hcolumns, db.isEmpty_columns,
    Database.hasTable_of_hasColumn hs, Function.comp_def]

theorem renameTable {name target : Name} (hx : db.exec (.renameTable name target) = some db') :
    ∃ store', store.exec (.renameTable name target) = some store' ∧ store'.HasSchema db' := by
  simp only [Database.exec, Option.ite_none_right_eq_some, Option.some.injEq, Bool.and_eq_true,
    Bool.not_eq_true'] at hx
  obtain ⟨⟨⟨ht, hfree⟩, _⟩, rfl⟩ := hx
  obtain ⟨t, htable, hcolumns⟩ := h.exists_table ht
  refine ⟨(store.put name.text none).put target.text (some t), ?_, ?_⟩
  · rw [exec, htable]
    exact if_pos (by rw [h.table?_eq_none hfree]; rfl)
  · have hgone : (store.put name.text none).HasSchema (db.setColumns name.text []) :=
      h.put name.text [] rfl
    refine of_tables (hgone.put target.text _ ?_) rfl
    rw [← h name.text, htable]

theorem copyTable {source target : Name} {columns : List (Name × Option Name)}
    (hx : db.exec (.copyTable source target columns) = some db') :
    ∃ store', store.exec (.copyTable source target columns) = some store' ∧
      store'.HasSchema db' := by
  simp only [Database.exec, Option.ite_none_right_eq_some, Option.some.injEq, Database.canCopy,
    Bool.and_eq_true, List.all_eq_true] at hx
  obtain ⟨⟨⟨hs, ht⟩, hc⟩, rfl⟩ := hx
  obtain ⟨s, hsource, _⟩ := h.exists_table hs
  obtain ⟨t, htable, _⟩ := h.exists_table ht
  refine ⟨store.put target.text
    (some (t.copyRows s (columns.map fun c => (c.1.text, c.2.map Name.text)))), ?_,
    h.put_of_columns htable rfl⟩
  rw [exec, hsource, htable]
  refine if_pos fun c hm => ?_
  rw [h.hasColumn htable]
  refine ⟨(hc c hm).1, fun column hcolumn => ?_⟩
  rw [h.hasColumn hsource]
  simpa [Option.mem_def.1 hcolumn] using (hc c hm).2

theorem dropTable {name : Name} {ifExists : Bool}
    (hx : db.exec (.dropTable name ifExists) = some db') :
    ∃ store', store.exec (.dropTable name ifExists) = some store' ∧ store'.HasSchema db' := by
  rw [Database.exec] at hx
  split at hx
  next ht =>
    obtain ⟨t, htable, _⟩ := h.exists_table ht
    cases hx
    exact ⟨_, by rw [exec, htable], of_tables (h.put name.text [] rfl) rfl⟩
  next ht =>
    obtain ⟨he, hx⟩ := Option.ite_none_right_eq_some.1 hx
    cases hx
    have htable := h.table?_eq_none (Bool.eq_false_iff.2 ht)
    exact ⟨store, by rw [exec, htable]; exact if_pos he, h⟩

/-- What the engine does to the schema it does to the rows. -/
theorem step {s : Statement} (hs : s.SuitsRows) (hx : db.exec s = some db') :
    ∃ store', store.exec s = some store' ∧ store'.HasSchema db' := by
  cases s with
  | createTable => exact h.createTable hx
  | addColumn => exact h.addColumn hs hx
  | dropColumn => exact h.dropColumn hx
  | renameColumn => exact h.renameColumn hx
  | renameTable => exact h.renameTable hx
  | copyTable => exact h.copyTable hx
  | dropTable => exact h.dropTable hx
  | createIndex => exact ⟨store, rfl, h.of_tables (Database.tables_createIndex hx)⟩
  | dropIndex => exact ⟨store, rfl, h.of_tables (Database.tables_dropIndex hx)⟩
  | pragma =>
    cases hx
    exact ⟨store, rfl, h⟩
  | query | insert | update | delete => cases hs

theorem run {script : List Statement} (hs : ∀ s ∈ script, s.SuitsRows)
    (hx : db.run script = some db') :
    ∃ store', store.run script = some store' ∧ store'.HasSchema db' := by
  induction script generalizing db store with
  | nil =>
    cases hx
    exact ⟨store, rfl, h⟩
  | cons s script ih =>
    rw [Database.run_cons, Option.bind_eq_some_iff] at hx
    obtain ⟨db₁, h₁, h₂⟩ := hx
    obtain ⟨store₁, hs₁, hschema⟩ := h.step (hs s (.head _)) h₁
    obtain ⟨store', hs', hschema'⟩ := ih hschema (fun s hm => hs s (.tail _ hm)) h₂
    exact ⟨store', by rw [run_cons, hs₁, Option.bind_some, hs'], hschema'⟩

/-- Where only the rows would let a column go, it is a key or an index is over it. -/
theorem dropColumn_isSome_iff {name column : Name} :
    (db.exec (.dropColumn name column)).isSome = true ↔
      (store.exec (.dropColumn name column)).isSome = true ∧
        (∀ l ∈ db.columns name.text, lower l.name = lower column.text → l.isKey = false) ∧
        db.Unindexed name.text column.text := by
  constructor
  · intro hx
    obtain ⟨db', hx⟩ := Option.isSome_iff_exists.1 hx
    obtain ⟨store', hs, _⟩ := h.dropColumn hx
    rw [Database.exec, Option.ite_none_right_eq_some, Database.canDrop_iff] at hx
    obtain ⟨⟨_, hkey, _, hindex⟩, _⟩ := hx
    exact ⟨by rw [hs]; rfl, hkey, hindex⟩
  · rintro ⟨hs, hkey, hindex⟩
    obtain ⟨store', hs⟩ := Option.isSome_iff_exists.1 hs
    simp only [exec, Option.bind_eq_bind, Option.bind_eq_some_iff,
      Option.ite_none_right_eq_some] at hs
    obtain ⟨t, ht, ⟨hc, c, hm, hne⟩, _⟩ := hs
    rw [(h.columns_of_table ht).2] at hm
    obtain ⟨l, hl, rfl⟩ := List.mem_map.1 hm
    have hdrop : db.canDrop name.text column.text = true :=
      Database.canDrop_iff.2 ⟨by rw [← h.hasColumn ht, hc], hkey, ⟨l, hl, hne⟩, hindex⟩
    rw [Database.exec, if_pos hdrop]
    rfl

end Store.HasSchema

end Engine

/-! ### Plans -/

variable {m : Mapping} {catalog : Catalog} {capability : Capability} {live : LiveTable}
  {plan : SyncPlan}

theorem Mapping.suitsRows_rebuildStatements {renamed : LiveTable} {renames : List Rename} :
    ∀ s ∈ m.rebuildStatements capability renamed renames, s.SuitsRows := by
  simp [rebuildStatements, Statement.SuitsRows, Statement.isSchema]

theorem Mapping.suitsRows_inPlaceStatements {renamed : LiveTable} {renames : List Rename}
    (h : ∀ c ∈ m.addedColumns renamed, c.addLimitation? = none) :
    ∀ s ∈ m.inPlaceStatements renamed renames, s.SuitsRows := by
  intro s hs
  simp only [inPlaceStatements, List.mem_append, List.mem_map] at hs
  rcases hs with (⟨r, _, rfl⟩ | ⟨c, hc, rfl⟩) | ⟨d, _, rfl⟩
  · rfl
  · have haddable := Column.isAddable_definition.2 (h c hc)
    simp only [ColumnDef.isAddable, Bool.and_eq_true, Bool.not_eq_true'] at haddable
    exact haddable.2
  · rfl

/-- A plan is schema work, and it only adds columns that rows can have when it reports no other. -/
theorem Mapping.suitsRows_of_rejected (hp : m.syncPlan catalog capability live = .ok plan)
    (hr : plan.rejected = []) : ∀ s ∈ plan.statements, s.SuitsRows := by
  obtain ⟨desired, _, rfl⟩ := bind_pure_eq_ok_iff.1 hp
  intro s hs
  rcases List.mem_append.1 hs with hs | hs
  · rw [columnStatements] at hs
    split at hs
    next => exact suitsRows_rebuildStatements s hs
    next hre =>
      split at hs
      next =>
        rw [List.mem_singleton.1 hs]
        rfl
      next hempty =>
        refine suitsRows_inPlaceStatements (fun c hc => ?_) s hs
        have hnone : ∀ c ∈ m.addedColumns (live.rename (Rename.detect m live)),
            (c.addLimitation?.map fun l => (c.name, l)) = none := by
          simpa only [rejectedColumns, hre, hempty, Bool.or_self, Bool.false_eq_true, if_false,
            List.filterMap_eq_nil_iff] using hr
        exact Option.map_eq_none_iff.1 (hnone c hc)
  · exact forall_mem_indexStatements (fun _ => rfl) (fun _ => rfl) s hs

/-- A plan that the engine carries out on the schema, and that reports no column it cannot add, is
carried out on the rows as well. -/
theorem Mapping.exists_run_contents {α : Type} {db db' : Database} {store : Store α}
    (h : store.HasSchema db) (hp : m.syncPlan catalog capability live = .ok plan)
    (hrejected : plan.rejected = []) (hr : db.run plan.statements = some db') :
    ∃ store', store.run plan.statements = some store' ∧ store'.HasSchema db' :=
  h.run (suitsRows_of_rejected hp hrejected) hr

end RecordMapper
