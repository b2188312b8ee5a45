import RecordMapper.Proofs.Migration.Indexing
import RecordMapper.Proofs.Text.Trimming
/-!
A table as it was declared matches its mapping: newly created, and rebuilt through a copy.
-/

namespace RecordMapper

open Text Engine

theorem trim_sqlType (s : StorageClass) : trim s.sqlType = s.sqlType := by
  rw [trim, trimList_of_ends, String.ofList_toList]
  · cases s with
    | vector n => simpa [StorageClass.sqlType] using (by decide : isBlank 'F' = false)
    | _ =>
      rintro c ⟨⟩
      decide
  · cases s with
    | vector n =>
      have ht : (StorageClass.vector n).sqlType.toList =
          ("F32_BLOB(" ++ Numeral.ofNat n.toNat).toList ++ [')'] := by
        simp [StorageClass.sqlType]
      rw [ht, List.getLast?_concat]
      rintro c ⟨⟩
      decide
    | _ =>
      rintro c ⟨⟩
      decide

namespace Column

theorem typeMatches_stored (c : Column) : c.typeMatches c.definition.stored = true := by
  simp [typeMatches, stored_definition, trim_sqlType, sameName_refl]

theorem isKey_stored (c : Column) : c.definition.stored.isKey = c.primaryKey := by
  cases h : c.primaryKey <;> simp [LiveColumn.isKey, stored_definition, h]

theorem notNull_stored {c : Column} (h : c.primaryKey = false) :
    c.definition.stored.notNull = !c.nullable := by
  simp [stored_definition, isAutoIncrement, h]

end Column

variable {m : Mapping} {live : LiveTable}

/-- A created column differs from its declaration at most in uniqueness. -/
theorem Column.change?_stored {c : Column} {previous : Option String}
    (hu : c.primaryKey = false → live.isUnique m c previous = c.unique) :
    c.change? m c.definition.stored previous live = none := by
  rw [change?_eq_none_iff]
  refine ⟨typeMatches_stored c, (isKey_stored c).symm, fun hk => ?_⟩
  rw [notNull_stored hk, Bool.not_not, hu hk]
  exact ⟨rfl, rfl⟩

theorem Mapping.stored_definitions (m : Mapping) :
    m.definitions.map ColumnDef.stored = m.columns.map (·.definition.stored) := List.map_map

theorem column?_storedColumns (hv : m.Valid)
    (hc : live.columns = m.definitions.map ColumnDef.stored) {c : Column} (hm : c ∈ m.columns) :
    live.column? c.name = some c.definition.stored := by
  have hf : m.columns.find? (fun d => sameName d.name c.name) = some c := hv.columnByName hm rfl
  rw [LiveTable.column?, hc, m.stored_definitions, List.find?_map]
  simp only [Function.comp_def, Column.name_stored_definition, hf, Option.map_some]

/-- The key needs an index of the engine's unless the engine fills it in. -/
theorem keyIndexCount_storedColumns (hv : m.Valid)
    (hc : live.columns = m.definitions.map ColumnDef.stored) :
    live.keyIndexCount = (m.columns.filter (·.primaryKey)).countP (!·.isAutoIncrement) := by
  obtain ⟨k, hk, hs, _⟩ := hv.key
  have hf : live.columns.filter LiveColumn.isKey = [k.definition.stored] := by
    have hcomp : (LiveColumn.isKey ∘ fun c : Column => c.definition.stored) = Column.primaryKey :=
      funext Column.isKey_stored
    rw [hc, m.stored_definitions, List.filter_map, hcomp, hk, List.map_singleton]
  have hp : k.primaryKey = true := by
    have hm : k ∈ m.columns.filter (·.primaryKey) := by simp [hk]
    exact (List.mem_filter.1 hm).2
  rw [LiveTable.keyIndexCount, hf, hk]
  rcases hs with hs | hs
  · have hn : sameName (trim (StorageClass.sqlType .integer)) "INTEGER" = true := by decide +kernel
    simp [Column.stored_definition, hs, hn, Column.isAutoIncrement, hp, StorageClass.isInteger]
  · have hn : sameName (trim (StorageClass.sqlType .text)) "INTEGER" = false := by decide +kernel
    simp [Column.stored_definition, hs, hn, Column.isAutoIncrement, hp, StorageClass.isInteger]

theorem Mapping.countP_needsIndex (m : Mapping) :
    m.definitions.countP ColumnDef.needsIndex =
      m.columns.countP (fun c => c.unique && !c.primaryKey) +
        (m.columns.filter (·.primaryKey)).countP (!·.isAutoIncrement) := by
  rw [definitions, List.countP_map]
  induction m.columns with
  | nil => rfl
  | cons c cs ih =>
    cases hk : c.primaryKey <;> cases hu : c.unique <;> cases hi : c.storage.isInteger <;>
      simp [Column.needsIndex_definition, Column.isAutoIncrement, hk, hu, hi, ih] <;> omega

theorem LiveTable.hasUniqueIndex_eq_false {table : String}
    (hu : ∀ i ∈ live.indexes, i.belongsTo table = true → i.isUnique = false)
    (names : List String) : live.hasUniqueIndex table names = false := by
  rw [LiveTable.hasUniqueIndex, List.any_eq_false]
  intro name _ hn
  obtain ⟨i, hi, ht⟩ := List.any_eq_true.1 hn
  simp only [Bool.and_eq_true] at ht
  rw [hu i hi ht.1.1] at ht
  exact absurd ht.1.2 (by decide)

/-- A table made of the declared columns matches when the engine made the indexes it needs. -/
theorem matches_storedColumns (hv : m.Valid)
    (hc : live.columns = m.definitions.map ColumnDef.stored)
    (hu : ∀ i ∈ live.indexes, i.belongsTo m.table = true → i.isUnique = false)
    (he : m.definitions.countP ColumnDef.needsIndex ≤ live.engineIndexCount m.table) :
    live.Matches m := by
  have hnone := LiveTable.hasUniqueIndex_eq_false hu
  have hcount : live.unservedCount m + live.keyIndexCount ≤ live.engineIndexCount m.table := by
    simp only [LiveTable.unservedCount, hnone, Bool.not_false, Bool.and_true]
    rw [keyIndexCount_storedColumns hv hc, ← m.countP_needsIndex]
    exact he
  constructor
  · intro c hm
    refine ⟨_, column?_storedColumns hv hc hm, Column.change?_stored fun hk => ?_⟩
    cases hu : c.unique <;> simp [LiveTable.isUnique, hnone, hu, hcount]
  · intro l hl
    rw [hc, m.stored_definitions] at hl
    obtain ⟨c, hm, rfl⟩ := List.mem_map.1 hl
    have hf : m.columnByName? c.name = some c := hv.columnByName hm rfl
    simp only [Column.name_stored_definition, hf, Option.isSome_some]

namespace Engine

theorem engineIndexes_spec {table : String} {columns : List ColumnDef} {i : StoredIndex}
    (h : i ∈ engineIndexes table columns) : i.definition = none ∧ i.table = table := by
  obtain ⟨k, _, rfl⟩ := List.mem_map.1 h
  exact ⟨rfl, rfl⟩

theorem length_engineIndexes (table : String) (columns : List ColumnDef) :
    (engineIndexes table columns).length = columns.countP ColumnDef.needsIndex := by
  simp [engineIndexes]

namespace Database

variable {db : Database}

theorem hasTable_congr {t u : String} (h : lower t = lower u) : db.hasTable t = db.hasTable u := by
  simp [hasTable, columns, h]

theorem isUnique_of_none {i : StoredIndex} (h : i.definition = none) : i.live.isUnique = false := by
  simp [StoredIndex.live, LiveIndex.isUnique, h]

/-- All of some indexes are counted when the engine made them for the table. -/
theorem length_le_engineIndexCount {live : LiveTable} {table : String}
    {others made : List StoredIndex}
    (hi : live.indexes = (others ++ made).map StoredIndex.live)
    (hm : ∀ i ∈ made, i.Sound ∧ i.definition = none ∧ i.table = table) :
    made.length ≤ live.engineIndexCount table := by
  have hc : made.countP (fun i => i.live.belongsTo table && i.live.isEngineMade) = made.length := by
    rw [List.countP_eq_length]
    intro i hi
    obtain ⟨hs, hd, ht⟩ := hm i hi
    rw [hs.isEngineMade, hd, LiveIndex.belongsTo, StoredIndex.live, ht, sameName_refl]
    rfl
  rw [LiveTable.engineIndexCount, hi, List.countP_map, List.countP_append, ← hc]
  exact Nat.le_add_left _ _

/-- Creating the table of a mapping. -/
theorem matches_createTable (hv : m.Valid) (hdb : db.Consistent m.table)
    (hn : db.hasTable m.table = false) :
    ((db.createTable m.table m.definitions).snapshot m.table).Matches m ∧
      Carried db.indexes (db.createTable m.table m.definitions).indexes := by
  have hcols : db.columns m.table = [] := by simpa [hasTable] using hn
  constructor
  · apply matches_storedColumns hv
    · simp [snapshot, columns_createTable]
    · intro i hi hb
      obtain ⟨j, hj, rfl⟩ := List.mem_map.1 hi
      apply isUnique_of_none
      rcases List.mem_append.1 hj with hj | hj
      · by_contra hd
        obtain ⟨d, hd⟩ := Option.ne_none_iff_exists'.1 hd
        obtain ⟨c, cs, hc⟩ := List.exists_cons_of_ne_nil ((hdb.indexes j hj).plain hd).nonempty
        have hcol := hdb.overColumns j hj hb d hd c (by simp [hc])
        simp [hasColumn, hcols] at hcol
      · exact (engineIndexes_spec hj).1
    · rw [← length_engineIndexes m.table]
      apply length_le_engineIndexCount rfl
      intro i hi
      exact ⟨StoredIndex.sound_engineIndexes hi, engineIndexes_spec hi⟩
  · refine ⟨hdb.indexNames, hdb.indexes, fun i hi => ?_, fun j hj => ?_⟩
    · exact ⟨i, List.mem_append_left _ hi, rfl, rfl, rfl⟩
    · rcases List.mem_append.1 hj with hj | hj
      · exact .inl ⟨j, hj, rfl, rfl, rfl⟩
      · exact .inr (engineIndexes_spec hj).1

/-- The indexes after a rebuild: those of other tables, and those that the engine made. -/
theorem indexes_rebuild {table shadow : String} (columns : List ColumnDef)
    (ho : ∀ i ∈ db.indexes, i.belongsTo table = true ∨ db.hasTable i.table = true)
    (hne : lower shadow ≠ lower table) (hs : db.hasTable shadow = false) :
    (((db.createTable shadow columns).dropTable table).renameTable shadow table).indexes =
      db.indexes.filter (fun i => !i.belongsTo table) ++
        (engineIndexes shadow columns).map (·.renameTable shadow table) := by
  simp only [renameTable, mapIndexes, dropTable, createTable, indexes_setColumns,
    List.filter_append, List.map_append]
  congr 1
  · have hno : ∀ i ∈ db.indexes.filter (fun i => !i.belongsTo table),
        i.belongsTo shadow = false := by
      intro i hi
      obtain ⟨hm, hb⟩ := List.mem_filter.1 hi
      rw [Bool.eq_false_iff]
      intro hbs
      rcases ho i hm with ht | ht
      · simp [ht] at hb
      · rw [hasTable_congr (sameName_iff.1 hbs), hs] at ht
        cases ht
    refine Eq.trans (List.map_congr_left fun i hi => ?_) (List.map_id _)
    rw [hno i hi]
    rfl
  · rw [List.filter_eq_self.2]
    · apply List.map_congr_left
      intro i hi
      simp [StoredIndex.belongsTo, (engineIndexes_spec hi).2, sameName_refl]
    · intro i hi
      simp [StoredIndex.belongsTo, (engineIndexes_spec hi).2, sameName, hne]

theorem columns_rebuild {table shadow : String} {columns : List ColumnDef}
    (hne : lower shadow ≠ lower table) :
    (((db.createTable shadow columns).dropTable table).renameTable shadow table).columns table =
      columns.map ColumnDef.stored := by
  rw [renameTable, columns_mapIndexes, columns_setColumns_self]
  exact (if_neg hne).trans (if_pos rfl)

/-- Rebuilding the table of a mapping through a shadow copy. -/
theorem matches_rebuild {shadow : String} (hv : m.Valid) (hdb : db.Consistent m.table)
    (hne : lower shadow ≠ lower m.table) (hs : db.hasTable shadow = false)
    (hp : isPlain m.table = true) :
    let db' := ((db.createTable shadow m.definitions).dropTable m.table).renameTable shadow m.table
    (db'.snapshot m.table).Matches m ∧
      Carried (db.indexes.filter fun i => !i.belongsTo m.table) db'.indexes := by
  intro db'
  have hi := indexes_rebuild m.definitions hdb.ofTables hne hs
  have hmade : ∀ i ∈ (engineIndexes shadow m.definitions).map (·.renameTable shadow m.table),
      i.Sound ∧ i.definition = none ∧ i.table = m.table := by
    intro i hi
    obtain ⟨j, hj, rfl⟩ := List.mem_map.1 hi
    exact ⟨(StoredIndex.sound_engineIndexes hj).renameTable hp, (engineIndexes_spec hj).1, rfl⟩
  constructor
  · apply matches_storedColumns hv
    · exact columns_rebuild hne
    · intro i hm hb
      obtain ⟨j, hj, rfl⟩ := List.mem_map.1 hm
      rw [hi] at hj
      rcases List.mem_append.1 hj with hj | hj
      · have hno := (List.mem_filter.1 hj).2
        rw [Bool.not_eq_true'] at hno
        exact absurd hb (by rw [Bool.not_eq_true]; exact hno)
      · exact isUnique_of_none (hmade j hj).2.1
    · rw [← length_engineIndexes shadow, ← List.length_map (·.renameTable shadow m.table)]
      exact length_le_engineIndexCount (congrArg (List.map StoredIndex.live) hi) hmade
  · rw [hi]
    refine ⟨?_, fun i hm => hdb.indexes i (List.mem_of_mem_filter hm), fun i hm => ?_,
      fun j hj => ?_⟩
    · exact hdb.indexNames.sublist ((List.filter_sublist.map _).map _)
    · exact ⟨i, List.mem_append_left _ hm, rfl, rfl, rfl⟩
    · rcases List.mem_append.1 hj with hj | hj
      · exact .inl ⟨j, hj, rfl, rfl, rfl⟩
      · exact .inr (hmade j hj).2.1

end Database

end Engine

end RecordMapper
