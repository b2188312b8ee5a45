import Mathlib.Data.List.Perm.Subperm
import RecordMapper.Proofs.Engine.Constraint
import RecordMapper.Proofs.Migration.Idempotence
/-!
Which columns are unique after a migration, when the live table was created from another mapping. A
plan counts the engine's indexes, so it sees that a constraint is missing but not which one is in
excess.
-/

namespace RecordMapper

open Text Engine

variable {m : Mapping}

theorem Mapping.uniqueNames_definitions (m : Mapping) :
    uniqueNames m.definitions =
      (m.columns.filter fun c => c.unique && !c.primaryKey).map Column.name := by
  simp [uniqueNames, definitions, List.filter_map, Function.comp_def]

/-- Of distinct columns, one outside the key is under UNIQUE when it is declared so. -/
theorem Mapping.Valid.mem_uniqueNames (hv : m.Valid) {c : Column} (hc : c ∈ m.columns)
    (hk : c.primaryKey = false) :
    (∃ x ∈ uniqueNames m.definitions, lower x = lower c.name) ↔ c.unique = true := by
  rw [m.uniqueNames_definitions]
  constructor
  · rintro ⟨x, hx, he⟩
    obtain ⟨d, hd, rfl⟩ := List.mem_map.1 hx
    obtain ⟨hd, hu⟩ := List.mem_filter.1 hd
    have hdc : d = c := hv.names.eq hd hc he
    rw [hdc, Bool.and_eq_true] at hu
    exact hu.1
  · intro hu
    exact ⟨c.name, List.mem_map_of_mem (List.mem_filter.2 ⟨hc, by simp [hu, hk]⟩), rfl⟩

theorem Mapping.uniqueNames_sublist (m : Mapping) :
    (uniqueNames m.definitions).Sublist (m.columns.map Column.name) := by
  rw [uniqueNames_definitions]
  exact List.filter_sublist.map _

theorem Mapping.length_uniqueNames (m : Mapping) :
    (uniqueNames m.definitions).length = m.columns.countP fun c => c.unique && !c.primaryKey := by
  rw [uniqueNames_definitions, List.length_map, List.countP_eq_length_filter]

/-- Distinct names that lie among no more names than they are, are all of these. -/
theorem DistinctNames.exhaust {a b : List String} (ha : DistinctNames a)
    (hs : ∀ x ∈ a, ∃ y ∈ b, lower y = lower x) (hl : b.length ≤ a.length) :
    ∀ y ∈ b, ∃ x ∈ a, lower x = lower y := by
  have hsub : a.map lower ⊆ b.map lower := by
    intro n hn
    obtain ⟨x, hx, rfl⟩ := List.mem_map.1 hn
    obtain ⟨y, hy, he⟩ := hs x hx
    exact List.mem_map.2 ⟨y, hy, he⟩
  have hperm : (a.map lower).Perm (b.map lower) :=
    (List.Nodup.subperm ha hsub).perm_of_length_le (by simpa using hl)
  intro y hy
  exact List.mem_map.1 (hperm.mem_iff.2 (List.mem_map_of_mem hy))

theorem LiveTable.keyIndexCount_rename (live : LiveTable) (renames : List Rename) :
    (live.rename renames).keyIndexCount = live.keyIndexCount := by
  have hf : (live.rename renames).columns.filter LiveColumn.isKey =
      (live.columns.filter LiveColumn.isKey).map
        fun l => { l with name := Rename.newName renames l.name } := by
    rw [LiveTable.rename, List.filter_map]
    rfl
  rw [LiveTable.keyIndexCount, hf, LiveTable.keyIndexCount]
  rcases live.columns.filter LiveColumn.isKey with _ | ⟨k, _ | ⟨k', ks⟩⟩ <;> rfl

namespace Engine

variable {db db' : Database} {table : String}

/-- No index of the table is unique but those that the engine made. -/
def Database.NoUniqueIndex (db : Database) (table : String) : Prop :=
  ∀ i ∈ db.indexes, i.belongsTo table = true → ∀ d, i.definition = some d → d.unique = false

namespace Database.NoUniqueIndex

variable (h : db.NoUniqueIndex table)

include h

theorem not_uniqueColumn (x : String) : ¬db.UniqueColumn table x := by
  rintro ⟨i, hi, hb, d, hd, hu, _⟩
  rw [h i hi hb d hd] at hu
  cases hu

theorem hasUniqueIndex (hs : db.Sound) {live : LiveTable}
    (hl : live.indexes = db.indexes.map StoredIndex.live) (names : List String) :
    live.hasUniqueIndex table names = false := by
  apply LiveTable.hasUniqueIndex_eq_false
  intro i hi hb
  rw [hl] at hi
  obtain ⟨j, hj, rfl⟩ := List.mem_map.1 hi
  rw [(hs.indexes j hj).isUnique]
  cases hd : j.definition with
  | none => rfl
  | some d => exact h j hj hb d hd

theorem of_kept (hk : ∀ j ∈ db'.indexes, ∃ i ∈ db.indexes, i.Kept j) :
    db'.NoUniqueIndex table := by
  intro j hj hb d hd
  obtain ⟨i, hi, hij⟩ := hk j hj
  have hu := hij.unique
  rw [hd] at hu
  obtain ⟨e, he, hed⟩ := Option.map_eq_some_iff.1 hu.symm
  rw [← hed]
  refine h i hi ?_ e he
  rw [StoredIndex.belongsTo, ← hij.table]
  exact hb

/-- Wanted indexes are not unique. -/
theorem of_indexWork {t : String} {desired : List DesiredIndex} {survivors stale : List LiveIndex}
    {added : List StoredIndex} (hw : IndexWork db db' t desired survivors added stale) :
    db'.NoUniqueIndex table := by
  intro i hi hb d hd
  rw [hw.result] at hi
  rcases List.mem_append.1 (List.mem_of_mem_filter hi) with hm | hm
  · exact h i hm hb d hd
  · obtain ⟨e, _, rfl, _⟩ := hw.creates i hm
    cases hd
    rfl

end Database.NoUniqueIndex

theorem Database.noUniqueIndex_rebuild {shadow : String} (columns : List ColumnDef)
    (ho : ∀ i ∈ db.indexes, i.belongsTo table = true ∨ db.hasTable i.table = true)
    (hne : lower shadow ≠ lower table) (hs : db.hasTable shadow = false) :
    (((db.createTable shadow columns).dropTable table).renameTable shadow table).NoUniqueIndex
      table := by
  intro i hi hb d hd
  rw [Database.indexes_rebuild columns ho hne hs] at hi
  rcases List.mem_append.1 hi with hi | hi
  · have hno := (List.mem_filter.1 hi).2
    rw [hb] at hno
    cases hno
  · obtain ⟨j, hj, rfl⟩ := List.mem_map.1 hi
    have hnone : (j.renameTable shadow table).definition = none := (engineIndexes_spec hj).1
    rw [hnone] at hd
    cases hd

/-- A column is only renamed to a name that is free. -/
theorem Database.distinct_renameColumn {source target : String}
    (hd : DistinctNames ((db.columns table).map LiveColumn.name))
    (h : db.exec (.renameColumn (.simple table) (.simple source) (.simple target)) = some db') :
    DistinctNames ((db'.columns table).map LiveColumn.name) := by
  have hfree : ∀ n ∈ (db.columns table).map LiveColumn.name, lower n ≠ lower target := by
    simp only [Database.exec, text_simple, Option.ite_none_right_eq_some, Bool.and_eq_true,
      Bool.not_eq_true'] at h
    simpa [Database.hasColumn, sameName] using h.1.1.2
  rw [Database.exec_renameColumn h, Database.renameColumn, Database.columns_mapColumns,
    List.map_map]
  rw [DistinctNames, List.map_map] at hd ⊢
  refine hd.of_map.map_on fun a ha b hb he => List.inj_on_of_nodup_map hd ha hb ?_
  have ha' := hfree _ (List.mem_map_of_mem ha)
  have hb' := hfree _ (List.mem_map_of_mem hb)
  simp only [Function.comp_apply] at he ⊢
  split at he
  next hsa =>
    split at he
    next hsb => exact (sameName_iff.1 hsa).symm.trans (sameName_iff.1 hsb)
    next => exact absurd he.symm hb'
  next =>
    split at he
    next => exact absurd he ha'
    next => exact he

theorem Database.distinct_renames {renames : List Rename}
    (hd : DistinctNames ((db.columns table).map LiveColumn.name))
    (h : db.run (renames.map fun r =>
      .renameColumn (.simple table) (.simple r.source) (.simple r.target)) = some db') :
    DistinctNames ((db'.columns table).map LiveColumn.name) := by
  induction renames generalizing db with
  | nil =>
    cases h
    exact hd
  | cons r rs ih =>
    rw [List.map_cons, Database.run_cons, Option.bind_eq_some_iff] at h
    obtain ⟨db₁, h₁, h₂⟩ := h
    exact ih (Database.distinct_renameColumn hd h₁) h₂

namespace Constrained

variable {s s' : Constrained} {m₁ m₂ : Mapping} {renames : List Rename}

/-- The column is under a UNIQUE constraint or a unique index of its own. -/
def Enforces (s : Constrained) (table column : String) : Prop :=
  ∃ x, (x ∈ s.constraints table ∨ s.db.UniqueColumn table x) ∧ lower x = lower column

/-- Every column but the key is kept unique exactly when it is declared so. -/
def Upholds (s : Constrained) (m : Mapping) : Prop :=
  ∀ c ∈ m.columns, c.primaryKey = false → (s.Enforces m.table c.name ↔ c.unique = true)

/-- The table is as it was created from a mapping. Indexes may have been added to it since, but none
that is unique, and every index of the database has its table. -/
structure CreatedFrom (s : Constrained) (table : String) (m : Mapping) : Prop where
  sound : s.db.Sound
  ofTables : ∀ i ∈ s.db.indexes, i.belongsTo table = true ∨ s.db.hasTable i.table = true
  columns : s.db.columns table = m.definitions.map ColumnDef.stored
  constraints : s.constraints table = uniqueNames m.definitions
  made : s.db.indexes.countP (fun i => i.belongsTo table && !i.definition.isSome) =
    m.definitions.countP ColumnDef.needsIndex
  noUniqueIndex : s.db.NoUniqueIndex table

theorem enforces_iff (h : s.db.NoUniqueIndex table) {column : String} :
    s.Enforces table column ↔ ∃ x ∈ s.constraints table, lower x = lower column := by
  constructor
  · rintro ⟨x, hx | hx, he⟩
    · exact ⟨x, hx, he⟩
    · exact absurd hx (h.not_uniqueColumn x)
  · rintro ⟨x, hx, he⟩
    exact ⟨x, .inl hx, he⟩

/-- Index work makes no index that is unique. -/
theorem run_indexStatements {desired : List DesiredIndex} {survivors : List LiveIndex} {t : String}
    (hn : s.db.NoUniqueIndex table) (h : s.run (indexStatements t desired survivors) = some s') :
    s'.unique = s.unique ∧ s'.db.NoUniqueIndex table := by
  constructor
  · apply run_keeps _ h
    intro statement hm s₀
    rcases List.mem_append.1 hm with hm | hm
    · obtain ⟨d, _, rfl⟩ := List.mem_map.1 hm
      rfl
    · obtain ⟨i, _, rfl⟩ := List.mem_map.1 hm
      rfl
  · obtain ⟨added, stale, hw⟩ := Database.run_indexStatements (run_db h)
    exact hn.of_indexWork hw

/-- In place, constraints follow the renamed columns, and no column under one is dropped. -/
theorem run_inPlace (hr : ∀ r ∈ renames, ∀ r' ∈ renames, lower r.target ≠ lower r'.source)
    (hd : DistinctNames ((s.db.columns m.table).map LiveColumn.name))
    (h : s.run (m.inPlaceStatements ((s.db.snapshot m.table).rename renames) renames) = some s') :
    s'.constraints m.table = (s.constraints m.table).map (Rename.newName renames) ∧
      (∀ d ∈ m.droppedColumns ((s.db.snapshot m.table).rename renames),
        ∀ x ∈ s'.constraints m.table, lower x ≠ lower d.name) ∧
      DistinctNames (((s.db.snapshot m.table).rename renames).columns.map LiveColumn.name) := by
  rw [Mapping.inPlaceStatements, run_append, Option.bind_eq_some_iff] at h
  obtain ⟨s₂, h₁₂, h₃⟩ := h
  rw [run_append, Option.bind_eq_some_iff] at h₁₂
  obtain ⟨s₁, h₁, h₂⟩ := h₁₂
  have hadds : s₂.unique = s₁.unique := by
    apply run_keeps _ h₂
    intro statement hm s₀
    obtain ⟨c, _, rfl⟩ := List.mem_map.1 hm
    rfl
  obtain ⟨hdrops, hnone⟩ := run_drops h₃
  refine ⟨?_, fun d hm x hx => hnone d hm x ?_, ?_⟩
  · rw [constraints, hdrops, hadds]
    exact run_renames hr h₁
  · rw [constraints, hdrops] at hx
    exact hx
  · have hcols := Database.distinct_renames hd (run_db h₁)
    rw [Database.run_renames hr (run_db h₁), Database.columns_mapColumns] at hcols
    exact hcols

namespace CreatedFrom

theorem congr {t u : String} (h : s.CreatedFrom t m) (he : lower t = lower u) :
    s.CreatedFrom u m := by
  have hb (i : StoredIndex) : i.belongsTo u = i.belongsTo t := by
    rw [StoredIndex.belongsTo, StoredIndex.belongsTo, sameName, sameName, he]
  have hc : s.db.columns u = s.db.columns t := by
    rw [Database.columns, Database.columns, he]
  have hu : s.constraints u = s.constraints t := by
    rw [Constrained.constraints, Constrained.constraints, he]
  refine ⟨h.sound, ?_, hc.trans h.columns, hu.trans h.constraints, ?_, ?_⟩
  · simpa only [hb] using h.ofTables
  · simpa only [hb] using h.made
  · intro i hi hbi
    exact h.noUniqueIndex i hi (by rw [← hb]; exact hbi)

/-- A table that was just created in a database without stray indexes. -/
theorem of_createTable {t : String} {b : Bool} (hs : s.db.Sound)
    (ho : ∀ i ∈ s.db.indexes, s.db.hasTable i.table = true) (hn : s.db.hasTable t = false)
    (h : s.exec (.createTable (.simple t) m.definitions b) = some s') : s'.CreatedFrom t m := by
  obtain ⟨hdb, _, hunique⟩ := exec_eq_some h
  obtain ⟨he, _, _⟩ := Database.exec_createTable hn hdb
  have hold : ∀ i ∈ s.db.indexes, i.belongsTo t = false := by
    intro i hi
    rw [Bool.eq_false_iff]
    intro hb
    have ht := ho i hi
    rw [Database.hasTable_congr (sameName_iff.1 hb), hn] at ht
    cases ht
  have hmade : ∀ i ∈ engineIndexes t m.definitions, i.belongsTo t = true ∧ i.definition = none := by
    intro i hi
    obtain ⟨hd, ht⟩ := engineIndexes_spec hi
    exact ⟨by rw [StoredIndex.belongsTo, ht, sameName_refl], hd⟩
  have hi : s'.db.indexes = s.db.indexes ++ engineIndexes t m.definitions := by rw [he]; rfl
  refine ⟨Database.exec_sound hs hdb, ?_, ?_, ?_, ?_, ?_⟩
  · rw [hi, List.forall_mem_append]
    refine ⟨fun i hm => .inr ?_, fun i hm => .inl (hmade i hm).1⟩
    have hne : lower i.table ≠ lower t := fun hl => by
      have hb := hold i hm
      rw [StoredIndex.belongsTo, sameName_iff.2 hl] at hb
      cases hb
    rw [Database.hasTable, he, Database.columns_createTable, if_neg hne]
    exact ho i hm
  · rw [he, Database.columns_createTable, if_pos rfl]
  · rw [Constrained.constraints, hunique]
    simp only [constraintsAfter, text_simple, hn, Bool.false_eq_true, if_false]
    exact put_self _ _ _
  · have hz : s.db.indexes.countP (fun i => i.belongsTo t && !i.definition.isSome) = 0 := by
      rw [List.countP_eq_zero]
      intro i hm
      simp [hold i hm]
    have hall : (engineIndexes t m.definitions).countP
        (fun i => i.belongsTo t && !i.definition.isSome) =
          (engineIndexes t m.definitions).length := by
      rw [List.countP_eq_length]
      intro i hm
      simp [hmade i hm]
    rw [hi, List.countP_append, hz, hall, length_engineIndexes, Nat.zero_add]
  · intro i hm hb d hd
    rw [hi] at hm
    rcases List.mem_append.1 hm with hm | hm
    · rw [hold i hm] at hb
      cases hb
    · rw [(hmade i hm).2] at hd
      cases hd

variable (h : s.CreatedFrom m₂.table m₁)

include h

theorem engineIndexCount {live : LiveTable}
    (hl : live.indexes = s.db.indexes.map StoredIndex.live) :
    live.engineIndexCount m₂.table = m₁.definitions.countP ColumnDef.needsIndex := by
  rw [LiveTable.engineIndexCount, hl, List.countP_map, ← h.made]
  apply List.countP_congr
  intro i hi
  simp only [Function.comp_apply, (h.sound.indexes i hi).isEngineMade]
  exact Iff.rfl

/-- Where a declared column is taken for unique, no more columns are declared unique than there are
under constraints. -/
theorem length_uniqueNames_le (hv : m₁.Valid) {c : Column} {previous : Option String}
    (hc : c.unique = true)
    (hu : ((s.db.snapshot m₂.table).rename renames).isUnique m₂ c previous = true) :
    (uniqueNames m₂.definitions).length ≤ (uniqueNames m₁.definitions).length := by
  have hnone (names : List String) :
      ((s.db.snapshot m₂.table).rename renames).hasUniqueIndex m₂.table names = false :=
    h.noUniqueIndex.hasUniqueIndex h.sound rfl names
  have hkey : (s.db.snapshot m₂.table).keyIndexCount = _ :=
    keyIndexCount_storedColumns hv h.columns
  have hcount : ((s.db.snapshot m₂.table).rename renames).engineIndexCount m₂.table = _ :=
    h.engineIndexCount rfl
  simp only [LiveTable.isUnique, hnone, hc, Bool.not_true, Bool.or_false, Bool.false_eq_true,
    if_false, LiveTable.keyIndexCount_rename, hkey, hcount, m₁.countP_needsIndex,
    decide_eq_true_eq, LiveTable.unservedCount, Bool.not_false, Bool.and_true] at hu
  rw [m₁.length_uniqueNames, m₂.length_uniqueNames]
  omega

theorem mem_constraints {x : String} : x ∈ s.constraints m₂.table ↔
    ∃ c ∈ m₁.columns, c.unique = true ∧ c.primaryKey = false ∧ c.name = x := by
  rw [h.constraints, m₁.uniqueNames_definitions, List.mem_map]
  simp only [List.mem_filter, Bool.and_eq_true, Bool.not_eq_true', and_assoc]

theorem exists_renamed (renames : List Rename) {c : Column} (hc : c ∈ m₁.columns) :
    ∃ l ∈ ((s.db.snapshot m₂.table).rename renames).columns,
      l.name = Rename.newName renames c.name ∧ l.isKey = c.primaryKey := by
  have hm : c.definition.stored ∈ (s.db.snapshot m₂.table).columns := by
    rw [Database.snapshot, h.columns, m₁.stored_definitions]
    exact List.mem_map_of_mem hc
  exact ⟨_, List.mem_map_of_mem hm, rfl, c.isKey_stored⟩

/-- A column that takes over a live one is a key when that one is, or else the plan rebuilds. -/
theorem primaryKey_eq
    (hd : DistinctNames (((s.db.snapshot m₂.table).rename renames).columns.map LiveColumn.name))
    (hn : m₂.firstChange? ((s.db.snapshot m₂.table).rename renames) renames = none)
    {c₁ c : Column} (hc₁ : c₁ ∈ m₁.columns) (hc : c ∈ m₂.columns)
    (he : lower (Rename.newName renames c₁.name) = lower c.name) :
    c.primaryKey = c₁.primaryKey := by
  obtain ⟨l, hl, hname, hkey⟩ := h.exists_renamed renames hc₁
  have hf : ((s.db.snapshot m₂.table).rename renames).column? c.name = some l := by
    rw [LiveTable.column?]
    apply find?_eq_some_of_unique hl
    · rw [sameName_iff, hname, he]
    · intro l' hl' hs
      exact hd.eq hl' hl ((sameName_iff.1 hs).trans (by rw [hname, he]))
  have hnone := Mapping.firstChange?_eq_none_iff.1 hn c hc l hf
  rw [Column.change?_eq_none_iff] at hnone
  rw [hnone.2.1, hkey]

/-- The column that a constraint follows stays, and takes over the uniqueness. -/
theorem exists_declared
    (hd : DistinctNames (((s.db.snapshot m₂.table).rename renames).columns.map LiveColumn.name))
    (hn : m₂.firstChange? ((s.db.snapshot m₂.table).rename renames) renames = none)
    (hv : m₂.Valid)
    (hc : s'.constraints m₂.table = (s.constraints m₂.table).map (Rename.newName renames))
    (hdrop : ∀ d ∈ m₂.droppedColumns ((s.db.snapshot m₂.table).rename renames),
      ∀ x ∈ s'.constraints m₂.table, lower x ≠ lower d.name)
    (hall : ∀ c₁ ∈ m₁.columns, c₁.unique = true → c₁.primaryKey = false → ∀ c ∈ m₂.columns,
      lower (Rename.newName renames c₁.name) = lower c.name → c.unique = true) :
    ∀ x ∈ s'.constraints m₂.table, ∃ y ∈ uniqueNames m₂.definitions, lower y = lower x := by
  intro x hx
  have hx' := hx
  rw [hc, List.mem_map] at hx'
  obtain ⟨y, hy, rfl⟩ := hx'
  obtain ⟨c₁, hc₁, hu, hk, rfl⟩ := h.mem_constraints.1 hy
  obtain ⟨l, hl, hname, _⟩ := h.exists_renamed renames hc₁
  have hsome : (m₂.columnByName? l.name).isSome = true := by
    by_contra hno
    exact hdrop l (List.mem_filter.2 ⟨hl, by simpa using hno⟩) _ hx (by rw [hname])
  obtain ⟨c, hf⟩ := Option.isSome_iff_exists.1 hsome
  obtain ⟨hcm, hcn⟩ := Mapping.columnByName?_eq_some hf
  rw [hname] at hcn
  have hcu := hall c₁ hc₁ hu hk c hcm hcn.symm
  have hck := (h.primaryKey_eq hd hn hc₁ hcm hcn.symm).trans hk
  obtain ⟨z, hz, he⟩ := (hv.mem_uniqueNames hcm hck).2 hcu
  exact ⟨z, hz, he.trans hcn⟩

/-- What is declared unique was not added, so the plan has counted it. -/
theorem length_le (hv : m₁.Valid)
    (hn : m₂.firstChange? ((s.db.snapshot m₂.table).rename renames) renames = none)
    (hw : Database.ChangedInPlace s.db s'.db m₂ renames) {c : Column} (hc : c ∈ m₂.columns)
    (hk : c.primaryKey = false) (hu : c.unique = true) :
    (uniqueNames m₂.definitions).length ≤ (uniqueNames m₁.definitions).length := by
  cases hl : ((s.db.snapshot m₂.table).rename renames).column? c.name with
  | none =>
    have hadded : c ∈ m₂.addedColumns ((s.db.snapshot m₂.table).rename renames) :=
      List.mem_filter.2 ⟨hc, by rw [hl]; rfl⟩
    rw [(hw.added c hadded).2] at hu
    cases hu
  | some l =>
    have hnone := Mapping.firstChange?_eq_none_iff.1 hn c hc l hl
    rw [Column.change?_eq_none_iff] at hnone
    exact h.length_uniqueNames_le hv hu ((hnone.2.2 hk).2.symm.trans hu)

/-- In place, uniqueness is reached when no column that loses it takes over a unique one: then the
constraints are on declared columns, and by their number on all of these. -/
theorem constraints_iff (hv₁ : m₁.Valid) (hv₂ : m₂.Valid)
    (hr : renames = Rename.detect m₂ (s.db.snapshot m₂.table))
    (hn : m₂.firstChange? ((s.db.snapshot m₂.table).rename renames) renames = none)
    (hrun : s.run (m₂.inPlaceStatements ((s.db.snapshot m₂.table).rename renames) renames) =
      some s') :
    (∀ c ∈ m₂.columns, c.primaryKey = false →
        ((∃ x ∈ s'.constraints m₂.table, lower x = lower c.name) ↔ c.unique = true)) ↔
      ∀ c₁ ∈ m₁.columns, c₁.unique = true → c₁.primaryKey = false → ∀ c ∈ m₂.columns,
        lower (Rename.newName renames c₁.name) = lower c.name → c.unique = true := by
  have hnames : DistinctNames ((s.db.columns m₂.table).map LiveColumn.name) := by
    rw [h.columns, m₁.stored_definitions, List.map_map]
    exact hv₁.names
  have hfree := Rename.targets_ne_sources hr
  obtain ⟨hconstraints, hdrop, hdistinct⟩ := run_inPlace hfree hnames hrun
  have hw := Database.run_inPlace hfree (run_db hrun)
  have hkey {c₁ c : Column} (hc₁ : c₁ ∈ m₁.columns) (hc : c ∈ m₂.columns)
      (he : lower (Rename.newName renames c₁.name) = lower c.name) : c.primaryKey = c₁.primaryKey :=
    h.primaryKey_eq hdistinct hn hc₁ hc he
  constructor
  · intro hall c₁ hc₁ hu hk c hc he
    refine (hall c hc ((hkey hc₁ hc he).trans hk)).1 ⟨Rename.newName renames c₁.name, ?_, he⟩
    rw [hconstraints]
    exact List.mem_map_of_mem (h.mem_constraints.2 ⟨c₁, hc₁, hu, hk, rfl⟩)
  · intro hall c hc hk
    constructor
    · rintro ⟨x, hx, he⟩
      rw [hconstraints, List.mem_map] at hx
      obtain ⟨y, hy, rfl⟩ := hx
      obtain ⟨c₁, hc₁, hu, hk₁, rfl⟩ := h.mem_constraints.1 hy
      exact hall c₁ hc₁ hu hk₁ c hc he
    · intro hu
      obtain ⟨y, hy, hyc⟩ := (hv₂.mem_uniqueNames hc hk).2 hu
      rw [← hyc]
      -- The plan only counted, so what is declared and what is constrained agree by their number.
      refine DistinctNames.exhaust ?_
        (h.exists_declared hdistinct hn hv₂ hconstraints hdrop hall) ?_ y hy
      · have hlive : ((s.db.snapshot m₂.table).rename renames).columns.map LiveColumn.name =
            (m₁.columns.map Column.name).map (Rename.newName renames) := by
          simp [LiveTable.rename, Database.snapshot, h.columns, m₁.stored_definitions]
        rw [hconstraints, h.constraints]
        rw [hlive] at hdistinct
        exact hdistinct.sublist ((m₁.uniqueNames_sublist.map _).map _)
      · rw [hconstraints, List.length_map, h.constraints]
        exact h.length_le hv₁ hn hw hc hk hu

end CreatedFrom

/-- Index work changes nothing about uniqueness. -/
theorem upholds_indexStatements {desired : List DesiredIndex} {survivors : List LiveIndex}
    (hn : s.db.NoUniqueIndex m.table)
    (h : s.run (indexStatements m.table desired survivors) = some s') :
    s'.Upholds m ↔ ∀ c ∈ m.columns, c.primaryKey = false →
      ((∃ x ∈ s.constraints m.table, lower x = lower c.name) ↔ c.unique = true) := by
  obtain ⟨hunique, hn'⟩ := run_indexStatements hn h
  simp only [Upholds, enforces_iff hn', constraints, hunique]

/-- A migration away from the mapping that created the table reaches the declared uniqueness when it
rebuilds the table, or when no unique column is taken over by one that is not declared unique. -/
theorem upholds_iff {d₁ d₂ : Declaration} (h₁ : d₁.build = .ok m₁) (h₂ : d₂.build = .ok m₂)
    (ht : lower m₁.table = lower m₂.table) (hs : s.CreatedFrom m₁.table m₁) {catalog : Catalog}
    {capability : Capability} {plan : SyncPlan}
    (hp : m₂.syncPlan catalog capability (s.db.snapshot m₂.table) = .ok plan)
    (hr : s.run plan.statements = some s') :
    s'.Upholds m₂ ↔ plan.rebuild = true ∨
      ∀ c₁ ∈ m₁.columns, c₁.unique = true → c₁.primaryKey = false → ∀ c ∈ m₂.columns,
        lower (Rename.newName plan.renames c₁.name) = lower c.name → c.unique = true := by
  have hv₁ := Mapping.valid_of_build h₁
  have hv₂ := Mapping.valid_of_build h₂
  have hs₂ := hs.congr ht
  obtain ⟨hrenames, hrebuild, desired, _, hstatements⟩ := Mapping.syncPlan_eq_ok hp
  rw [hstatements, run_append, Option.bind_eq_some_iff] at hr
  obtain ⟨s₁, hcolumns, hindexes⟩ := hr
  rw [Mapping.columnStatements, ← hrebuild] at hcolumns
  cases hre : plan.rebuild with
  | true =>
    rw [hre, if_pos rfl] at hcolumns
    obtain ⟨hdb, hne, hshadow, _⟩ := Database.run_rebuild (run_db hcolumns)
    have hn : s₁.db.NoUniqueIndex m₂.table := by
      rw [hdb]
      exact Database.noUniqueIndex_rebuild m₂.definitions hs₂.ofTables hne hshadow
    rw [upholds_indexStatements hn hindexes, run_rebuild hcolumns]
    exact ⟨fun _ => .inl rfl, fun _ c hc hk => hv₂.mem_uniqueNames hc hk⟩
  | false =>
    have hlive : (s.db.snapshot m₂.table).columns.isEmpty = false := by
      rw [Database.snapshot, hs₂.columns, m₁.stored_definitions]
      simpa using hv₁.columns_ne_nil
    rw [hre, hlive, if_neg (by decide), if_neg (by decide)] at hcolumns
    have hnone : m₂.firstChange? ((s.db.snapshot m₂.table).rename plan.renames) plan.renames =
        none := by
      rw [hre, Mapping.needsRebuild, eq_comm, Bool.or_eq_false_iff,
        Bool.or_eq_false_iff] at hrebuild
      simpa using hrebuild.1.1
    have hn : s₁.db.NoUniqueIndex m₂.table := by
      have hw := Database.run_inPlace (by
        rw [hrenames]
        exact fun r hm r' hm' => Rename.target_ne_source hm hm') (run_db hcolumns)
      obtain ⟨g, hg, hkept⟩ := hw.kept
      apply hs₂.noUniqueIndex.of_kept
      rw [hg, List.forall_mem_map]
      exact fun i hi => ⟨i, hi, hkept i⟩
    rw [upholds_indexStatements hn hindexes]
    simp only [Bool.false_eq_true, false_or]
    exact hs₂.constraints_iff hv₁ hv₂ hrenames hnone hcolumns

/-- A database in which the table of a mapping was created and nothing else. -/
def justCreated (m : Mapping) : Constrained where
  db := Database.createTable ⟨fun _ => [], []⟩ m.table m.definitions
  unique := put (fun _ => []) m.table (uniqueNames m.definitions)

theorem createdFrom_justCreated (hv : m.Valid) (hf : isFree m.table = true)
    (hc : ∀ c ∈ m.columns, isPlain c.name = true) : (justCreated m).CreatedFrom m.table m := by
  let blank : Constrained := ⟨⟨fun _ => [], []⟩, fun _ => []⟩
  have hs : blank.db.Sound :=
    ⟨fun _ _ hl => absurd hl List.not_mem_nil, fun _ hi => absurd hi List.not_mem_nil⟩
  have hall : m.definitions.all (isPlain ·.name) = true :=
    List.all_eq_true.2 (m.plain_definitions.2 hc)
  have hne : m.definitions.isEmpty = false := by simpa using hv.definitions_ne_nil
  have hdb : blank.db.exec (.createTable (.simple m.table) m.definitions true) =
      some (justCreated m).db := by
    have hno : blank.db.hasTable m.table = false := rfl
    have hnone : blank.db.hasIndex m.table = false := rfl
    simp only [Database.exec, text_simple, hno, hnone, hf, hne, hall, m.names_definitions, hv.names,
      decide_true, Bool.false_eq_true, if_false, Bool.not_false, Bool.and_self, if_true]
    rfl
  refine CreatedFrom.of_createTable (b := true) (s := blank) hs
    (fun _ hi => absurd hi List.not_mem_nil) rfl ?_
  rw [exec, hdb]
  simp only [allows, constraintsAfter, text_simple, Option.bind_eq_bind, Option.bind_some, if_true]
  rfl

end Constrained

end Engine

open Constrained

/-- Members under a code. The address was once under the name of its field. -/
def members (renamed : Bool) : Declaration where
  name := "Member"
  table := some "members"
  columns := [
    { field := "code", storage := .text, primaryKey := true },
    { field := "email", name := if renamed then "mail" else "email", storage := .text,
      unique := true },
    { field := if renamed then "age" else "nick", storage := .text, nullable := true }]

def earlierMembers : Constrained := justCreated (members false).assemble

theorem members_createdFrom :
    earlierMembers.CreatedFrom (members false).assemble.table (members false).assemble := by
  have h : (members false).build = .ok (members false).assemble := rfl
  exact createdFrom_justCreated (Mapping.valid_of_build h) (by decide +kernel) (by decide +kernel)

/-- A rename that carries the constraint over, an addition and a drop. -/
theorem upholds_members : ∃ plan s',
    (members true).assemble.syncPlan [] .full (earlierMembers.db.snapshot "members") = .ok plan ∧
      plan.rebuild = false ∧ plan.statements.length = 3 ∧
      earlierMembers.run plan.statements = some s' ∧ s'.Upholds (members true).assemble := by
  have h₁ : (members false).build = .ok (members false).assemble := rfl
  have h₂ : (members true).build = .ok (members true).assemble := rfl
  obtain ⟨plan, hp⟩ : ∃ plan, (members true).assemble.syncPlan [] .full
      (earlierMembers.db.snapshot "members") = .ok plan := ⟨_, rfl⟩
  have hcheck : (((members true).assemble.syncPlan [] .full
      (earlierMembers.db.snapshot "members")).toOption.any fun p =>
        !p.rebuild && p.statements.length == 3 && (earlierMembers.run p.statements).isSome &&
          p.renames == [⟨"email", "mail"⟩]) = true := by
    decide +kernel
  rw [hp] at hcheck
  simp only [Except.toOption, Option.any_some, Bool.and_eq_true, Bool.not_eq_true', beq_iff_eq,
    Option.isSome_iff_exists] at hcheck
  obtain ⟨⟨⟨hre, hlength⟩, s', hr⟩, hrenames⟩ := hcheck
  refine ⟨plan, s', hp, hre, hlength, hr, ?_⟩
  refine (upholds_iff h₁ h₂ rfl members_createdFrom hp hr).2 (.inr ?_)
  rw [hrenames]
  decide +kernel

/-- Accounts whose address may be declared unique. -/
def accountsByMail (unique : Bool) : Declaration where
  name := "Account"
  table := some "accounts"
  columns := [
    { field := "id", storage := .integer, primaryKey := true },
    { field := "mail", storage := .text, unique }]

/-- The address is no longer declared unique, but nothing is planned and it stays under its
constraint. -/
theorem mail_stays_unique : ∃ plan,
    (justCreated (accountsByMail true).assemble).CreatedFrom (accountsByMail true).assemble.table
        (accountsByMail true).assemble ∧
      (accountsByMail false).assemble.syncPlan [] .full
        ((justCreated (accountsByMail true).assemble).db.snapshot "accounts") = .ok plan ∧
      plan.statements = [] ∧
      (justCreated (accountsByMail true).assemble).run plan.statements =
        some (justCreated (accountsByMail true).assemble) ∧
      ¬(justCreated (accountsByMail true).assemble).Upholds (accountsByMail false).assemble := by
  have h : (accountsByMail true).build = .ok (accountsByMail true).assemble := rfl
  refine ⟨⟨[], false, none, [], []⟩, createdFrom_justCreated (Mapping.valid_of_build h)
    (by decide +kernel) (by decide +kernel), by rfl, rfl, rfl, fun hall => ?_⟩
  have hmail := hall { field := "mail", storage := .text } (by decide) rfl
  have hunique := hmail.1 ⟨"mail", .inl (by decide +kernel), rfl⟩
  cases hunique

end RecordMapper
