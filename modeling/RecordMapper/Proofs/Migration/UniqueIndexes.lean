import RecordMapper.Proofs.Migration.Uniqueness
/-!
The unique indexes of a table after a migration. Index work never drops one, column work in place
carries them over with its renames, and a rebuild leaves none.
-/

namespace RecordMapper

open Text Engine

variable {m : Mapping}

namespace Engine

/-- The table has a unique index over the columns, in some order. Indexes that the engine makes by
itself are over one column and have no definition. -/
def Database.UniqueOver (db : Database) (table : String) (columns : List String) : Prop :=
  ∃ i ∈ db.indexes, i.belongsTo table = true ∧ ∃ d, i.definition = some d ∧ d.unique = true ∧
    (d.columns.map lower).Perm (columns.map lower)

variable {db db' : Database} {table : String} {columns : List String}

theorem Database.NoUniqueIndex.not_uniqueOver (h : db.NoUniqueIndex table) :
    ¬db.UniqueOver table columns := by
  rintro ⟨i, hi, hb, d, hd, hu, _⟩
  rw [h i hi hb d hd] at hu
  cases hu

/-- Indexes without a definition do not count. -/
theorem Database.uniqueOver_of_append {made : List StoredIndex}
    (hi : db'.indexes = db.indexes ++ made) (hmade : ∀ i ∈ made, i.definition = none) :
    db'.UniqueOver table columns ↔ db.UniqueOver table columns := by
  constructor
  · rintro ⟨i, hm, hb, d, hd, hu⟩
    rw [hi] at hm
    rcases List.mem_append.1 hm with hm | hm
    · exact ⟨i, hm, hb, d, hd, hu⟩
    · rw [hmade i hm] at hd
      cases hd
  · rintro ⟨i, hm, h⟩
    exact ⟨i, hi ▸ List.mem_append_left _ hm, h⟩

/-- Renamed columns take their unique indexes along, so an index is over the same columns afterwards
exactly when none of them was renamed. -/
theorem Database.uniqueOver_mapColumns {renames : List Rename}
    (hr : ∀ r ∈ renames, ∀ r' ∈ renames, lower r.target ≠ lower r'.source)
    (h : db.UniqueOver table columns) :
    (db.mapColumns table (Rename.newName renames)).UniqueOver table columns ↔
      ∀ r ∈ renames, ∀ x ∈ columns, lower r.source ≠ lower x := by
  simp only [UniqueOver, indexes_mapColumns, List.mem_map]
  constructor
  · rintro ⟨_, ⟨i, hi, rfl⟩, hb, d, hd, hu, hp⟩ r hr' x hx he
    have hbi : i.belongsTo table = true := by
      split at hb
      next h => exact h
      next => exact hb
    rw [if_pos hbi, StoredIndex.mapColumns, Option.map_eq_some_iff] at hd
    obtain ⟨e, _, rfl⟩ := hd
    obtain ⟨y', hy', hyx⟩ := List.mem_map.1 (hp.mem_iff.2 (List.mem_map_of_mem hx))
    obtain ⟨y, _, rfl⟩ := List.mem_map.1 hy'
    -- The column of that name is not the old one, and no rename leads to where one starts.
    rcases Rename.newName_cases renames y with ⟨hno, hn⟩ | ⟨r', hr₁, _, hn⟩
    · rw [hn] at hyx
      exact hno r hr' (he.trans hyx.symm)
    · rw [hn] at hyx
      exact hr r' hr₁ r hr' (hyx.trans he.symm)
  · intro hstay
    obtain ⟨i, hi, hb, d, hd, hu, hp⟩ := h
    refine ⟨_, ⟨i, hi, rfl⟩, ?_⟩
    rw [if_pos hb]
    refine ⟨hb, { d with columns := d.columns.map (Rename.newName renames) },
      by simp [StoredIndex.mapColumns, hd], hu, ?_⟩
    have hsame : d.columns.map (Rename.newName renames) = d.columns := by
      refine (List.map_congr_left fun c hc => ?_).trans (List.map_id' _)
      obtain ⟨x, hx, hxc⟩ := List.mem_map.1 (hp.mem_iff.1 (List.mem_map_of_mem hc))
      exact Rename.newName_of_not_source fun r hr' he => hstay r hr' x hx (he.trans hxc.symm)
    rw [hsame]
    exact hp

/-- Index work keeps every unique index and makes none. -/
theorem IndexWork.uniqueOver {t : String} {desired : List DesiredIndex}
    {old added : List StoredIndex} {stale : List LiveIndex}
    (h : IndexWork db db' t desired (old.map StoredIndex.live) added stale)
    (hn : DistinctNames (old.map StoredIndex.name))
    (ho : ∀ j ∈ db.indexes, (∃ i ∈ old, i.Kept j) ∨ j.definition = none) :
    db'.UniqueOver table columns ↔ db.UniqueOver table columns := by
  constructor
  · rintro ⟨i, hi, hb, d, hd, hu, hp⟩
    rcases List.mem_append.1 (h.mem_iff.1 hi).1 with hm | hm
    · exact ⟨i, hm, hb, d, hd, hu, hp⟩
    · obtain ⟨e, _, rfl, _⟩ := h.creates i hm
      cases hd
      cases hu
  · rintro ⟨i, hi, hb, d, hd, hu, hp⟩
    exact ⟨i, h.mem_of_unique hn ho hi hd hu, hb, d, hd, hu, hp⟩

end Engine

/-- Column work without a rebuild renames columns within the indexes. Beyond these there are only
those that the engine makes when the table is new. -/
theorem Mapping.engineIndexes_columnStatements {capability : Capability} {db db' : Database}
    {renames : List Rename} (hrenames : renames = Rename.detect m (db.snapshot m.table))
    (hre : m.needsRebuild capability ((db.snapshot m.table).rename renames) renames = false)
    (h : db.run (m.columnStatements capability (db.snapshot m.table)
      ((db.snapshot m.table).rename renames) renames) = some db') :
    ∃ made, db'.indexes = (db.mapColumns m.table (Rename.newName renames)).indexes ++ made ∧
      ∀ i ∈ made, i ∈ engineIndexes m.table m.definitions := by
  rw [columnStatements, hre, if_neg (by decide)] at h
  split at h
  next hempty =>
    have hno : db.hasTable m.table = false := by
      rw [Database.hasTable, Bool.not_eq_false']
      exact hempty
    have hnil : renames = [] := by
      rw [hrenames, List.eq_nil_iff_forall_not_mem]
      intro r hr
      obtain ⟨_, _, _, _, _, _, l, hl, _⟩ := Rename.mem_detect hr
      rw [List.isEmpty_iff.1 hempty] at hl
      cases hl
    rw [Database.run_cons, Option.bind_eq_some_iff] at h
    obtain ⟨db₁, h₁, h₂⟩ := h
    rw [Database.run_nil, Option.some.injEq] at h₂
    obtain ⟨rfl, _⟩ := Database.exec_createTable hno h₁
    refine ⟨engineIndexes m.table m.definitions, ?_, fun i hi => hi⟩
    have hid : Rename.newName [] = id := rfl
    rw [← h₂, hnil, hid, Database.mapColumns_id]
    rfl
  next =>
    have hw := Database.run_inPlace (Rename.targets_ne_sources hrenames) h
    exact ⟨[], by rw [hw.indexes, List.append_nil], fun i hi => absurd hi List.not_mem_nil⟩

theorem Mapping.indexes_columnStatements {capability : Capability} {db db' : Database}
    {renames : List Rename} (hrenames : renames = Rename.detect m (db.snapshot m.table))
    (hre : m.needsRebuild capability ((db.snapshot m.table).rename renames) renames = false)
    (h : db.run (m.columnStatements capability (db.snapshot m.table)
      ((db.snapshot m.table).rename renames) renames) = some db') :
    ∃ made, db'.indexes = (db.mapColumns m.table (Rename.newName renames)).indexes ++ made ∧
      ∀ i ∈ made, i.definition = none := by
  obtain ⟨made, hi, hmade⟩ := engineIndexes_columnStatements hrenames hre h
  exact ⟨made, hi, fun i hm => (engineIndexes_spec (hmade i hm)).1⟩

variable {catalog : Catalog} {capability : Capability} {db db' : Database} {columns : List String}

/-- A table keeps a unique index over columns exactly if the plan is no rebuild and renames none of
them. Index names are distinct, and no index waits for its table. -/
theorem uniqueOver_iff {plan : SyncPlan} (hn : DistinctNames (db.indexes.map StoredIndex.name))
    (ho : ∀ i ∈ db.indexes, i.belongsTo m.table = true ∨ db.hasTable i.table = true)
    (hp : m.syncPlan catalog capability (db.snapshot m.table) = .ok plan)
    (hr : db.run plan.statements = some db') (hu : db.UniqueOver m.table columns) :
    db'.UniqueOver m.table columns ↔
      plan.rebuild = false ∧ ∀ r ∈ plan.renames, ∀ x ∈ columns, lower r.source ≠ lower x := by
  obtain ⟨hrenames, hrebuild, desired, _, hstatements⟩ := Mapping.syncPlan_eq_ok hp
  rw [hstatements, Database.run_append, Option.bind_eq_some_iff, survivors_snapshot] at hr
  obtain ⟨db₁, hcolumns, hindexes⟩ := hr
  obtain ⟨added, stale, hw⟩ := Database.run_indexStatements hindexes
  cases hre : plan.rebuild with
  | true =>
    rw [Mapping.columnStatements, ← hrebuild, hre, if_pos rfl] at hcolumns
    obtain ⟨rfl, hne, hshadow, _⟩ := Database.run_rebuild hcolumns
    have hnone := Database.noUniqueIndex_rebuild m.definitions ho hne hshadow
    simp only [Bool.true_eq_false, false_and, iff_false]
    exact (hnone.of_indexWork hw).not_uniqueOver
  | false =>
    rw [hre] at hw hrebuild
    obtain ⟨made, hi, hmade⟩ := Mapping.indexes_columnStatements hrenames hrebuild.symm hcolumns
    have hkept : ∀ j ∈ db₁.indexes,
        (∃ i ∈ db.indexes.filter (fun _ => true), i.Kept j) ∨ j.definition = none := by
      intro j hj
      rw [hi] at hj
      rcases List.mem_append.1 hj with hj | hj
      · obtain ⟨g, hg, hkept⟩ := db.kept_mapColumns m.table (Rename.newName plan.renames)
        rw [hg] at hj
        obtain ⟨i, hm, rfl⟩ := List.mem_map.1 hj
        exact .inl ⟨i, by simpa using hm, hkept i⟩
      · exact .inr (hmade j hj)
    simp only [Bool.false_and, Bool.not_false] at hw
    rw [hw.uniqueOver (by simpa using hn) hkept, Database.uniqueOver_of_append hi hmade,
      Database.uniqueOver_mapColumns (Rename.targets_ne_sources hrenames) hu]
    simp

/-- Memberships of people in teams. -/
def memberships : Declaration where
  name := "Membership"
  table := some "memberships"
  columns := [
    { field := "id", storage := .integer, primaryKey := true },
    { field := "team", storage := .integer },
    { field := "person", storage := .integer }]

/-- Earlier memberships, with a note on each. No person is in a team twice. -/
def notedMemberships : Database where
  tables := fun name =>
    if name = "memberships" then
      [{ name := "id", declaredType := "INTEGER", keyPosition := 1 },
        { name := "team", declaredType := "INTEGER", notNull := true },
        { name := "person", declaredType := "INTEGER", notNull := true },
        { name := "note", declaredType := "TEXT" }]
    else []
  indexes := [
    { name := "memberships_pair", table := "memberships",
      definition := some ⟨true, ["team", "person"], false⟩ }]

theorem uniqueOver_notedMemberships :
    notedMemberships.UniqueOver memberships.assemble.table ["team", "person"] :=
  ⟨_, List.mem_cons_self, by decide +kernel, _, rfl, rfl, .refl _⟩

theorem consistent_notedMemberships :
    notedMemberships.Consistent memberships.assemble.table := by
  refine ⟨⟨Database.plain_columns rfl (by decide +kernel), by decide +kernel⟩, ?_, ?_, ?_, ?_⟩
  · rw [DistinctNames]
    decide +kernel
  · rw [DistinctNames]
    decide +kernel
  · decide +kernel
  · decide +kernel

/-- The note is dropped in place, and a person is still in no team twice. -/
theorem pairs_stay_unique : ∃ plan db',
    memberships.assemble.syncPlan [] .full
        (notedMemberships.snapshot memberships.assemble.table) = .ok plan ∧
      plan.statements.length = 1 ∧ notedMemberships.run plan.statements = some db' ∧
      db'.UniqueOver memberships.assemble.table ["team", "person"] := by
  obtain ⟨plan, hp⟩ : ∃ plan, memberships.assemble.syncPlan [] .full
      (notedMemberships.snapshot memberships.assemble.table) = .ok plan := ⟨_, rfl⟩
  have hcheck : ((memberships.assemble.syncPlan [] .full
      (notedMemberships.snapshot memberships.assemble.table)).toOption.any fun p =>
        p.statements.length == 1 && (notedMemberships.run p.statements).isSome && !p.rebuild &&
          p.renames.isEmpty) = true := by
    decide +kernel
  rw [hp] at hcheck
  simp only [Except.toOption, Option.any_some, Bool.and_eq_true, Bool.not_eq_true', beq_iff_eq,
    Option.isSome_iff_exists, List.isEmpty_iff] at hcheck
  obtain ⟨⟨⟨hlength, db', hr⟩, hre⟩, hrenames⟩ := hcheck
  refine ⟨plan, db', hp, hlength, hr, ?_⟩
  rw [uniqueOver_iff consistent_notedMemberships.indexNames consistent_notedMemberships.ofTables
    hp hr uniqueOver_notedMemberships, hrenames]
  exact ⟨hre, fun r hr' => absurd hr' List.not_mem_nil⟩

/-- On an engine that cannot drop the note, the table is rebuilt without its unique index. -/
theorem pairs_lost_in_rebuild : ∃ plan db',
    memberships.build = .ok memberships.assemble ∧
      notedMemberships.Consistent memberships.assemble.table ∧
      notedMemberships.UniqueOver memberships.assemble.table ["team", "person"] ∧
      (∀ x ∈ ["team", "person"], (memberships.assemble.columnByName? x).isSome = true) ∧
      memberships.assemble.syncPlan [] .addOnly
        (notedMemberships.snapshot memberships.assemble.table) = .ok plan ∧
      plan.renames = [] ∧ notedMemberships.run plan.statements = some db' ∧
      ¬db'.UniqueOver memberships.assemble.table ["team", "person"] := by
  obtain ⟨plan, hp⟩ : ∃ plan, memberships.assemble.syncPlan [] .addOnly
      (notedMemberships.snapshot memberships.assemble.table) = .ok plan := ⟨_, rfl⟩
  have hcheck : ((memberships.assemble.syncPlan [] .addOnly
      (notedMemberships.snapshot memberships.assemble.table)).toOption.any fun p =>
        p.renames.isEmpty &&
          (notedMemberships.run p.statements).any fun db' => db'.indexes.isEmpty) = true := by
    decide +kernel
  rw [hp] at hcheck
  simp only [Except.toOption, Option.any_some, Bool.and_eq_true, Option.any_eq_true,
    List.isEmpty_iff] at hcheck
  obtain ⟨hrenames, db', hr, hnone⟩ := hcheck
  refine ⟨plan, db', rfl, consistent_notedMemberships, uniqueOver_notedMemberships,
    by decide +kernel, hp, hrenames, hr, ?_⟩
  rintro ⟨i, hi, _⟩
  rw [hnone] at hi
  cases hi

end RecordMapper
