import RecordMapper.Proofs.Migration.ColumnNames
import RecordMapper.Proofs.Migration.Interplay
/-!
Index work on the list of indexes that the engine reports, whatever their names and tables are. It
makes the wanted indexes that are missing and drops the stale ones, once each, and leaves all others
alone.
-/

namespace RecordMapper

open Text Engine

namespace Statement

/-- The name of the index that the statement makes. -/
def createdIndex? : Statement → Option String
  | createIndex name _ _ _ _ => some name.text
  | _ => none

/-- The name of the index that the statement drops. -/
def droppedIndex? : Statement → Option String
  | dropIndex name _ => some name.text
  | _ => none

end Statement

namespace LiveIndex

/-- The indexes after a statement of index work. One is made unless its name is taken. -/
def exec (indexes : List LiveIndex) : Statement → List LiveIndex
  | .createIndex name table columns unique _ =>
    if indexes.any fun i => sameName i.name name.text then indexes
    else indexes ++ [StoredIndex.live
      ⟨name.text, table.text, some ⟨unique, columns.map Sql.Name.text, false⟩⟩]
  | .dropIndex name _ => indexes.filter fun i => !sameName i.name name.text
  | _ => indexes

def run (indexes : List LiveIndex) (script : List Statement) : List LiveIndex :=
  script.foldl exec indexes

/-- The index is another table's, unique, the engine's own or wanted. -/
def Retained (table : String) (desired : List DesiredIndex) (i : LiveIndex) : Prop :=
  i.belongsTo table = false ∨ i.isUnique = true ∨ i.isEngineMade = true ∨
    ∃ d ∈ desired, lower d.name = lower i.name

variable {table : String} {desired missing : List DesiredIndex} {indexes survivors : List LiveIndex}

theorem run_cons (s : Statement) (script : List Statement) :
    run indexes (s :: script) = run (exec indexes s) script := rfl

theorem run_append (a b : List Statement) : run indexes (a ++ b) = run (run indexes a) b :=
  List.foldl_append

theorem exec_create {d : DesiredIndex} (h : ∀ i ∈ indexes, lower i.name ≠ lower d.name) :
    exec indexes (.createIndex (.simple d.name) (.simple d.table) [.simple d.column] false true) =
      indexes ++ [(StoredIndex.wanted d).live] := by
  have hfree : (indexes.any fun i => sameName i.name d.name) = false := by
    simpa [sameName] using h
  simp [exec, hfree, StoredIndex.wanted]

theorem run_creates (hm : DistinctNames (missing.map DesiredIndex.name))
    (hfree : ∀ d ∈ missing, ∀ i ∈ indexes, lower i.name ≠ lower d.name) :
    run indexes (missing.map fun d =>
        .createIndex (.simple d.name) (.simple d.table) [.simple d.column] false true) =
      indexes ++ missing.map fun d => (StoredIndex.wanted d).live := by
  induction missing generalizing indexes with
  | nil => simp [run]
  | cons d ds ih =>
    obtain ⟨hd, hds⟩ := List.nodup_cons.1 hm
    have hnext : ∀ e ∈ ds, ∀ i ∈ indexes ++ [(StoredIndex.wanted d).live],
        lower i.name ≠ lower e.name := by
      intro e he i hi hn
      rcases List.mem_append.1 hi with hi | hi
      · exact hfree e (.tail _ he) i hi hn
      · rw [List.mem_singleton.1 hi] at hn
        exact hd (hn ▸ List.mem_map_of_mem (List.mem_map_of_mem he))
    rw [List.map_cons, run_cons, exec_create (hfree d List.mem_cons_self), ih hds hnext]
    simp

theorem run_drops (stale : List LiveIndex) :
    run indexes (stale.map fun s => .dropIndex (.simple s.name) true) =
      indexes.filter fun i => stale.all fun s => !sameName i.name s.name := by
  induction stale generalizing indexes with
  | nil => simp [run]
  | cons s ss ih =>
    rw [List.map_cons, run_cons, ih, exec, List.filter_filter]
    simp [Bool.and_comm]

/-- The names of what index work makes, in order. -/
theorem createdNames (table : String) (desired : List DesiredIndex) (survivors : List LiveIndex) :
    (indexStatements table desired survivors).filterMap Statement.createdIndex? =
      (desired.filter fun d => !survivors.any fun i => sameName i.name d.name).map
        DesiredIndex.name := by
  simp [indexStatements, List.filterMap_map, Function.comp_def, Statement.createdIndex?]

theorem droppedNames (table : String) (desired : List DesiredIndex) (survivors : List LiveIndex) :
    (indexStatements table desired survivors).filterMap Statement.droppedIndex? =
      (survivors.filter fun i => i.belongsTo table && !i.isUnique && !i.isEngineMade &&
        !desired.any fun d => sameName d.name i.name).map LiveIndex.name := by
  simp [indexStatements, List.filterMap_map, Function.comp_def, Statement.droppedIndex?]

theorem isMissing_iff {d : DesiredIndex} :
    (!survivors.any fun i => sameName i.name d.name) = true ↔
      ∀ i ∈ survivors, lower i.name ≠ lower d.name := by
  simp [sameName]

theorem isStale_iff {i : LiveIndex} : (i.belongsTo table && !i.isUnique && !i.isEngineMade &&
    !desired.any fun d => sameName d.name i.name) = true ↔ ¬i.Retained table desired := by
  simp [Retained, sameName, and_assoc]

/-- The indexes after index work: those that were retained, and the wanted ones that were
missing. -/
theorem mem_run_indexStatements (hd : DistinctNames (desired.map DesiredIndex.name))
    (hs : DistinctNames (survivors.map LiveIndex.name)) {i : LiveIndex} :
    i ∈ run survivors (indexStatements table desired survivors) ↔
      (i ∈ survivors ∧ i.Retained table desired) ∨
        ∃ d ∈ desired, i = (StoredIndex.wanted d).live ∧
          ∀ s ∈ survivors, lower s.name ≠ lower d.name := by
  have hmissing : DistinctNames ((desired.filter fun d =>
      !survivors.any fun s => sameName s.name d.name).map DesiredIndex.name) :=
    hd.sublist ((List.filter_sublist.map _).map _)
  rw [indexStatements, run_append, run_creates hmissing, run_drops, List.mem_filter,
    List.mem_append]
  · simp only [List.all_eq_true, List.mem_filter, isStale_iff, List.mem_map, isMissing_iff]
    simp only [Bool.not_eq_true', Bool.eq_false_iff, ne_eq, sameName_iff]
    constructor
    · rintro ⟨hi | ⟨d, ⟨hm, hno⟩, rfl⟩, hkept⟩
      · exact .inl ⟨hi, by_contra fun hr => hkept i ⟨hi, hr⟩ rfl⟩
      · exact .inr ⟨d, hm, rfl, hno⟩
    · rintro (⟨hi, hr⟩ | ⟨d, hm, rfl, hno⟩)
      · refine ⟨.inl hi, fun s hstale he => hstale.2 ?_⟩
        rwa [← hs.eq hi hstale.1 he]
      · exact ⟨.inr ⟨d, ⟨hm, hno⟩, rfl⟩, fun s hstale he => hno s hstale.1 he.symm⟩
  · intro d hm s hms
    exact isMissing_iff.1 (List.mem_filter.1 hm).2 s hms

end LiveIndex

namespace Engine.Database

variable {db db' : Database}

/-- The engine reports the same indexes when it took a statement of index work. -/
theorem reported_exec {s : Statement} (hs : s.createdIndex?.isSome ∨ s.droppedIndex?.isSome)
    (h : db.exec s = some db') : db'.indexes.map StoredIndex.live =
      LiveIndex.exec (db.indexes.map StoredIndex.live) s := by
  have hany (name : String) : ((db.indexes.map StoredIndex.live).any fun i =>
      sameName i.name name) = db.hasIndex name := List.any_map
  cases s with
  | createIndex name table columns unique ifNotExists =>
    simp only [exec] at h
    rw [LiveIndex.exec, hany]
    split at h
    next hn =>
      simp only [Option.ite_none_right_eq_some, Option.some.injEq] at h
      rw [if_pos hn, h.2]
    next hn =>
      simp only [Option.ite_none_right_eq_some, Option.some.injEq] at h
      rw [if_neg hn, ← h.2, List.map_append, List.map_singleton]
  | dropIndex name ifExists =>
    rw [LiveIndex.exec, List.filter_map]
    simp only [exec] at h
    split at h
    next =>
      simp only [Option.ite_none_right_eq_some, Option.some.injEq] at h
      rw [← h.2]
      rfl
    next hn =>
      simp only [Option.ite_none_right_eq_some, Option.some.injEq] at h
      rw [← h.2]
      have hall : db.indexes.filter (fun i => !sameName i.name name.text) = db.indexes := by
        rw [List.filter_eq_self]
        exact fun i hi => Bool.not_eq_true' _ ▸ Bool.eq_false_iff.2 fun hs =>
          hn (List.any_eq_true.2 ⟨i, hi, hs⟩)
      exact congrArg (List.map StoredIndex.live) hall.symm
  | _ => simp [Statement.createdIndex?, Statement.droppedIndex?] at hs

theorem reported_indexStatements {table : String} {desired : List DesiredIndex}
    {survivors : List LiveIndex} (h : db.run (indexStatements table desired survivors) = some db') :
    db'.indexes.map StoredIndex.live = LiveIndex.run (db.indexes.map StoredIndex.live)
      (indexStatements table desired survivors) := by
  have hs : ∀ s ∈ indexStatements table desired survivors,
      s.createdIndex?.isSome ∨ s.droppedIndex?.isSome :=
    forall_mem_indexStatements (fun _ => .inl rfl) fun _ => .inr rfl
  generalize indexStatements table desired survivors = script at h hs
  induction script generalizing db with
  | nil =>
    cases h
    rfl
  | cons s script ih =>
    rw [run_cons, Option.bind_eq_some_iff] at h
    obtain ⟨db₁, h₁, h₂⟩ := h
    obtain ⟨hfirst, hrest⟩ := List.forall_mem_cons.1 hs
    rw [ih h₂ hrest, reported_exec hfirst h₁]
    rfl

end Engine.Database

/-- What a script of index work does to the indexes of a database: just what is needed for a table
and the indexes wanted with it. -/
structure IndexSync (table : String) (desired : List DesiredIndex) (before : List LiveIndex)
    (script : List Statement) : Prop where
  wanted : ∀ d ∈ desired, ∃ i ∈ LiveIndex.run before script, lower i.name = lower d.name
  /-- An index of the table that is left is wanted, unique or the engine's own. -/
  retained : ∀ i ∈ LiveIndex.run before script, i.Retained table desired
  kept : ∀ i ∈ before, i.Retained table desired → i ∈ LiveIndex.run before script
  /-- Whatever is new is a wanted index, on its own table and column. -/
  origin : ∀ i ∈ LiveIndex.run before script,
    i ∈ before ∨ ∃ d ∈ desired, i = (StoredIndex.wanted d).live
  created : ∀ name ∈ script.filterMap Statement.createdIndex?,
    ∀ i ∈ before, lower i.name ≠ lower name
  dropped : ∀ name ∈ script.filterMap Statement.droppedIndex?,
    ∃ i ∈ before, lower i.name = lower name
  apart : ∀ name ∈ script.filterMap Statement.createdIndex?,
    ∀ other ∈ script.filterMap Statement.droppedIndex?, lower name ≠ lower other
  createdOnce : DistinctNames (script.filterMap Statement.createdIndex?)
  droppedOnce : DistinctNames (script.filterMap Statement.droppedIndex?)

/-- The index work for any table and any mapping's wanted indexes, whether or not the table lost its
own indexes to a rebuild. -/
theorem indexStatements_sync {m : Mapping} {catalog : Catalog} {desired : List DesiredIndex}
    (hd : m.desiredIndexes catalog = .ok desired) {live : LiveTable}
    (hn : DistinctNames (live.indexes.map LiveIndex.name)) (table : String) (rebuilt : Bool) :
    IndexSync table desired (live.survivors table rebuilt)
      (indexStatements table desired (live.survivors table rebuilt)) := by
  have hdesired := Mapping.distinct_desiredIndexes hd
  have hsurvivors : DistinctNames ((live.survivors table rebuilt).map LiveIndex.name) :=
    hn.sublist ((List.filter_sublist.map _).map _)
  have hrun {i : LiveIndex} : i ∈ LiveIndex.run (live.survivors table rebuilt)
      (indexStatements table desired (live.survivors table rebuilt)) ↔
        (i ∈ live.survivors table rebuilt ∧ i.Retained table desired) ∨
          ∃ d ∈ desired, i = (StoredIndex.wanted d).live ∧
            ∀ s ∈ live.survivors table rebuilt, lower s.name ≠ lower d.name :=
    LiveIndex.mem_run_indexStatements hdesired hsurvivors
  refine ⟨fun d hm => ?_, fun i hi => ?_, fun i hi hr => ?_, fun i hi => ?_, ?_, ?_, ?_, ?_, ?_⟩
  · by_cases hfree : ∀ i ∈ live.survivors table rebuilt, lower i.name ≠ lower d.name
    · exact ⟨_, hrun.2 (.inr ⟨d, hm, rfl, hfree⟩), rfl⟩
    · simp only [not_forall, not_not] at hfree
      obtain ⟨i, hi, hname⟩ := hfree
      exact ⟨i, hrun.2 (.inl ⟨hi, .inr (.inr (.inr ⟨d, hm, hname.symm⟩))⟩), hname⟩
  · rcases hrun.1 hi with ⟨_, hr⟩ | ⟨d, hm, rfl, _⟩
    · exact hr
    · exact .inr (.inr (.inr ⟨d, hm, rfl⟩))
  · exact hrun.2 (.inl ⟨hi, hr⟩)
  · rcases hrun.1 hi with ⟨hb, _⟩ | ⟨d, hm, he, _⟩
    · exact .inl hb
    · exact .inr ⟨d, hm, he⟩
  · rw [LiveIndex.createdNames, List.forall_mem_map]
    exact fun d hm => LiveIndex.isMissing_iff.1 (List.mem_filter.1 hm).2
  · rw [LiveIndex.droppedNames, List.forall_mem_map]
    exact fun i hi => ⟨i, List.mem_of_mem_filter hi, rfl⟩
  · rw [LiveIndex.createdNames, LiveIndex.droppedNames, List.forall_mem_map]
    intro d hm
    rw [List.forall_mem_map]
    exact fun i hi he => LiveIndex.isMissing_iff.1 (List.mem_filter.1 hm).2 i
      (List.mem_of_mem_filter hi) he.symm
  · rw [LiveIndex.createdNames]
    exact hdesired.sublist ((List.filter_sublist.map _).map _)
  · rw [LiveIndex.droppedNames]
    exact hsurvivors.sublist ((List.filter_sublist.map _).map _)

/-- Parcels are looked up by code and by depot. -/
def parcels : Declaration where
  name := "parcels"
  columns := [
    { field := "id", storage := .integer, primaryKey := true },
    { field := "code", storage := .text, index := some {} },
    { field := "depot", storage := .text, index := some ⟨some "by_depot"⟩ }]

/-- The index over codes is there in other letters, and one over weights is stale. -/
def parcelIndexes : LiveTable where
  indexes := [
    ⟨"IDX_PARCELS_CODE", "parcels", some "CREATE INDEX IDX_PARCELS_CODE ON parcels(code)"⟩,
    ⟨"by_weight", "Parcels", some "CREATE INDEX by_weight ON Parcels(weight)"⟩,
    ⟨"parcels_pair", "parcels", some "create unique index parcels_pair on parcels(code, depot)"⟩,
    ⟨"sqlite_autoindex_parcels_1", "parcels", none⟩,
    ⟨"by_driver", "drivers", some "CREATE INDEX by_driver ON drivers(name)"⟩]

/-- One index is made and one is dropped. -/
theorem indexStatements_sync_parcels : ∃ desired,
    parcels.assemble.desiredIndexes [] = .ok desired ∧
      DistinctNames (parcelIndexes.indexes.map LiveIndex.name) ∧
      indexStatements "parcels" desired (parcelIndexes.survivors "parcels" false) =
        [.createIndex (.simple "by_depot") (.simple "parcels") [.simple "depot"] false true,
          .dropIndex (.simple "by_weight") true] ∧
      IndexSync "parcels" desired (parcelIndexes.survivors "parcels" false)
        (indexStatements "parcels" desired (parcelIndexes.survivors "parcels" false)) := by
  have hd : parcels.assemble.desiredIndexes [] =
      .ok [⟨"idx_parcels_code", "parcels", "code"⟩, ⟨"by_depot", "parcels", "depot"⟩] := by rfl
  have hn : DistinctNames (parcelIndexes.indexes.map LiveIndex.name) := by decide +kernel
  exact ⟨_, hd, hn, by rfl, indexStatements_sync hd hn "parcels" false⟩

end RecordMapper
