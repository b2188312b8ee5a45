import RecordMapper.Proofs.Engine.Soundness
import RecordMapper.Proofs.Migration.Settled
/-!
The index work of a plan. It is chosen by the indexes that a table had before the column work, and
done on those that it has afterwards.
-/

namespace RecordMapper

open Text

namespace LiveTable

variable {a b : LiveTable} {table : String}

theorem hasUniqueIndex_congr (h : ∀ i : LiveIndex, i.isUnique = true →
    (i ∈ a.indexes ↔ i ∈ b.indexes)) (names : List String) :
    a.hasUniqueIndex table names = b.hasUniqueIndex table names := by
  rw [hasUniqueIndex, hasUniqueIndex]
  congr 1
  funext name
  rw [Bool.eq_iff_iff, List.any_eq_true, List.any_eq_true]
  constructor
  · rintro ⟨i, hi, ht⟩
    simp only [Bool.and_eq_true] at ht ⊢
    exact ⟨i, (h i ht.1.2).1 hi, ht⟩
  · rintro ⟨i, hi, ht⟩
    simp only [Bool.and_eq_true] at ht ⊢
    exact ⟨i, (h i ht.1.2).2 hi, ht⟩

/-- Whether columns are unique depends on the columns, the unique indexes and the number of those
that the engine made. -/
theorem isUnique_congr {m : Mapping} (hc : a.columns = b.columns)
    (hu : ∀ names, a.hasUniqueIndex m.table names = b.hasUniqueIndex m.table names)
    (he : a.engineIndexCount m.table = b.engineIndexCount m.table) (c : Column)
    (previous : Option String) : a.isUnique m c previous = b.isUnique m c previous := by
  have hk : a.keyIndexCount = b.keyIndexCount := by
    rw [keyIndexCount, keyIndexCount, hc]
  have hn : a.unservedCount m = b.unservedCount m := by
    simp only [unservedCount, hu]
  rw [isUnique, isUnique, hu, hk, hn, he]

end LiveTable

end RecordMapper

namespace RecordMapper.Engine

open Text

namespace StoredIndex

/-- The index under the same name and as unique as before, over columns that may be renamed. -/
structure Kept (i j : StoredIndex) : Prop where
  name : j.name = i.name
  table : j.table = i.table
  unique : j.definition.map IndexDefinition.unique = i.definition.map IndexDefinition.unique

theorem kept_mapColumns (i : StoredIndex) (f : String → String) : i.Kept (i.mapColumns f) := by
  refine ⟨rfl, rfl, ?_⟩
  simp [mapColumns]
  cases i.definition <;> rfl

theorem Sound.isUnique {i : StoredIndex} (h : i.Sound) :
    i.live.isUnique = i.definition.any IndexDefinition.unique := by
  cases hd : i.definition with
  | none => simp [live, LiveIndex.isUnique, hd]
  | some d => rw [isUnique_live hd (h.plain hd), Option.any_some]

theorem Kept.isUnique {i j : StoredIndex} (h : i.Kept j) (hi : i.Sound) (hj : j.Sound) :
    j.live.isUnique = i.live.isUnique := by
  have hu := h.unique
  rw [hi.isUnique, hj.isUnique]
  cases hd : i.definition <;> cases hd' : j.definition <;> simp_all

theorem Kept.isSome {i j : StoredIndex} (h : i.Kept j) :
    j.definition.isSome = i.definition.isSome := by
  have hu := congrArg Option.isSome h.unique
  simpa using hu

end StoredIndex

/-- The column work kept the old indexes, and besides them there are those that the engine made. -/
structure Carried (old current : List StoredIndex) : Prop where
  names : DistinctNames (old.map StoredIndex.name)
  sound : ∀ i ∈ old, i.Sound
  kept : ∀ i ∈ old, ∃ j ∈ current, i.Kept j
  origin : ∀ j ∈ current, (∃ i ∈ old, i.Kept j) ∨ j.definition = none

/-- What the index work leaves: the columns, the unique indexes and the engine's indexes as they
were, the wanted indexes made and no stale one. -/
structure Reindexed (db db' : Database) (table : String) (desired : List DesiredIndex) : Prop where
  tables : db'.tables = db.tables
  unique : ∀ i : StoredIndex, i.live.isUnique = true → (i ∈ db'.indexes ↔ i ∈ db.indexes)
  engineMade : (db'.snapshot table).engineIndexCount table =
    (db.snapshot table).engineIndexCount table
  indexed : (db'.snapshot table).Indexed table desired

namespace StoredIndex

/-- Whether no name in the list is the index's. -/
def outlasts (stale : List LiveIndex) (i : StoredIndex) : Bool :=
  !(stale.any fun s => sameName i.name s.name)

theorem outlasts_iff {stale : List LiveIndex} {i : StoredIndex} :
    i.outlasts stale = true ↔ ∀ s ∈ stale, lower i.name ≠ lower s.name := by
  simp [outlasts, sameName_iff]

end StoredIndex

/-- The index work as the engine did it: some indexes were added, then some dropped by name. -/
structure IndexWork (db db' : Database) (table : String) (desired : List DesiredIndex)
    (survivors : List LiveIndex) (added : List StoredIndex) (stale : List LiveIndex) : Prop where
  result : db' = { db with indexes := (db.indexes ++ added).filter (·.outlasts stale) }
  creates : ∀ i ∈ added, ∃ d ∈ desired, i = .wanted d ∧ isFree d.name = true
  drops : ∀ s, s ∈ stale ↔ s ∈ survivors ∧ s.belongsTo table = true ∧ s.isUnique = false ∧
    s.isEngineMade = false ∧ ∀ d ∈ desired, lower d.name ≠ lower s.name
  defined : ∀ s ∈ stale, ∀ i ∈ db.indexes, lower i.name = lower s.name →
    i.definition.isSome = true
  made : ∀ d ∈ desired, (∃ s ∈ survivors, lower s.name = lower d.name) ∨
    ∃ i ∈ db.indexes ++ added, lower i.name = lower d.name
  distinct : DistinctNames (db.indexes.map StoredIndex.name) →
    DistinctNames ((db.indexes ++ added).map StoredIndex.name)

variable {db db' : Database} {table : String} {desired : List DesiredIndex}

theorem Database.run_indexStatements {survivors : List LiveIndex}
    (h : db.run (indexStatements table desired survivors) = some db') :
    ∃ added stale, IndexWork db db' table desired survivors added stale := by
  rw [indexStatements, run_append, Option.bind_eq_some_iff] at h
  obtain ⟨db₁, h₁, h₂⟩ := h
  obtain ⟨added, rfl, ha, hd, hu⟩ := run_creates h₁
  obtain ⟨rfl, hs⟩ := run_dropIndexes h₂
  refine ⟨added, _, rfl, fun i hi => ?_, fun s => ?_, fun s hm i hi he => ?_, fun d hm => ?_, hu⟩
  · obtain ⟨d, hm, hw, hf, _⟩ := ha i hi
    exact ⟨d, List.mem_of_mem_filter hm, hw, hf⟩
  · simp only [List.mem_filter, Bool.and_eq_true, Bool.not_eq_true', and_assoc, List.any_eq_false,
      sameName_iff, ne_eq]
  · exact hs s hm i (List.mem_append_left _ hi) he
  · by_cases hx : (survivors.any fun s => sameName s.name d.name) = true
    · obtain ⟨s, hs, he⟩ := List.any_eq_true.1 hx
      exact .inl ⟨s, hs, sameName_iff.1 he⟩
    · obtain ⟨i, hi, he⟩ := List.any_eq_true.1 (hd d (List.mem_filter.2 ⟨hm, by simpa using hx⟩))
      exact .inr ⟨i, hi, sameName_iff.1 he⟩

theorem isUnique_wanted {d : DesiredIndex} (h : (StoredIndex.wanted d).Sound) :
    (StoredIndex.wanted d).live.isUnique = false := by
  rw [h.isUnique]
  rfl

theorem isEngineMade_wanted {d : DesiredIndex} (h : isFree d.name = true) :
    (StoredIndex.wanted d).live.isEngineMade = false := by
  have hf := not_beginsWith_of_isFree h
  rw [Bool.eq_false_iff, ne_eq, beginsWith_iff] at hf
  simp only [LiveIndex.isEngineMade, StoredIndex.live, StoredIndex.wanted, Bool.eq_false_iff, ne_eq,
    beginsWith_iff]
  exact fun hp => hf (List.IsPrefix.trans ⟨"autoindex".toList, by decide⟩ hp)

namespace IndexWork

variable {old : List StoredIndex} {added : List StoredIndex} {stale : List LiveIndex}
  (h : IndexWork db db' table desired (old.map StoredIndex.live) added stale)

include h

theorem mem_iff {i : StoredIndex} :
    i ∈ db'.indexes ↔ i ∈ db.indexes ++ added ∧ ∀ s ∈ stale, lower i.name ≠ lower s.name := by
  rw [h.result, List.mem_filter, StoredIndex.outlasts_iff]

theorem mem_of_desired {i : StoredIndex} {d : DesiredIndex} (hi : i ∈ db.indexes ++ added)
    (hd : d ∈ desired) (hn : lower i.name = lower d.name) : i ∈ db'.indexes := by
  rw [h.mem_iff]
  refine ⟨hi, fun s hs he => ?_⟩
  obtain ⟨_, _, _, _, hno⟩ := (h.drops s).1 hs
  exact hno d hd (hn.symm.trans he)

/-- Only indexes that are not unique are dropped. -/
theorem mem_of_unique (hn : DistinctNames (old.map StoredIndex.name))
    (ho : ∀ j ∈ db.indexes, (∃ i ∈ old, i.Kept j) ∨ j.definition = none) {i : StoredIndex}
    (hi : i ∈ db.indexes) {d : IndexDefinition} (hd : i.definition = some d)
    (hu : d.unique = true) : i ∈ db'.indexes := by
  rw [h.mem_iff]
  refine ⟨List.mem_append_left _ hi, fun s hs he => ?_⟩
  obtain ⟨hsv, _, hsu, _⟩ := (h.drops s).1 hs
  obtain ⟨j, hj, rfl⟩ := List.mem_map.1 hsv
  rcases ho i hi with ⟨k, hk, hki⟩ | hnone
  · have hkj : k = j := hn.eq hk hj (by rw [← hki.name]; exact he)
    subst hkj
    have hku := hki.unique
    rw [hd] at hku
    obtain ⟨e, hke, heu⟩ := Option.map_eq_some_iff.1 hku.symm
    rw [StoredIndex.isUnique_live_of_unique hke (heu.trans hu)] at hsu
    cases hsu
  · rw [hnone] at hd
    cases hd

theorem unique (hs : db.Sound) (hs' : db'.Sound) (hc : Carried old db.indexes) {i : StoredIndex}
    (hu : i.live.isUnique = true) : i ∈ db'.indexes ↔ i ∈ db.indexes := by
  constructor
  · intro hi
    rcases List.mem_append.1 (h.mem_iff.1 hi).1 with hm | hm
    · exact hm
    · obtain ⟨d, _, rfl, _⟩ := h.creates i hm
      rw [isUnique_wanted (hs'.indexes _ hi)] at hu
      cases hu
  · intro hi
    rw [(hs.indexes i hi).isUnique, Option.any_eq_true] at hu
    obtain ⟨d, hd, hu⟩ := hu
    exact h.mem_of_unique hc.names hc.origin hi hd hu

theorem engineMade (hs : db.Sound) (t : String) :
    (db'.snapshot t).engineIndexCount t = (db.snapshot t).engineIndexCount t := by
  simp only [LiveTable.engineIndexCount, Database.snapshot, h.result, List.countP_map,
    List.countP_filter, List.countP_append, Function.comp_apply]
  have hz : added.countP (fun i =>
      i.live.belongsTo t && i.live.isEngineMade && i.outlasts stale) = 0 := by
    rw [List.countP_eq_zero]
    intro i hi
    obtain ⟨d, _, rfl, hf⟩ := h.creates i hi
    simp [isEngineMade_wanted hf]
  rw [hz, Nat.add_zero]
  apply List.countP_congr
  intro i hi
  have hk : i.live.isEngineMade = true → i.outlasts stale = true := by
    intro he
    rw [StoredIndex.outlasts_iff]
    intro s hm hn
    rw [(hs.indexes i hi).isEngineMade, h.defined s hm i hi hn] at he
    cases he
  simp only [Function.comp_apply, Bool.and_eq_true]
  exact ⟨fun ha => ha.1, fun ha => ⟨ha, hk ha.2⟩⟩

theorem hasWanted (hc : Carried old db.indexes) {d : DesiredIndex} (hd : d ∈ desired) :
    ∃ i ∈ db'.indexes, lower i.name = lower d.name := by
  rcases h.made d hd with ⟨s, hs, he⟩ | ⟨i, hi, he⟩
  · obtain ⟨i, hi, rfl⟩ := List.mem_map.1 hs
    obtain ⟨j, hj, hk⟩ := hc.kept i hi
    have hn : lower j.name = lower d.name := by rw [hk.name]; exact he
    exact ⟨j, h.mem_of_desired (List.mem_append_left _ hj) hd hn, hn⟩
  · exact ⟨i, h.mem_of_desired hi hd he, he⟩

theorem noStale (hs : db.Sound) (hc : Carried old db.indexes) {j : StoredIndex}
    (hj : j ∈ db'.indexes) (hb : j.live.belongsTo table = true) (hu : j.live.isUnique = false)
    (he : j.live.isEngineMade = false) : ∃ d ∈ desired, lower d.name = lower j.name := by
  obtain ⟨hm, hk⟩ := h.mem_iff.1 hj
  rcases List.mem_append.1 hm with hm | hm
  · by_contra hno
    rw [(hs.indexes j hm).isEngineMade, Bool.not_eq_false'] at he
    rcases hc.origin j hm with ⟨i, hi, hij⟩ | hnone
    · have hstale : i.live ∈ stale := by
        rw [h.drops]
        refine ⟨List.mem_map_of_mem hi, ?_, ?_, ?_, fun d hd hn => hno ⟨d, hd, ?_⟩⟩
        · rw [← hb, LiveIndex.belongsTo, LiveIndex.belongsTo, StoredIndex.live, StoredIndex.live,
            hij.table]
        · rw [← hij.isUnique (hc.sound i hi) (hs.indexes j hm), hu]
        · rw [(hc.sound i hi).isEngineMade, ← hij.isSome, he]
          rfl
        · rw [hij.name]
          exact hn
      exact hk _ hstale (by rw [hij.name]; rfl)
    · simp [hnone] at he
  · obtain ⟨d, hd, rfl, _⟩ := h.creates j hm
    exact ⟨d, hd, rfl⟩

end IndexWork

theorem Database.indexed_iff : (db.snapshot table).Indexed table desired ↔
    (∀ d ∈ desired, ∃ i ∈ db.indexes, lower i.name = lower d.name) ∧
      ∀ i ∈ db.indexes, i.live.belongsTo table = true → i.live.isUnique = false →
        i.live.isEngineMade = false → ∃ d ∈ desired, lower d.name = lower i.name := by
  constructor
  · rintro ⟨hwanted, hstale⟩
    refine ⟨fun d hd => ?_, fun i hi hb hu he => ?_⟩
    · obtain ⟨l, hl, hn⟩ := List.any_eq_true.1 (hwanted d hd)
      obtain ⟨i, hi, rfl⟩ := List.mem_map.1 hl
      exact ⟨i, hi, sameName_iff.1 hn⟩
    · obtain ⟨d, hd, hn⟩ := List.any_eq_true.1 (hstale _ (List.mem_map_of_mem hi) hb hu he)
      exact ⟨d, hd, sameName_iff.1 hn⟩
  · rintro ⟨hwanted, hstale⟩
    refine ⟨fun d hd => ?_, List.forall_mem_map.2 fun i hi hb hu he => ?_⟩
    · obtain ⟨i, hi, hn⟩ := hwanted d hd
      exact List.any_eq_true.2 ⟨i.live, List.mem_map_of_mem hi, sameName_iff.2 hn⟩
    · obtain ⟨d, hd, hn⟩ := hstale i hi hb hu he
      exact List.any_eq_true.2 ⟨d, hd, sameName_iff.2 hn⟩

theorem Database.run_reindexed {old : List StoredIndex} (hs : db.Sound)
    (hc : Carried old db.indexes)
    (hr : db.run (indexStatements table desired (old.map StoredIndex.live)) = some db') :
    Reindexed db db' table desired := by
  obtain ⟨added, stale, h⟩ := run_indexStatements hr
  refine ⟨by rw [h.result], fun i hu => h.unique hs (run_sound hs hr) hc hu, h.engineMade hs table,
    indexed_iff.2 ⟨fun d hd => h.hasWanted hc hd, fun i hi hb hu he => ?_⟩⟩
  exact h.noStale hs hc hi hb hu he

section

variable {m : Mapping} (ht : db'.tables = db.tables)
  (hunique : ∀ i : StoredIndex, i.live.isUnique = true → (i ∈ db'.indexes ↔ i ∈ db.indexes))
  (hmade : (db'.snapshot m.table).engineIndexCount m.table =
    (db.snapshot m.table).engineIndexCount m.table)

include ht hunique hmade

/-- Uniqueness is told by the columns, the unique indexes and the number of the engine's indexes. -/
theorem Database.isUnique_of_same (c : Column) (previous : Option String) :
    (db'.snapshot m.table).isUnique m c previous = (db.snapshot m.table).isUnique m c previous := by
  have hc : (db'.snapshot m.table).columns = (db.snapshot m.table).columns := by
    simp [Database.snapshot, Database.columns, ht]
  have hu (names : List String) : (db'.snapshot m.table).hasUniqueIndex m.table names =
      (db.snapshot m.table).hasUniqueIndex m.table names := by
    apply LiveTable.hasUniqueIndex_congr
    intro i hi
    simp only [Database.snapshot, List.mem_map]
    constructor
    · rintro ⟨j, hj, rfl⟩
      exact ⟨j, (hunique j hi).1 hj, rfl⟩
    · rintro ⟨j, hj, rfl⟩
      exact ⟨j, (hunique j hi).2 hj, rfl⟩
  exact LiveTable.isUnique_congr hc hu hmade c previous

/-- So a table with the same of these still matches its mapping. -/
theorem Database.matches_of_same (hm : (db.snapshot m.table).Matches m) :
    (db'.snapshot m.table).Matches m := by
  have hc : (db'.snapshot m.table).columns = (db.snapshot m.table).columns := by
    simp [Database.snapshot, Database.columns, ht]
  refine ⟨fun c hm' => ?_, ?_⟩
  · obtain ⟨l, hl, hn⟩ := hm.column c hm'
    refine ⟨l, ?_, ?_⟩
    · rw [LiveTable.column?, hc]
      exact hl
    · rw [Column.change?, Database.isUnique_of_same ht hunique hmade]
      exact hn
  · rw [hc]
    exact hm.declared

end

/-- The index work leaves a table that matches its mapping in that state. -/
theorem Reindexed.matches {m : Mapping} (h : Reindexed db db' m.table desired)
    (hm : (db.snapshot m.table).Matches m) : (db'.snapshot m.table).Matches m :=
  Database.matches_of_same h.tables h.unique h.engineMade hm

theorem Reindexed.uniqueIn_iff {m : Mapping} (h : Reindexed db db' m.table desired) :
    m.UniqueIn (db'.snapshot m.table) ↔ m.UniqueIn (db.snapshot m.table) := by
  simp only [Mapping.UniqueIn, Database.isUnique_of_same h.tables h.unique h.engineMade]

end RecordMapper.Engine
