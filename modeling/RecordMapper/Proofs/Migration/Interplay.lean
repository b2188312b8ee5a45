import RecordMapper.Proofs.Migration.Idempotence
/-!
Two records synchronized one after the other. The index work of the second is about its own table,
and takes no notice of the indexes that the first wants there.
-/

namespace RecordMapper

open Text Engine

theorem DesiredIndex.distinct_insert {desired : List DesiredIndex} {index : DesiredIndex}
    (h : DistinctNames (desired.map DesiredIndex.name)) :
    DistinctNames ((insert desired index).map DesiredIndex.name) := by
  rw [insert]
  split
  next => exact h
  next hno =>
    have hnew : lower index.name ∉ (desired.map DesiredIndex.name).map lower := by
      simpa [sameName_iff] using hno
    rw [DistinctNames, List.map_append, List.map_append, List.nodup_append_comm]
    exact List.nodup_cons.2 ⟨hnew, h⟩

/-- No two wanted indexes have one name. -/
theorem Mapping.distinct_desiredIndexes {m : Mapping} {catalog : Catalog}
    {desired : List DesiredIndex} (h : m.desiredIndexes catalog = .ok desired) :
    DistinctNames (desired.map DesiredIndex.name) := by
  obtain ⟨joined, _, rfl⟩ := bind_pure_eq_ok_iff.1 h
  have hfold (l start : List DesiredIndex) (hs : DistinctNames (start.map DesiredIndex.name)) :
      DistinctNames ((l.foldl DesiredIndex.insert start).map DesiredIndex.name) := by
    induction l generalizing start with
    | nil => exact hs
    | cons d l ih => exact ih _ (DesiredIndex.distinct_insert hs)
  exact hfold _ [] List.nodup_nil

namespace Engine

variable {db db' : Database} {table other : String} {desired wanted : List DesiredIndex}

theorem Carried.refl (hs : db.Sound) (hn : DistinctNames (db.indexes.map StoredIndex.name)) :
    Carried db.indexes db.indexes where
  names := hn
  sound := hs.indexes
  kept i hi := ⟨i, hi, rfl, rfl, rfl⟩
  origin i hi := .inl ⟨i, hi, rfl, rfl, rfl⟩

/-- The index work over the table `other` spares the indexes `desired` of a record over `table`:
what it takes for stale is none of them, and `table` gets no index that is new. -/
structure Spares (db : Database) (table other : String) (desired wanted : List DesiredIndex) :
    Prop where
  keeps : ∀ d ∈ desired, ∀ i ∈ db.indexes, lower i.name = lower d.name →
    i.live.belongsTo other = true → i.live.isUnique = false → i.live.isEngineMade = false →
      ∃ e ∈ wanted, lower e.name = lower d.name
  adds : ∀ e ∈ wanted, lower e.table = lower table → ∃ i ∈ db.indexes, lower i.name = lower e.name

namespace IndexWork

variable {added : List StoredIndex} {stale : List LiveIndex}
  (h : IndexWork db db' other wanted (db.indexes.map StoredIndex.live) added stale)

include h

theorem distinct_result (hn : DistinctNames (db.indexes.map StoredIndex.name)) :
    DistinctNames (db'.indexes.map StoredIndex.name) := by
  rw [h.result]
  exact (h.distinct hn).sublist ((List.filter_sublist.map _).map _)

/-- An index is dropped when its table is the one at work and nobody there wants it. -/
theorem stale_iff {i : StoredIndex} (hi : i ∈ db.indexes) : i.live ∈ stale ↔
    i.live.belongsTo other = true ∧ i.live.isUnique = false ∧ i.live.isEngineMade = false ∧
      ∀ e ∈ wanted, lower e.name ≠ lower i.name := by
  rw [h.drops]
  exact ⟨And.right, fun hs => ⟨List.mem_map_of_mem hi, hs⟩⟩

theorem keeps_of_indexed (hi : (db'.snapshot table).Indexed table desired) {d : DesiredIndex}
    (hd : d ∈ desired) {i : StoredIndex} (hm : i ∈ db.indexes) (hn : lower i.name = lower d.name)
    (hb : i.live.belongsTo other = true) (hu : i.live.isUnique = false)
    (he : i.live.isEngineMade = false) : ∃ e ∈ wanted, lower e.name = lower d.name := by
  by_contra hno
  have hstale : i.live ∈ stale := by
    rw [h.stale_iff hm]
    exact ⟨hb, hu, he, fun e hw hne => hno ⟨e, hw, hne.trans hn⟩⟩
  obtain ⟨j, hj, hjn⟩ := (Database.indexed_iff.1 hi).1 d hd
  exact (h.mem_iff.1 hj).2 i.live hstale (hjn.trans hn.symm)

/-- Where an index of its name is missing, a wanted one is made. -/
theorem wanted_mem (hd : DistinctNames (wanted.map DesiredIndex.name)) {e : DesiredIndex}
    (he : e ∈ wanted) (hno : ¬∃ i ∈ db.indexes, lower i.name = lower e.name) :
    .wanted e ∈ db'.indexes ∧ isFree e.name = true := by
  rcases h.made e he with ⟨s, hs, hn⟩ | ⟨i, hi, hn⟩
  · obtain ⟨i, hi, rfl⟩ := List.mem_map.1 hs
    exact absurd ⟨i, hi, hn⟩ hno
  · rcases List.mem_append.1 hi with hi | hi
    · exact absurd ⟨i, hi, hn⟩ hno
    · obtain ⟨e', he', rfl, hf⟩ := h.creates i hi
      have hee : e' = e := hd.eq he' he hn
      subst hee
      exact ⟨h.mem_of_desired (List.mem_append_right _ hi) he rfl, hf⟩

/-- The record over `table` is in line after the index work over `other` exactly when it was
spared. -/
theorem indexed_iff (hs : db'.Sound) (hn : DistinctNames (db.indexes.map StoredIndex.name))
    (hd : DistinctNames (wanted.map DesiredIndex.name))
    (hi : (db.snapshot table).Indexed table desired) :
    (db'.snapshot table).Indexed table desired ↔ Spares db table other desired wanted := by
  obtain ⟨hwanted, hstale⟩ := Database.indexed_iff.1 hi
  constructor
  · intro hi'
    refine ⟨fun d hm i => h.keeps_of_indexed hi' hm, fun e he ht => ?_⟩
    by_contra hno
    obtain ⟨hm, hf⟩ := h.wanted_mem hd he hno
    obtain ⟨d, hdd, hdn⟩ := (Database.indexed_iff.1 hi').2 _ hm (sameName_iff.2 ht)
      (isUnique_wanted (hs.indexes _ hm)) (isEngineMade_wanted hf)
    obtain ⟨i, hi, hin⟩ := hwanted d hdd
    exact hno ⟨i, hi, hin.trans hdn⟩
  · rintro ⟨hkeeps, hadds⟩
    rw [Database.indexed_iff]
    refine ⟨fun d hm => ?_, fun j hj hb hu he => ?_⟩
    · obtain ⟨i, hi, hname⟩ := hwanted d hm
      refine ⟨i, h.mem_iff.2 ⟨List.mem_append_left _ hi, fun s hs he => ?_⟩, hname⟩
      obtain ⟨hsurvives, hb, hu, hmade, hno⟩ := (h.drops s).1 hs
      obtain ⟨k, hk, rfl⟩ := List.mem_map.1 hsurvives
      obtain ⟨e, hew, hen⟩ := hkeeps d hm k hk (he.symm.trans hname) hb hu hmade
      exact hno e hew (hen.trans (hname.symm.trans he))
    · rcases List.mem_append.1 (h.mem_iff.1 hj).1 with hm | hm
      · exact hstale j hm hb hu he
      · obtain ⟨e, hew, rfl, _⟩ := h.creates j hm
        obtain ⟨i, hi, hname⟩ := hadds e hew (sameName_iff.1 hb)
        have hdistinct := h.distinct hn
        rw [DistinctNames, List.map_append, List.map_append, List.nodup_append] at hdistinct
        exact absurd hname (hdistinct.2.2 _ (List.mem_map_of_mem (List.mem_map_of_mem hi)) _
          (List.mem_map_of_mem (List.mem_map_of_mem hm)))

end IndexWork

/-- Index work leaves every table that matches its mapping in that state. -/
theorem IndexWork.matches {added : List StoredIndex} {stale : List LiveIndex} {m : Mapping}
    (h : IndexWork db db' other wanted (db.indexes.map StoredIndex.live) added stale)
    (hs : db.Sound) (hs' : db'.Sound) (hn : DistinctNames (db.indexes.map StoredIndex.name))
    (hm : (db.snapshot m.table).Matches m) : (db'.snapshot m.table).Matches m := by
  have ht : db'.tables = db.tables := by rw [h.result]
  exact Database.matches_of_same ht (fun i hu => h.unique hs hs' (.refl hs hn) hu)
    (h.engineMade hs m.table) hm

end Engine

variable {a b : Mapping} {catalog : Catalog} {capability : Capability} {db : Database}

/-- Two records are synchronized one after the other. Then the second has nothing left to do, and
the first has nothing left to do exactly when the second spared its indexes. -/
theorem syncPlan_interleaved_iff {d e : Declaration} (hd : d.build = .ok a) (he : e.build = .ok b)
    {desired wanted : List DesiredIndex} (hda : a.desiredIndexes catalog = .ok desired)
    (hdb : b.desiredIndexes catalog = .ok wanted) (hs : db.Sound)
    (hn : DistinctNames (db.indexes.map StoredIndex.name))
    (ha : (db.snapshot a.table).Matches a) (hb : (db.snapshot b.table).Matches b) :
    ∃ first, a.syncPlan catalog capability (db.snapshot a.table) = .ok first ∧
      ∀ db₁, db.run first.statements = some db₁ →
        ∃ second, b.syncPlan catalog capability (db₁.snapshot b.table) = .ok second ∧
          ∀ db₂, db₁.run second.statements = some db₂ →
            ∃ again again', a.syncPlan catalog capability (db₂.snapshot a.table) = .ok again ∧
              b.syncPlan catalog capability (db₂.snapshot b.table) = .ok again' ∧
              again'.statements = [] ∧
              (again.statements = [] ↔ Spares db₁ a.table b.table desired wanted) := by
  have hva := Mapping.valid_of_build hd
  have hvb := Mapping.valid_of_build he
  obtain ⟨first, hfirst, hs₁⟩ := ha.statements hva hda capability
  refine ⟨first, hfirst, fun db₁ h₁ => ?_⟩
  have hsound₁ := Database.run_sound hs h₁
  rw [hs₁] at h₁
  obtain ⟨_, _, hw₁⟩ := Database.run_indexStatements h₁
  have hn₁ := hw₁.distinct_result hn
  obtain ⟨second, hsecond, hs₂⟩ :=
    (hw₁.matches hs hsound₁ hn hb).statements hvb hdb capability
  refine ⟨second, hsecond, fun db₂ h₂ => ?_⟩
  have hsound₂ := Database.run_sound hsound₁ h₂
  rw [hs₂] at h₂
  obtain ⟨_, _, hw₂⟩ := Database.run_indexStatements h₂
  have ha₁ := hw₁.matches hs hsound₁ hn ha
  have ha₂ := hw₂.matches hsound₁ hsound₂ hn₁ ha₁
  have hb₂ := hw₂.matches hsound₁ hsound₂ hn₁ (hw₁.matches hs hsound₁ hn hb)
  have hi₁ := (Database.run_reindexed hs (.refl hs hn) h₁).indexed
  have hi₂ := (Database.run_reindexed hsound₁ (.refl hsound₁ hn₁) h₂).indexed
  obtain ⟨again, hagain, hs₃⟩ := ha₂.statements hva hda capability
  obtain ⟨again', hagain', hs₄⟩ := hb₂.syncPlan hvb hi₂ hdb capability
  refine ⟨again, again', hagain, hagain', hs₄, ?_⟩
  rw [hs₃, LiveTable.indexStatements_eq_nil]
  exact hw₂.indexed_iff hsound₂ hn₁ (Mapping.distinct_desiredIndexes hdb) hi₁

/-- Writers are joined to their books, with an index over the writers of books. -/
def writers : Declaration where
  name := "Writer"
  table := some "writers"
  columns := [
    { field := "id", storage := .integer, primaryKey := true },
    { field := "name", storage := .text }]
  joins := [⟨"id", ⟨"Book", 1⟩, "writer", true⟩]

/-- Books, which may want an index over their writers themselves. -/
def books (indexed : Bool) : Declaration where
  name := "Book"
  table := some "books"
  columns := [
    { field := "id", storage := .integer, primaryKey := true },
    { field := "writer", name := "writer_id", storage := .integer,
      index := if indexed then some {} else none }]

def shelf (indexed : Bool) : Catalog := [.declared writers, .declared (books indexed)]

/-- The tables of writers and books, with no index. -/
def library : Database where
  tables := fun name =>
    if name = "writers" then writers.assemble.definitions.map ColumnDef.stored
    else if name = "books" then (books false).assemble.definitions.map ColumnDef.stored
    else []
  indexes := []

theorem library_sound : library.Sound := by
  refine ⟨fun t l hl => ?_, fun i hi => absurd hi List.not_mem_nil⟩
  simp only [Database.columns, library] at hl
  split at hl
  · revert l
    decide +kernel
  · split at hl
    · revert l
      decide +kernel
    · cases hl

theorem library_matches_writers :
    (library.snapshot writers.assemble.table).Matches writers.assemble := by
  have hm : writers.build = .ok writers.assemble := rfl
  apply matches_storedColumns (Mapping.valid_of_build hm)
  · rfl
  · exact fun i hi => absurd hi List.not_mem_nil
  · decide +kernel

theorem library_matches_books (indexed : Bool) :
    (library.snapshot (books indexed).assemble.table).Matches (books indexed).assemble := by
  have hm : (books indexed).build = .ok (books indexed).assemble := by
    cases indexed <;> rfl
  apply matches_storedColumns (Mapping.valid_of_build hm)
  · cases indexed <;> rfl
  · exact fun i hi => absurd hi List.not_mem_nil
  · cases indexed <;> decide +kernel

def indexOverWriters : DesiredIndex := ⟨"idx_books_writer_id", "books", "writer_id"⟩

/-- The library once the index that writers want was made. -/
def indexedLibrary : Database := { library with indexes := [.wanted indexOverWriters] }

theorem library_first (indexed : Bool) : ∃ first,
    writers.assemble.syncPlan (shelf indexed) .full (library.snapshot "writers") = .ok first ∧
      first.statements = [.createIndex (.simple "idx_books_writer_id") (.simple "books")
        [.simple "writer_id"] false true] ∧
      library.run first.statements = some indexedLibrary := by
  refine ⟨⟨[.createIndex (.simple "idx_books_writer_id") (.simple "books")
    [.simple "writer_id"] false true], false, none, [], []⟩, ?_, rfl, ?_⟩
  · cases indexed <;> rfl
  · rfl

/-- Books want the index over their writers as well, so it outlasts their script. -/
theorem syncPlan_interleaved_library : ∃ first second again again',
    writers.assemble.syncPlan (shelf true) .full (library.snapshot "writers") = .ok first ∧
      library.run first.statements = some indexedLibrary ∧
      (books true).assemble.syncPlan (shelf true) .full (indexedLibrary.snapshot "books") =
        .ok second ∧
      indexedLibrary.run second.statements = some indexedLibrary ∧
      writers.assemble.syncPlan (shelf true) .full (indexedLibrary.snapshot "writers") =
        .ok again ∧ again.statements = [] ∧
      (books true).assemble.syncPlan (shelf true) .full (indexedLibrary.snapshot "books") =
        .ok again' ∧ again'.statements = [] := by
  have hd : writers.build = .ok writers.assemble := rfl
  have he : (books true).build = .ok (books true).assemble := rfl
  have hn : DistinctNames (library.indexes.map StoredIndex.name) := List.nodup_nil
  have hda : writers.assemble.desiredIndexes (shelf true) = .ok [indexOverWriters] := by rfl
  have hdb : (books true).assemble.desiredIndexes (shelf true) = .ok [indexOverWriters] := by rfl
  obtain ⟨first, hfirst, h₁⟩ := @syncPlan_interleaved_iff _ _ (shelf true) .full library _ _ hd he
    _ _ hda hdb library_sound hn library_matches_writers (library_matches_books true)
  obtain ⟨first', hfirst', _, hrun⟩ := library_first true
  cases hfirst.symm.trans hfirst'
  obtain ⟨second, hsecond, h₂⟩ := h₁ _ hrun
  have hsecond' : (books true).assemble.syncPlan (shelf true) .full
      (indexedLibrary.snapshot "books") = .ok ⟨[], false, none, [], []⟩ := by rfl
  cases hsecond.symm.trans hsecond'
  obtain ⟨again, again', hagain, hagain', hnil', hiff⟩ := h₂ _ (Database.run_nil _)
  have hspares : Spares indexedLibrary "writers" "books" [indexOverWriters] [indexOverWriters] := by
    refine ⟨fun d hm _ _ _ _ _ _ => ⟨d, hm, rfl⟩, fun e he _ => ?_⟩
    exact ⟨.wanted e, by rw [List.mem_singleton.1 he]; exact List.mem_singleton_self _, rfl⟩
  exact ⟨first, _, again, again', hfirst, hrun, hsecond, Database.run_nil _, hagain,
    hiff.2 hspares, hagain', hnil'⟩

/-- Books do not want it, so their script drops the index that the script of writers made, and the
next one would make it again. -/
theorem index_dropped_for_books : ∃ first second again,
    (library.snapshot "writers").Matches writers.assemble ∧
      (library.snapshot "books").Matches (books false).assemble ∧
      writers.assemble.syncPlan (shelf false) .full (library.snapshot "writers") = .ok first ∧
      library.run first.statements = some indexedLibrary ∧
      (books false).assemble.syncPlan (shelf false) .full (indexedLibrary.snapshot "books") =
        .ok second ∧
      second.statements = [.dropIndex (.simple "idx_books_writer_id") true] ∧
      indexedLibrary.run second.statements = some library ∧
      writers.assemble.syncPlan (shelf false) .full (library.snapshot "writers") = .ok again ∧
      again.statements ≠ [] := by
  obtain ⟨first, hfirst, hs, hrun⟩ := library_first false
  have hsecond : (books false).assemble.syncPlan (shelf false) .full
      (indexedLibrary.snapshot "books") =
        .ok ⟨[.dropIndex (.simple "idx_books_writer_id") true], false, none, [], []⟩ := by rfl
  refine ⟨first, _, first, library_matches_writers, library_matches_books false, hfirst, hrun,
    hsecond, rfl, by rfl, hfirst, ?_⟩
  rw [hs]
  exact List.cons_ne_nil _ _

end RecordMapper
