import RecordMapper.Proofs.Migration.IndexSync
import RecordMapper.Proofs.Migration.UniqueIndexes
/-!
Which of the indexes that a mapping asks for are there after a migration. They are told apart by
their names alone, so one is missing when another request, or an index that stays, has its name over
another column.
-/

namespace RecordMapper

open Text Engine

variable {catalog : Catalog} {capability : Capability} {m : Mapping}

/-- The indexes that a mapping asks for: those of its columns, then those of its indexed joins. -/
def Mapping.indexRequests (catalog : Catalog) (m : Mapping) :
    Except JoinFault (List DesiredIndex) := do
  let joined ← (m.joins.filter (·.indexed)).mapM (DesiredIndex.ofJoin catalog)
  return m.columns.filterMap (DesiredIndex.ofColumn? m) ++ joined

/-- No request of the same name comes before it. -/
def DesiredIndex.IsFirst (requests : List DesiredIndex) (d : DesiredIndex) : Prop :=
  requests.find? (fun e => sameName e.name d.name) = some d

instance (requests : List DesiredIndex) (d : DesiredIndex) : Decidable (d.IsFirst requests) :=
  inferInstanceAs (Decidable (_ = some d))

theorem DesiredIndex.IsFirst.mem {requests : List DesiredIndex} {d : DesiredIndex}
    (h : d.IsFirst requests) : d ∈ requests :=
  List.mem_of_find?_eq_some h

theorem DesiredIndex.exists_isFirst {requests : List DesiredIndex} {d : DesiredIndex}
    (h : d ∈ requests) :
    ∃ e : DesiredIndex, e.IsFirst requests ∧ lower e.name = lower d.name := by
  cases hf : requests.find? (fun e => sameName e.name d.name) with
  | none => exact absurd (sameName_refl d.name) (List.find?_eq_none.1 hf d h)
  | some e =>
    have he : lower e.name = lower d.name :=
      sameName_iff.1 (List.find?_some (p := fun e : DesiredIndex => sameName e.name d.name) hf)
    refine ⟨e, ?_, he⟩
    rw [IsFirst, ← hf]
    simp only [sameName, he]

/-- Of the requests of one name the first is wanted. -/
theorem DesiredIndex.mem_foldl_insert_iff {requests : List DesiredIndex} {d : DesiredIndex} :
    d ∈ requests.foldl insert [] ↔ d.IsFirst requests := by
  induction requests using List.reverseRecOn generalizing d with
  | nil => simp [IsFirst]
  | append_singleton requests e ih =>
    have hany : (requests.foldl insert []).any (fun f => sameName f.name e.name) = true ↔
        ∃ f ∈ requests, lower f.name = lower e.name := by
      simp only [List.any_eq_true, sameName_iff]
      constructor
      · rintro ⟨f, hf, hn⟩
        exact ⟨f, (ih.1 hf).mem, hn⟩
      · rintro ⟨f, hf, hn⟩
        obtain ⟨g, hg, hgn⟩ := exists_isFirst hf
        exact ⟨g, ih.2 hg, hgn.trans hn⟩
    have hmem : d ∈ insert (requests.foldl insert []) e ↔
        d.IsFirst requests ∨ d = e ∧ ∀ f ∈ requests, lower f.name ≠ lower e.name := by
      rw [insert]
      split
      next hs =>
        obtain ⟨f, hf, hn⟩ := hany.1 hs
        exact ih.trans ⟨.inl, fun h => h.resolve_right fun hr => hr.2 f hf hn⟩
      next hs =>
        have hno : ∀ f ∈ requests, lower f.name ≠ lower e.name :=
          fun f hf hn => hs (hany.2 ⟨f, hf, hn⟩)
        rw [List.mem_append, List.mem_singleton, ih]
        exact or_congr_right ⟨fun h => ⟨h, hno⟩, And.left⟩
    rw [List.foldl_append, List.foldl_cons, List.foldl_nil, hmem, IsFirst, IsFirst,
      List.find?_append]
    cases hf : requests.find? (fun f => sameName f.name d.name) with
    | some f =>
      have hfn : lower f.name = lower d.name :=
        sameName_iff.1 (List.find?_some (p := fun f : DesiredIndex => sameName f.name d.name) hf)
      refine ⟨fun h => h.resolve_right ?_, .inl⟩
      rintro ⟨rfl, hno⟩
      exact hno f (List.mem_of_find?_eq_some hf) hfn
    | none =>
      have hno : ∀ f ∈ requests, lower f.name ≠ lower d.name := by
        simpa [sameName_iff] using hf
      rw [Option.none_or, List.find?_singleton]
      constructor
      · rintro (h | ⟨rfl, _⟩)
        · cases h
        · rw [if_pos (sameName_refl _)]
      · intro h
        obtain ⟨_, h⟩ := Option.ite_none_right_eq_some.1 h
        cases h
        exact .inr ⟨rfl, hno⟩

/-- What is wanted in the end are the first requests of their names. -/
theorem Mapping.exists_requests {desired : List DesiredIndex}
    (h : m.desiredIndexes catalog = .ok desired) : ∃ requests,
      m.indexRequests catalog = .ok requests ∧
        ∀ d : DesiredIndex, d ∈ desired ↔ d.IsFirst requests := by
  obtain ⟨joined, hj, rfl⟩ := bind_pure_eq_ok_iff.1 h
  exact ⟨_, bind_pure_eq_ok_iff.2 ⟨joined, hj, rfl⟩, fun d => DesiredIndex.mem_foldl_insert_iff⟩

namespace Engine

theorem isFree_congr {a b : String} (h : lower a = lower b) : isFree a = isFree b := by
  rw [isFree, isFree, isPlain_congr h, h]

/-- The names of the engine's own indexes cannot be given to others. -/
theorem not_isFree_of_sound {i : StoredIndex} (hs : i.Sound) (hd : i.definition = none) :
    isFree i.name = false := by
  simp only [StoredIndex.Sound, hd] at hs
  rw [Bool.eq_false_iff]
  intro hf
  have hno : beginsWith "sqlite_autoindex" i.name = false :=
    isEngineMade_wanted (d := ⟨i.name, "", ""⟩) hf
  rw [hs] at hno
  cases hno

namespace StoredIndex

/-- The index is over the column of the table, and over no other. -/
def IsOver (i : StoredIndex) (table column : String) : Prop :=
  i.belongsTo table = true ∧ ∃ d, i.definition = some d ∧ d.columns.map lower = [lower column]

/-- The index once columns of the table were renamed. -/
def underNames (i : StoredIndex) (table : String) (renames : List Rename) : StoredIndex :=
  if i.belongsTo table then i.mapColumns (Rename.newName renames) else i

@[simp] theorem name_underNames (i : StoredIndex) (table : String) (renames : List Rename) :
    (i.underNames table renames).name = i.name := by
  rw [underNames]
  split <;> rfl

theorem isOver_wanted {d : DesiredIndex} {table column : String} :
    (wanted d).IsOver table column ↔
      lower d.table = lower table ∧ lower d.column = lower column := by
  simp [IsOver, wanted, belongsTo, sameName_iff]

end StoredIndex

namespace Database

variable {db db' : Database} {table column : String}

def HasIndexOver (db : Database) (table column : String) : Prop :=
  ∃ i ∈ db.indexes, i.IsOver table column

/-- The indexes that outlast the column work. A rebuilt table loses its own. -/
def survivors (db : Database) (table : String) (rebuilt : Bool) : List StoredIndex :=
  db.indexes.filter fun i => !(rebuilt && i.belongsTo table)

theorem survivors_rebuilt (db : Database) (table : String) (renames : List Rename) :
    (db.survivors table true).map (·.underNames table renames) =
      db.indexes.filter fun i => !i.belongsTo table := by
  refine Eq.trans (List.map_congr_left fun i hi => ?_) (List.map_id _)
  have hb : ¬i.belongsTo table = true := by simpa using (List.mem_filter.1 hi).2
  rw [StoredIndex.underNames, if_neg hb, id]

theorem survivors_kept (db : Database) (table : String) (renames : List Rename) :
    (db.survivors table false).map (·.underNames table renames) =
      (db.mapColumns table (Rename.newName renames)).indexes := by
  have hall : db.survivors table false = db.indexes := List.filter_true _
  rw [hall, indexes_mapColumns]
  rfl

/-- Column work leaves the surviving indexes under the new names of columns, and those that the
engine made for a new table. -/
theorem indexes_columnWork {renames : List Rename}
    (hrenames : renames = Rename.detect m (db.snapshot m.table))
    (ho : ∀ i ∈ db.indexes, i.belongsTo m.table = true ∨ db.hasTable i.table = true)
    (h : db.run (m.columnStatements capability (db.snapshot m.table)
      ((db.snapshot m.table).rename renames) renames) = some db') :
    ∃ made, db'.indexes =
        (db.survivors m.table (m.needsRebuild capability ((db.snapshot m.table).rename renames)
          renames)).map (·.underNames m.table renames) ++ made ∧
      ∀ i ∈ made, i.definition = none ∧ isFree i.name = false := by
  cases hre : m.needsRebuild capability ((db.snapshot m.table).rename renames) renames with
  | true =>
    rw [Mapping.columnStatements, hre, if_pos rfl] at h
    obtain ⟨rfl, hne, hshadow, hfree, _⟩ := run_rebuild h
    refine ⟨_, by rw [survivors_rebuilt]; exact indexes_rebuild m.definitions ho hne hshadow, ?_⟩
    rw [List.forall_mem_map]
    intro i hi
    have hs : (i.renameTable (m.table ++ capability.shadowSuffix) m.table).Sound :=
      (StoredIndex.sound_engineIndexes hi).renameTable (isPlain_of_isFree hfree)
    have hd : (i.renameTable (m.table ++ capability.shadowSuffix) m.table).definition = none :=
      (engineIndexes_spec hi).1
    exact ⟨hd, not_isFree_of_sound hs hd⟩
  | false =>
    obtain ⟨made, hi, hmade⟩ := Mapping.engineIndexes_columnStatements hrenames hre h
    refine ⟨made, by rw [survivors_kept, hi], fun i hm => ?_⟩
    have hd := (engineIndexes_spec (hmade i hm)).1
    exact ⟨hd, not_isFree_of_sound (StoredIndex.sound_engineIndexes (hmade i hm)) hd⟩

/-- Index work adds wanted indexes only, each under a name that no survivor has. -/
theorem origin_indexStatements {desired : List DesiredIndex} {survivors : List LiveIndex}
    (h : db.run (indexStatements table desired survivors) = some db') {i : StoredIndex}
    (hi : i ∈ db'.indexes) :
    i ∈ db.indexes ∨ ∃ d ∈ desired, i = .wanted d ∧ isFree d.name = true ∧
      ∀ s ∈ survivors, lower s.name ≠ lower d.name := by
  rw [indexStatements, run_append, Option.bind_eq_some_iff] at h
  obtain ⟨db₁, h₁, h₂⟩ := h
  obtain ⟨added, rfl, hadded, _⟩ := run_creates h₁
  rw [(run_dropIndexes h₂).1] at hi
  rcases List.mem_append.1 (List.mem_of_mem_filter hi) with hi | hi
  · exact .inl hi
  · obtain ⟨d, hd, he, hf, _⟩ := hadded i hi
    obtain ⟨hd, hmissing⟩ := List.mem_filter.1 hd
    exact .inr ⟨d, hd, he, hf, LiveIndex.isMissing_iff.1 hmissing⟩

end Database

variable {db db' : Database} {table : String} {desired : List DesiredIndex}

namespace IndexWork

variable {old added : List StoredIndex} {stale : List LiveIndex}
  (h : IndexWork db db' table desired (old.map StoredIndex.live) added stale)

include h

theorem mem_stale_iff {s : LiveIndex} :
    s ∈ stale ↔ s ∈ old.map StoredIndex.live ∧ ¬s.Retained table desired := by
  simp only [h.drops, LiveIndex.Retained, not_or, not_exists, not_and, ne_eq, Bool.not_eq_false,
    Bool.not_eq_true]

/-- What became of an old index stays exactly when the old one was to be retained. -/
theorem mem_iff_retained (hn : DistinctNames (old.map StoredIndex.name)) {i j : StoredIndex}
    (hi : i ∈ db.indexes) (hj : j ∈ old) (he : i.name = j.name) :
    i ∈ db'.indexes ↔ j.live.Retained table desired := by
  rw [h.mem_iff]
  constructor
  · rintro ⟨_, hkept⟩
    by_contra hr
    exact hkept j.live (h.mem_stale_iff.2 ⟨List.mem_map_of_mem hj, hr⟩) (congrArg lower he)
  · intro hr
    refine ⟨List.mem_append_left _ hi, fun s hs hname => ?_⟩
    obtain ⟨hm, hno⟩ := h.mem_stale_iff.1 hs
    obtain ⟨k, hk, rfl⟩ := List.mem_map.1 hm
    rw [he] at hname
    rw [hn.eq hj hk hname] at hr
    exact hno hr

/-- A wanted index whose name is free is made and stays. -/
theorem wanted_mem_of_free (hd : DistinctNames (desired.map DesiredIndex.name)) {r : DesiredIndex}
    (hr : r ∈ desired) (hold : ∀ i ∈ old, lower i.name ≠ lower r.name)
    (hfree : ∀ i ∈ db.indexes, lower i.name ≠ lower r.name) : .wanted r ∈ db'.indexes := by
  have hmissing : ¬∃ s ∈ old.map StoredIndex.live, lower s.name = lower r.name := by
    rintro ⟨_, hs, he⟩
    obtain ⟨i, hm, rfl⟩ := List.mem_map.1 hs
    exact hold i hm he
  obtain ⟨i, hi, he⟩ := (h.made r hr).resolve_left hmissing
  have hadded : i ∈ added := (List.mem_append.1 hi).resolve_left fun hi => hfree i hi he
  obtain ⟨d, hdm, rfl, _⟩ := h.creates i hadded
  rw [← hd.eq hdm hr he]
  exact h.mem_of_desired hi hdm rfl

end IndexWork

/-- What is over a column after index work on the indexes that column work left. -/
theorem Database.hasIndexOver_indexStatements {t u column : String} {renames : List Rename}
    {old made : List StoredIndex}
    (hi : db.indexes = old.map (·.underNames t renames) ++ made)
    (hmade : ∀ i ∈ made, i.definition = none ∧ isFree i.name = false)
    (hn : DistinctNames (old.map StoredIndex.name))
    (hd : DistinctNames (desired.map DesiredIndex.name))
    (h : db.run (indexStatements t desired (old.map StoredIndex.live)) = some db') :
    db'.HasIndexOver u column ↔
      (∃ i ∈ old, i.live.Retained t desired ∧ (i.underNames t renames).IsOver u column) ∨
        ∃ r ∈ desired, (StoredIndex.wanted r).IsOver u column ∧ isFree r.name = true ∧
          ∀ i ∈ old, lower i.name ≠ lower r.name := by
  obtain ⟨added, stale, hw⟩ := run_indexStatements h
  have hmem {j : StoredIndex} (hj : j ∈ old) : j.underNames t renames ∈ db.indexes := by
    rw [hi]
    exact List.mem_append_left _ (List.mem_map_of_mem hj)
  constructor
  · rintro ⟨i, hm, hover⟩
    rcases origin_indexStatements h hm with hold | ⟨r, hr, rfl, hf, hfree⟩
    · rw [hi] at hold
      rcases List.mem_append.1 hold with hold | hnew
      · obtain ⟨j, hj, rfl⟩ := List.mem_map.1 hold
        exact .inl ⟨j, hj, (hw.mem_iff_retained hn (hmem hj) hj (by simp)).1 hm, hover⟩
      · obtain ⟨_, d, hdefined, _⟩ := hover
        rw [(hmade i hnew).1] at hdefined
        cases hdefined
    · exact .inr ⟨r, hr, hover, hf, fun i hi => hfree _ (List.mem_map_of_mem hi)⟩
  · rintro (⟨j, hj, hr, hover⟩ | ⟨r, hr, hover, hf, hfree⟩)
    · exact ⟨_, (hw.mem_iff_retained hn (hmem hj) hj (by simp)).2 hr, hover⟩
    · refine ⟨_, hw.wanted_mem_of_free hd hr hfree fun i hm he => ?_, hover⟩
      rw [hi] at hm
      rcases List.mem_append.1 hm with hm | hm
      · obtain ⟨j, hj, rfl⟩ := List.mem_map.1 hm
        rw [StoredIndex.name_underNames] at he
        exact hfree j hj he
      · rw [isFree_congr he.symm, (hmade i hm).2] at hf
        cases hf

end Engine

/-- Which names are wanted does not depend on the order of the requests. -/
theorem LiveIndex.retained_iff_of_first {requests desired : List DesiredIndex} {table : String}
    (h : ∀ d : DesiredIndex, d ∈ desired ↔ d.IsFirst requests) {i : LiveIndex} :
    i.Retained table desired ↔ i.Retained table requests := by
  have hnames : (∃ d ∈ desired, lower d.name = lower i.name) ↔
      ∃ d ∈ requests, lower d.name = lower i.name := by
    constructor
    · rintro ⟨d, hd, hn⟩
      exact ⟨d, ((h d).1 hd).mem, hn⟩
    · rintro ⟨d, hd, hn⟩
      obtain ⟨e, he, hen⟩ := DesiredIndex.exists_isFirst hd
      exact ⟨e, (h e).2 he, hen.trans hn⟩
  rw [Retained, Retained, hnames]

variable {db : Database}

/-- After a migration, a column that the mapping wants indexed is so exactly when an index over it
stays, or when the first request of some free name is over it. -/
theorem hasIndexOver_iff (hj : ∀ j ∈ m.joins, ∃ t, catalog.joinTarget j = .ok t)
    (hn : DistinctNames (db.indexes.map StoredIndex.name))
    (ho : ∀ i ∈ db.indexes, i.belongsTo m.table = true ∨ db.hasTable i.table = true) :
    ∃ requests plan, m.indexRequests catalog = .ok requests ∧
      m.syncPlan catalog capability (db.snapshot m.table) = .ok plan ∧
      ∀ db', db.run plan.statements = some db' → ∀ q ∈ requests,
        (db'.HasIndexOver q.table q.column ↔
          (∃ i ∈ db.survivors m.table plan.rebuild, i.live.Retained m.table requests ∧
            (i.underNames m.table plan.renames).IsOver q.table q.column) ∨
          ∃ r : DesiredIndex, r.IsFirst requests ∧ lower r.table = lower q.table ∧
            lower r.column = lower q.column ∧ isFree r.name = true ∧
            ∀ i ∈ db.survivors m.table plan.rebuild, lower i.name ≠ lower r.name) := by
  obtain ⟨desired, hd⟩ := exists_desiredIndexes hj
  obtain ⟨requests, hrequests, hfirst⟩ := Mapping.exists_requests hd
  obtain ⟨plan, hp⟩ : ∃ plan, m.syncPlan catalog capability (db.snapshot m.table) = .ok plan :=
    ⟨_, by rw [Mapping.syncPlan, hd]; rfl⟩
  refine ⟨requests, plan, hrequests, hp, fun db' hr q _ => ?_⟩
  obtain ⟨hrenames, hrebuild, desired', hd', hstatements⟩ := Mapping.syncPlan_eq_ok hp
  cases hd.symm.trans hd'
  rw [hstatements, Database.run_append, Option.bind_eq_some_iff, survivors_snapshot] at hr
  obtain ⟨db₁, hcolumns, hindexes⟩ := hr
  obtain ⟨made, hi, hmade⟩ := Database.indexes_columnWork hrenames ho hcolumns
  rw [← hrebuild] at hi
  have hnames : DistinctNames ((db.survivors m.table plan.rebuild).map StoredIndex.name) :=
    hn.sublist ((List.filter_sublist.map _).map _)
  rw [Database.hasIndexOver_indexStatements hi hmade hnames (Mapping.distinct_desiredIndexes hd)
    hindexes]
  simp only [LiveIndex.retained_iff_of_first hfirst, hfirst, StoredIndex.isOver_wanted, and_assoc]

/-- Posts with a tag each. The tags of a post can be looked up. -/
def taggedPosts : Declaration where
  name := "Post"
  table := some "post"
  columns := [
    { field := "id", storage := .integer, primaryKey := true },
    { field := "tag", name := "tag_id", storage := .integer, index := some {} }]
  joins := [⟨"tag", ⟨"PostTag", 1⟩, "id", true⟩]

/-- Tags, in a table of the given name. -/
def postTags (table : String) : Declaration where
  name := "PostTag"
  table := some table
  columns := [{ field := "id", storage := .integer, primaryKey := true }]

def tagCatalog (table : String) : Catalog := [.declared taggedPosts, .declared (postTags table)]

/-- The tables of posts and tags, and an index over the tags of posts unless there is none yet. -/
def postDatabase (table : String) (indexes : List StoredIndex) : Database where
  tables := fun name =>
    if name = "post" then taggedPosts.assemble.definitions.map ColumnDef.stored
    else if name = table then (postTags table).assemble.definitions.map ColumnDef.stored
    else []
  indexes

def tagsOfPosts : StoredIndex :=
  { name := "IDX_POST_TAG_ID", table := "post", definition := some ⟨false, ["tag_id"], false⟩ }

/-- The index over the tags of posts stays and the other one is made. -/
theorem hasIndexOver_posts : ∃ requests plan db',
    taggedPosts.assemble.indexRequests (tagCatalog "tag") = .ok requests ∧
      taggedPosts.assemble.syncPlan (tagCatalog "tag") .full
        ((postDatabase "tag" [tagsOfPosts]).snapshot "post") = .ok plan ∧
      (postDatabase "tag" [tagsOfPosts]).run plan.statements = some db' ∧
      requests.length = 2 ∧ ∀ q ∈ requests, db'.HasIndexOver q.table q.column := by
  have hj : ∀ j ∈ taggedPosts.assemble.joins,
      ∃ t, (tagCatalog "tag").joinTarget j = .ok t := by
    intro j hj
    rw [List.mem_singleton.1 hj]
    exact ⟨_, rfl⟩
  have hn : DistinctNames ((postDatabase "tag" [tagsOfPosts]).indexes.map StoredIndex.name) :=
    List.nodup_singleton _
  have ho : ∀ i ∈ (postDatabase "tag" [tagsOfPosts]).indexes,
      i.belongsTo taggedPosts.assemble.table = true ∨
        (postDatabase "tag" [tagsOfPosts]).hasTable i.table = true := by
    intro i hi
    rw [List.mem_singleton.1 hi]
    exact .inl (sameName_refl "post")
  obtain ⟨requests, plan, hrequests, hplan, h⟩ := @hasIndexOver_iff _ .full taggedPosts.assemble _
    hj hn ho
  let first : DesiredIndex := ⟨"idx_post_tag_id", "post", "tag_id"⟩
  let second : DesiredIndex := ⟨"idx_tag_id", "tag", "id"⟩
  have hrequests' : taggedPosts.assemble.indexRequests (tagCatalog "tag") =
      .ok [first, second] := by rfl
  have hplan' : taggedPosts.assemble.syncPlan (tagCatalog "tag") .full
      ((postDatabase "tag" [tagsOfPosts]).snapshot "post") = .ok ⟨[.createIndex
        (.simple "idx_tag_id") (.simple "tag") [.simple "id"] false true], false, none,
          [], []⟩ := by
    rfl
  have hrun : (postDatabase "tag" [tagsOfPosts]).run [.createIndex (.simple "idx_tag_id")
      (.simple "tag") [.simple "id"] false true] =
        some (postDatabase "tag" [tagsOfPosts, .wanted second]) := by rfl
  cases hrequests.symm.trans hrequests'
  cases hplan.symm.trans hplan'
  refine ⟨_, _, _, hrequests, hplan, hrun, rfl, fun q hq => (h _ hrun q hq).2 ?_⟩
  rcases List.mem_pair.1 hq with rfl | rfl
  · have hover : (tagsOfPosts.underNames "post" []).IsOver "post" "tag_id" :=
      ⟨by decide +kernel, ⟨false, ["tag_id"], false⟩, by decide +kernel, by decide +kernel⟩
    have hname : lower first.name = lower tagsOfPosts.name := by decide +kernel
    exact .inl ⟨tagsOfPosts, List.mem_singleton_self _,
      .inr (.inr (.inr ⟨first, List.mem_cons_self, hname⟩)), hover⟩
  · have hfirst : second.IsFirst [first, second] := by decide +kernel
    exact .inr ⟨second, hfirst, rfl, rfl, by decide +kernel, by decide +kernel⟩

/-- The tags of posts and the tags themselves get one name for their indexes when the table of tags
is named so. The second is never made. -/
theorem tags_stay_unindexed : ∃ requests plan db',
    taggedPosts.build = .ok taggedPosts.assemble ∧
      taggedPosts.assemble.indexRequests (tagCatalog "post_tag") = .ok requests ∧
      ⟨"idx_post_tag_id", "post_tag", "id"⟩ ∈ requests ∧
      taggedPosts.assemble.syncPlan (tagCatalog "post_tag") .full
        ((postDatabase "post_tag" []).snapshot "post") = .ok plan ∧
      (postDatabase "post_tag" []).run plan.statements = some db' ∧
      ¬db'.HasIndexOver "post_tag" "id" := by
  let first : DesiredIndex := ⟨"idx_post_tag_id", "post", "tag_id"⟩
  have hplan : taggedPosts.assemble.syncPlan (tagCatalog "post_tag") .full
      ((postDatabase "post_tag" []).snapshot "post") = .ok ⟨[.createIndex
        (.simple "idx_post_tag_id") (.simple "post") [.simple "tag_id"] false true], false, none,
          [], []⟩ := by
    rfl
  refine ⟨[first, ⟨"idx_post_tag_id", "post_tag", "id"⟩], _,
    postDatabase "post_tag" [.wanted first], rfl, by rfl, by simp, hplan, by rfl, ?_⟩
  rintro ⟨i, hi, hb, _⟩
  rw [List.mem_singleton.1 hi] at hb
  revert hb
  decide +kernel

end RecordMapper
