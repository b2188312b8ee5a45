import RecordMapper.Proofs.Migration.Idempotence
/-!
When a script in place comes to drop a column, the indexes over it are those that the live table
had. Index work is planned after column work, so nothing has dropped one of them by then.
-/

namespace RecordMapper

open Text Engine

variable {m : Mapping}

/-- Work on columns that neither takes the name from a column nor gives it to one. -/
inductive Statement.Avoids (name : String) : Statement → Prop
  | renameColumn {table source target : Sql.Name} (hs : lower source.text ≠ lower name)
      (ht : lower target.text ≠ lower name) : Avoids name (.renameColumn table source target)
  | addColumn {table : Sql.Name} {d : ColumnDef} : Avoids name (.addColumn table d)
  | dropColumn {table column : Sql.Name} : Avoids name (.dropColumn table column)

namespace Engine

theorem StoredIndex.uses_mapColumns {f : String → String} {column : String}
    (hf : ∀ c, sameName (f c) column = sameName c column) (i : StoredIndex) :
    (i.mapColumns f).uses column = i.uses column := by
  simp only [uses, mapColumns, Option.any_map, List.any_map, Function.comp_def, hf]

namespace Database

variable {db db' : Database} {table column : String}

/-- No index of the table is defined over the column. -/
def Unindexed (db : Database) (table column : String) : Prop :=
  ∀ i ∈ db.indexes, i.belongsTo table = true → i.uses column = false

instance : Decidable (db.Unindexed table column) :=
  inferInstanceAs (Decidable (∀ i ∈ db.indexes, i.belongsTo table = true → i.uses column = false))

/-- An index is over a column after a step exactly when it was before. -/
theorem unindexed_exec {statement : Statement} (hs : statement.Avoids column)
    (h : db.exec statement = some db') :
    db'.Unindexed table column ↔ db.Unindexed table column := by
  cases hs with
  | addColumn =>
    simp only [exec, Option.ite_none_right_eq_some, Option.some.injEq] at h
    obtain ⟨_, rfl⟩ := h
    exact Iff.rfl
  | dropColumn =>
    simp only [exec, Option.ite_none_right_eq_some, Option.some.injEq] at h
    obtain ⟨_, rfl⟩ := h
    exact Iff.rfl
  | @renameColumn t source target hs ht =>
    simp only [exec, Option.ite_none_right_eq_some, Option.some.injEq] at h
    obtain ⟨_, rfl⟩ := h
    -- Neither end of the rename is the column, so an index column is it afterwards when it was
    -- before.
    have hf (c : String) :
        sameName (if sameName source.text c then target.text else c) column =
          sameName c column := by
      split
      next hc =>
        have hc' : lower c ≠ lower column := sameName_iff.1 hc ▸ hs
        rw [Bool.eq_iff_iff, sameName_iff, sameName_iff]
        exact iff_of_false ht hc'
      next => rfl
    simp only [Unindexed, renameColumn, indexes_mapColumns, List.forall_mem_map]
    apply forall₂_congr
    intro i _
    split
    next => rw [StoredIndex.belongsTo_mapColumns, StoredIndex.uses_mapColumns hf]
    next => exact Iff.rfl

theorem unindexed_run {script : List Statement} (hs : ∀ s ∈ script, s.Avoids column)
    (h : db.run script = some db') : db'.Unindexed table column ↔ db.Unindexed table column := by
  induction script generalizing db with
  | nil =>
    cases h
    exact Iff.rfl
  | cons s script ih =>
    rw [run_cons, Option.bind_eq_some_iff] at h
    obtain ⟨db₁, h₁, h₂⟩ := h
    rw [ih (fun t ht => hs t (.tail _ ht)) h₂]
    exact unindexed_exec (hs s List.mem_cons_self) h₁

/-- The engine stops at the drop of a column that an index is over. -/
theorem run_dropColumn_eq_none {before after : List Statement} (hr : db.run before = some db')
    (hi : ¬db'.Unindexed table column) :
    db.run (before ++ .dropColumn (.simple table) (.simple column) :: after) = none := by
  have hexec : db'.exec (.dropColumn (.simple table) (.simple column)) = none := by
    rw [Option.eq_none_iff_forall_ne_some]
    intro db₁ h
    exact hi (exec_dropColumn h).2.2
  rw [run_append, hr, Option.bind_some, run_cons, hexec, Option.bind_none]

end Database

end Engine

theorem dropColumn_not_mem_indexStatements {table : String} {desired : List DesiredIndex}
    {survivors : List LiveIndex} {t column : Sql.Name} :
    .dropColumn t column ∉ indexStatements table desired survivors := by
  intro h
  rcases List.mem_append.1 h with h | h
  · obtain ⟨d, _, hd⟩ := List.mem_map.1 h
    cases hd
  · obtain ⟨i, _, hi⟩ := List.mem_map.1 h
    cases hi

/-- Only work in place drops a column, and one that is not declared. -/
theorem Mapping.dropColumn_mem_columnStatements {capability : Capability} {live renamed : LiveTable}
    {renames : List Rename} {table column : Sql.Name}
    (h : .dropColumn table column ∈ m.columnStatements capability live renamed renames) :
    m.columnStatements capability live renamed renames = m.inPlaceStatements renamed renames ∧
      ∃ d ∈ m.droppedColumns renamed, column = .simple d.name := by
  rw [columnStatements] at h ⊢
  split at h
  next => simp [rebuildStatements] at h
  next hre =>
    split at h
    next => simp at h
    next hne =>
      refine ⟨by rw [if_neg hre, if_neg hne], ?_⟩
      simp only [inPlaceStatements, List.mem_append, List.mem_map] at h
      rcases h with (⟨r, _, hr⟩ | ⟨c, _, hc⟩) | ⟨d, hd, he⟩
      · cases hr
      · cases hc
      · cases he
        exact ⟨d, hd, rfl⟩

/-- A rename leads to a declared column, so it neither starts from a dropped one nor leads to
one. -/
theorem Rename.ne_dropped {live : LiveTable} {d : LiveColumn}
    (hd : d ∈ m.droppedColumns (live.rename (detect m live))) {r : Rename}
    (hr : r ∈ detect m live) : lower r.source ≠ lower d.name ∧ lower r.target ≠ lower d.name := by
  obtain ⟨hlive, hnone⟩ := List.mem_filter.1 hd
  have htarget : ∀ r ∈ detect m live, lower r.target ≠ lower d.name := by
    intro r hr he
    obtain ⟨c, hc, _, _, ht, _⟩ := mem_detect hr
    rw [Option.isNone_iff_eq_none, Mapping.columnByName?, List.find?_eq_none] at hnone
    exact hnone c hc (sameName_iff.2 (ht ▸ he))
  obtain ⟨l, _, rfl⟩ := List.mem_map.1 hlive
  refine ⟨?_, htarget r hr⟩
  rcases newName_cases (detect m live) l.name with ⟨hno, hn⟩ | ⟨r', hr', _, hn⟩
  · simp only [hn]
    exact hno r hr
  · exact absurd (congrArg lower hn.symm) (htarget r' hr')

theorem Mapping.avoids_inPlaceStatements {live : LiveTable} {d : LiveColumn}
    (hd : d ∈ m.droppedColumns (live.rename (Rename.detect m live))) :
    ∀ s ∈ m.inPlaceStatements (live.rename (Rename.detect m live)) (Rename.detect m live),
      s.Avoids d.name := by
  intro s hs
  simp only [inPlaceStatements, List.mem_append, List.mem_map] at hs
  rcases hs with (⟨r, hr, rfl⟩ | ⟨c, _, rfl⟩) | ⟨e, _, rfl⟩
  · obtain ⟨hsource, htarget⟩ := Rename.ne_dropped hd hr
    exact .renameColumn (by simpa using hsource) (by simpa using htarget)
  · exact .addColumn
  · exact .dropColumn

variable {catalog : Catalog} {capability : Capability} {db db' : Database}

/-- A column that is to be dropped is free of indexes when its turn comes exactly when it was so
from the start. -/
theorem unindexed_dropColumn_iff {plan : SyncPlan}
    (hp : m.syncPlan catalog capability (db.snapshot m.table) = .ok plan)
    {before after : List Statement} {table column : Sql.Name}
    (hs : plan.statements = before ++ .dropColumn table column :: after)
    (hr : db.run before = some db') :
    db'.Unindexed m.table column.text ↔ db.Unindexed m.table column.text := by
  obtain ⟨hrenames, _, desired, _, hstatements⟩ := Mapping.syncPlan_eq_ok hp
  rw [hs] at hstatements
  have hmem : Statement.dropColumn table column ∈
      m.columnStatements capability (db.snapshot m.table)
        ((db.snapshot m.table).rename plan.renames) plan.renames := by
    have hdrop : Statement.dropColumn table column ∈
        before ++ .dropColumn table column :: after := by simp
    rw [hstatements] at hdrop
    exact (List.mem_append.1 hdrop).resolve_right dropColumn_not_mem_indexStatements
  obtain ⟨hcolumns, d, hd, rfl⟩ := Mapping.dropColumn_mem_columnStatements hmem
  rw [hcolumns, hrenames] at hstatements
  rw [hrenames] at hd
  rw [text_simple]
  apply Database.unindexed_run _ hr
  intro s hsb
  apply Mapping.avoids_inPlaceStatements hd
  -- What runs before the drop is work on columns.
  rcases List.append_eq_append_iff.1 hstatements with ⟨rest, he, _⟩ | ⟨rest, rfl, he⟩
  · rw [he]
    exact List.mem_append_left _ hsb
  · have hindex := dropColumn_not_mem_indexStatements (he ▸ List.mem_append_right rest
      List.mem_cons_self)
    exact hindex.elim

def noteDefinition : ColumnDef where
  name := "note"
  storage := .text
  notNull := false
  unique := false
  primaryKey := false
  autoIncrement := false

/-- What precedes the drop of `draft` when earlier articles are brought in line. -/
def beforeDraft : List Statement := [
  .renameColumn (.simple "articles") (.simple "heading") (.simple "title"),
  .addColumn (.simple "articles") noteDefinition]

theorem unindexed_draft : ∃ plan after db',
    articles.assemble.syncPlan [] .full (earlierArticles.snapshot articles.assemble.table) =
        .ok plan ∧
      plan.statements =
        beforeDraft ++ .dropColumn (.simple "articles") (.simple "draft") :: after ∧
      earlierArticles.run beforeDraft = some db' ∧ db'.Unindexed "articles" "draft" := by
  obtain ⟨plan, after, hp, hs⟩ : ∃ plan after, articles.assemble.syncPlan [] .full
      (earlierArticles.snapshot articles.assemble.table) = .ok plan ∧
        plan.statements =
          beforeDraft ++ .dropColumn (.simple "articles") (.simple "draft") :: after :=
    ⟨_, [
      .createIndex (.simple "idx_articles_note") (.simple "articles") [.simple "note"] false true,
      .dropIndex (.simple "by_id") true], rfl, by rfl⟩
  have hrun : (earlierArticles.run beforeDraft).isSome = true := by decide +kernel
  obtain ⟨db', hr⟩ := Option.isSome_iff_exists.1 hrun
  exact ⟨plan, after, db', hp, hs, hr, (unindexed_dropColumn_iff hp hs hr).2 (by decide +kernel)⟩

/-- Articles with an index over the column that is to be dropped. -/
def indexedDrafts : Database :=
  { earlierArticles with
    indexes := [
      { name := "by_heading", table := "articles", definition := some ⟨true, ["heading"], true⟩ },
      { name := "by_draft", table := "articles", definition := some ⟨false, ["draft"], false⟩ }] }

theorem consistent_indexedDrafts : indexedDrafts.Consistent "articles" := by
  refine ⟨⟨consistent_earlierArticles.columns, by decide +kernel⟩, ?_, ?_, ?_, ?_⟩
  · rw [DistinctNames]
    decide +kernel
  · rw [DistinctNames]
    decide +kernel
  · decide +kernel
  · decide +kernel

/-- The index over `draft` is still there when the column is dropped, and the engine refuses. -/
theorem draft_dropped_under_index : ∃ plan after db',
    articles.build = .ok articles.assemble ∧ indexedDrafts.Consistent articles.assemble.table ∧
      articles.assemble.syncPlan [] .full (indexedDrafts.snapshot articles.assemble.table) =
        .ok plan ∧
      plan.rebuild = false ∧
      plan.statements =
        beforeDraft ++ .dropColumn (.simple "articles") (.simple "draft") :: after ∧
      indexedDrafts.run beforeDraft = some db' ∧ ¬db'.Unindexed "articles" "draft" ∧
      indexedDrafts.run plan.statements = none := by
  let db' := (indexedDrafts.renameColumn "articles" "heading" "title").addColumn "articles"
    noteDefinition
  have hr : indexedDrafts.run beforeDraft = some db' := by rfl
  have hi : ¬db'.Unindexed "articles" "draft" := by decide +kernel
  obtain ⟨plan, after, hp, hs⟩ : ∃ plan after, articles.assemble.syncPlan [] .full
      (indexedDrafts.snapshot articles.assemble.table) = .ok plan ∧
        plan.rebuild = false ∧ plan.statements =
          beforeDraft ++ .dropColumn (.simple "articles") (.simple "draft") :: after :=
    ⟨_, [
      .createIndex (.simple "idx_articles_note") (.simple "articles") [.simple "note"] false true,
      .dropIndex (.simple "by_draft") true], rfl, by rfl, by rfl⟩
  refine ⟨plan, after, db', rfl, consistent_indexedDrafts, hp, hs.1, hs.2, hr, hi, ?_⟩
  rw [hs.2]
  exact Database.run_dropColumn_eq_none hr hi

end RecordMapper
