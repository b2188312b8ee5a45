import RecordMapper.Proofs.Migration.InPlace
import RecordMapper.Proofs.Traversal
/-!
Once a plan took effect, the next plan has nothing to do, unless the engine's indexes are no longer
enough for the columns that are declared unique.
-/

namespace RecordMapper

open Text Engine

variable {m : Mapping} {catalog : Catalog} {capability : Capability} {db db' : Database}

theorem exists_desiredIndexes (hj : ∀ j ∈ m.joins, ∃ t, catalog.joinTarget j = .ok t) :
    ∃ desired, m.desiredIndexes catalog = .ok desired := by
  obtain ⟨joined, h⟩ : ∃ ys, (m.joins.filter (·.indexed)).mapM (DesiredIndex.ofJoin catalog) =
      .ok ys := by
    apply exists_mapM_eq_ok
    intro j hm
    obtain ⟨t, ht⟩ := hj j (List.mem_of_mem_filter hm)
    exact ⟨_, by rw [DesiredIndex.ofJoin, ht]; rfl⟩
  exact ⟨_, by rw [Mapping.desiredIndexes, h]; rfl⟩

/-- A plan is the column work, then the index work. -/
theorem Mapping.syncPlan_eq_ok {live : LiveTable} {plan : SyncPlan}
    (h : m.syncPlan catalog capability live = .ok plan) :
    plan.renames = Rename.detect m live ∧
      plan.rebuild = m.needsRebuild capability (live.rename plan.renames) plan.renames ∧
      ∃ desired, m.desiredIndexes catalog = .ok desired ∧ plan.statements =
        m.columnStatements capability live (live.rename plan.renames) plan.renames ++
          indexStatements m.table desired (live.survivors m.table plan.rebuild) := by
  obtain ⟨desired, hd, rfl⟩ := bind_pure_eq_ok_iff.1 h
  exact ⟨rfl, rfl, desired, hd, rfl⟩

theorem survivors_snapshot (db : Database) (table : String) (rebuilt : Bool) :
    (db.snapshot table).survivors table rebuilt =
      (db.indexes.filter fun i => !(rebuilt && i.belongsTo table)).map StoredIndex.live := by
  rw [LiveTable.survivors, Database.snapshot, List.filter_map]
  rfl

/-- A table for which nothing is planned enforces what is declared unique. -/
theorem Mapping.uniqueIn_of_statements_eq_nil {live : LiveTable} {plan : SyncPlan}
    (h : m.syncPlan catalog capability live = .ok plan) (hn : plan.statements = []) :
    m.UniqueIn live := by
  obtain ⟨_, _, desired, _, hs⟩ := Mapping.syncPlan_eq_ok h
  rw [hs, List.append_eq_nil_iff, Mapping.columnStatements] at hn
  obtain ⟨hcolumns, _⟩ := hn
  split at hcolumns
  next => cases hcolumns
  next hstays =>
    split at hcolumns
    next => cases hcolumns
    next =>
      simp only [Mapping.inPlaceStatements, List.append_eq_nil_iff, List.map_eq_nil_iff]
        at hcolumns
      obtain ⟨⟨hrenames, hadded⟩, _⟩ := hcolumns
      rw [hrenames, live.rename_nil] at hstays hadded
      simp only [Mapping.needsRebuild, Bool.or_eq_true, not_or, Bool.not_eq_true] at hstays
      intro c hc hcu hkey
      have hlive : (live.column? c.name).isNone = false :=
        Bool.eq_false_iff.2 (List.filter_eq_nil_iff.1 hadded c hc)
      obtain ⟨l, hl⟩ := Option.isSome_iff_exists.1 (Option.isNone_eq_false_iff.1 hlive)
      have hsame := Mapping.firstChange?_eq_none_iff.1 (by simpa using hstays.1.1) c hc l hl
      exact ((Column.change?_eq_none_iff.1 hsame).2.2 hkey).2.symm.trans hcu

/-- The column work of a plan leaves a table that matches, whether it created the table, rebuilt it
or changed it in place, provided that it enforces what is declared unique. It keeps the indexes that
survive it. -/
theorem run_columnStatements (hv : m.Valid) (hf : DistinctNames (m.columns.map Column.field))
    (hdb : db.Consistent m.table) {renames : List Rename}
    (hr : renames = Rename.detect m (db.snapshot m.table))
    (h : db.run (m.columnStatements capability (db.snapshot m.table)
      ((db.snapshot m.table).rename renames) renames) = some db') :
    (m.UniqueIn (db'.snapshot m.table) → (db'.snapshot m.table).Matches m) ∧
      ((∀ c ∈ m.columns, c.unique = true → c.primaryKey = false →
        db.FindsOwn m.table c.field) → m.UniqueIn (db'.snapshot m.table)) ∧
      Carried (db.indexes.filter fun i =>
        !(m.needsRebuild capability ((db.snapshot m.table).rename renames) renames &&
          i.belongsTo m.table)) db'.indexes := by
  have hs := db.run_sound hdb.toSound h
  rw [Mapping.columnStatements] at h
  split at h
  next hre =>
    obtain ⟨rfl, hne, hsh, hfree, _⟩ := Database.run_rebuild h
    simp only [hre, Bool.true_and]
    obtain ⟨hmatch, hcarried⟩ := Database.matches_rebuild hv hdb hne hsh (isPlain_of_isFree hfree)
    exact ⟨fun _ => hmatch, fun _ => hmatch.uniqueIn, hcarried⟩
  next hre =>
    have hall : db.indexes.filter (fun _ => true) = db.indexes :=
      List.filter_true _
    simp only [Bool.not_eq_true] at hre
    simp only [hre, Bool.false_and, Bool.not_false, hall]
    split at h
    next hempty =>
      have hno : db.hasTable m.table = false := by
        rw [Database.hasTable, Bool.not_eq_false']
        exact hempty
      rw [Database.run_cons, Option.bind_eq_some_iff] at h
      obtain ⟨db₁, h₁, h₂⟩ := h
      rw [Database.run_nil, Option.some.injEq] at h₂
      obtain ⟨rfl, _⟩ := Database.exec_createTable hno h₁
      obtain ⟨hmatch, hcarried⟩ := Database.matches_createTable hv hdb hno
      exact h₂ ▸ ⟨fun _ => hmatch, fun _ => hmatch.uniqueIn, hcarried⟩
    next =>
      have hclean : Rename.Clean (db.snapshot m.table) renames :=
        hr ▸ Rename.clean_detect hv.names hf
      have hw := Database.run_inPlace
        (fun r hm r' hm' => hclean.not_target_source hm hm') h
      have hnone : m.firstChange? ((db.snapshot m.table).rename renames) renames = none := by
        simp only [Mapping.needsRebuild, Bool.or_eq_false_iff] at hre
        simpa using hre.1.1
      exact ⟨hw.matches_of_unique hdb hs hv hf hr hnone,
        fun hown => hw.uniqueIn hdb hs hv hf hown hr hnone, hw.carried hdb⟩

/-- A second plan right after the first is empty exactly when the table then enforces what is
declared unique, by its indexes or by the count of the engine's. It does when every unique index
that is found by the name of a unique field is over the column of that name. -/
theorem syncPlan_idempotent {d : Declaration} (hm : d.build = .ok m)
    (hf : DistinctNames (m.columns.map Column.field))
    (hj : ∀ j ∈ m.joins, ∃ t, catalog.joinTarget j = .ok t) (hdb : db.Consistent m.table) :
    ∃ plan, m.syncPlan catalog capability (db.snapshot m.table) = .ok plan ∧
      ∀ db', db.run plan.statements = some db' →
        ∃ plan', m.syncPlan catalog capability (db'.snapshot m.table) = .ok plan' ∧
          (plan'.statements = [] ↔ m.UniqueIn (db'.snapshot m.table)) ∧
          ((∀ c ∈ m.columns, c.unique = true → c.primaryKey = false →
            db.FindsOwn m.table c.field) → plan'.statements = []) := by
  have hv := Mapping.valid_of_build hm
  obtain ⟨desired, hd⟩ := exists_desiredIndexes hj
  refine ⟨_, by rw [Mapping.syncPlan, hd]; rfl, fun db' h => ?_⟩
  simp only [survivors_snapshot, Database.run_append, Option.bind_eq_some_iff] at h
  obtain ⟨db₁, h₁, h₂⟩ := h
  obtain ⟨hmatch, hunique, hcarried⟩ := run_columnStatements hv hf hdb rfl h₁
  have hwork := Database.run_reindexed (Database.run_sound hdb.toSound h₁) hcarried h₂
  have hempty : m.UniqueIn (db'.snapshot m.table) →
      ∃ plan', m.syncPlan catalog capability (db'.snapshot m.table) = .ok plan' ∧
        plan'.statements = [] := fun hu =>
    (hwork.matches (hmatch (hwork.uniqueIn_iff.1 hu))).syncPlan hv hwork.indexed hd capability
  obtain ⟨plan', hplan'⟩ : ∃ plan', m.syncPlan catalog capability (db'.snapshot m.table) =
      .ok plan' := ⟨_, by rw [Mapping.syncPlan, hd]; rfl⟩
  have hiff : plan'.statements = [] ↔ m.UniqueIn (db'.snapshot m.table) := by
    refine ⟨Mapping.uniqueIn_of_statements_eq_nil hplan', fun hu => ?_⟩
    obtain ⟨plan'', hplan'', hnil⟩ := hempty hu
    cases hplan'.symm.trans hplan''
    exact hnil
  exact ⟨plan', hplan', hiff, fun hown => hiff.2 (hwork.uniqueIn_iff.2 (hunique hown))⟩

/-- Articles whose `heading` became `title`. -/
def articles : Declaration where
  name := "articles"
  columns := [
    { field := "id", storage := .integer, primaryKey := true },
    { field := "heading", name := "title", storage := .text, unique := true },
    { field := "note", storage := .text, nullable := true, index := some {} }]

/-- The table of earlier articles. Their headings are unique, and it has a column more. -/
def earlierArticles : Database where
  tables := fun name =>
    if name = "articles" then
      [{ name := "id", declaredType := "INTEGER", keyPosition := 1 },
        { name := "heading", declaredType := "text", notNull := true },
        { name := "draft", declaredType := "INTEGER" }]
    else []
  indexes := [
    { name := "by_heading", table := "articles", definition := some ⟨true, ["heading"], true⟩ },
    { name := "by_id", table := "articles", definition := some ⟨false, ["id"], false⟩ }]

theorem consistent_earlierArticles : earlierArticles.Consistent articles.assemble.table := by
  refine ⟨⟨Database.plain_columns rfl (by decide +kernel), by decide +kernel⟩, ?_, ?_, ?_, ?_⟩
  · rw [DistinctNames]
    decide +kernel
  · rw [DistinctNames]
    decide +kernel
  · decide +kernel
  · decide +kernel

theorem findsOwn_earlierArticles : ∀ c ∈ articles.assemble.columns, c.unique = true →
    c.primaryKey = false → earlierArticles.FindsOwn articles.assemble.table c.field := by
  intro c hc _ _
  have hplain : ∀ c ∈ articles.assemble.columns, isPlain c.field = true := by decide +kernel
  exact consistent_earlierArticles.toSound.findsOwn (hplain c hc)

/-- A rename that carries a unique index over, an addition, a drop and two changes of indexes. -/
theorem syncPlan_idempotent_articles : ∃ plan db',
    articles.assemble.syncPlan [] .full (earlierArticles.snapshot articles.assemble.table) =
        .ok plan ∧
      plan.statements.length = 5 ∧ earlierArticles.run plan.statements = some db' ∧
      ∃ plan', articles.assemble.syncPlan [] .full (db'.snapshot articles.assemble.table) =
          .ok plan' ∧ plan'.statements = [] := by
  have hf : DistinctNames (articles.assemble.columns.map Column.field) := by
    rw [DistinctNames]
    decide +kernel
  have hm : articles.build = .ok articles.assemble := rfl
  obtain ⟨plan, hplan, h⟩ := @syncPlan_idempotent _ [] .full _ _ hm hf
    (fun j hj => absurd hj List.not_mem_nil) consistent_earlierArticles
  have hrun : ((articles.assemble.syncPlan [] .full
      (earlierArticles.snapshot articles.assemble.table)).toOption.any fun p =>
        p.statements.length == 5 && (earlierArticles.run p.statements).isSome) = true := by
    decide +kernel
  rw [hplan] at hrun
  simp only [Except.toOption, Option.any_some, Bool.and_eq_true, beq_iff_eq] at hrun
  obtain ⟨db', hdb'⟩ := Option.isSome_iff_exists.1 hrun.2
  obtain ⟨plan', hplan', _, hempty⟩ := h db' hdb'
  exact ⟨plan, db', hplan, hrun.1, hdb', plan', hplan', hempty findsOwn_earlierArticles⟩

/-- Letters with two unique fields, a short and a long s. -/
def letters : Declaration where
  name := "letters"
  columns := [
    { field := "id", storage := .integer, primaryKey := true },
    { field := "s", name := "b", storage := .text, unique := true },
    { field := "\u017f", name := "a", storage := .text, unique := true }]

/-- The table of earlier letters. The short s is unique by an index. -/
def earlierLetters : Database where
  tables := fun name =>
    if name = "letters" then
      [{ name := "id", declaredType := "INTEGER", keyPosition := 1 },
        { name := "s", declaredType := "TEXT", notNull := true },
        { name := "a", declaredType := "TEXT", notNull := true }]
    else []
  indexes := [{ name := "by_s", table := "letters", definition := some ⟨true, ["s"], false⟩ }]

theorem consistent_earlierLetters : earlierLetters.Consistent letters.assemble.table := by
  refine ⟨⟨Database.plain_columns rfl (by decide +kernel), by decide +kernel⟩, ?_, ?_, ?_, ?_⟩
  · rw [DistinctNames]
    decide +kernel
  · rw [DistinctNames]
    decide +kernel
  · decide +kernel
  · decide +kernel

/-- The long s is found in the index over the short one, so the first plan asks for no other. It
renames the short s, the index goes with it, and the second plan rebuilds the table. -/
theorem syncPlan_not_idempotent_letters :
    letters.build = .ok letters.assemble ∧
      DistinctNames (letters.assemble.columns.map Column.field) ∧ letters.assemble.joins = [] ∧
      earlierLetters.Consistent letters.assemble.table ∧
      ∃ plan db' plan', letters.assemble.syncPlan [] .full
          (earlierLetters.snapshot letters.assemble.table) = .ok plan ∧
        earlierLetters.run plan.statements = some db' ∧
        letters.assemble.syncPlan [] .full (db'.snapshot letters.assemble.table) = .ok plan' ∧
        plan'.rebuild = true ∧ plan'.statements ≠ [] := by
  have hf : DistinctNames (letters.assemble.columns.map Column.field) := by
    rw [DistinctNames]
    decide +kernel
  refine ⟨rfl, hf, rfl, consistent_earlierLetters, ?_⟩
  obtain ⟨plan, hplan⟩ : ∃ plan, letters.assemble.syncPlan [] .full
      (earlierLetters.snapshot letters.assemble.table) = .ok plan := ⟨_, rfl⟩
  have hrun : ((letters.assemble.syncPlan [] .full
      (earlierLetters.snapshot letters.assemble.table)).toOption.any fun p =>
        (earlierLetters.run p.statements).any fun db =>
          (letters.assemble.syncPlan [] .full
            (db.snapshot letters.assemble.table)).toOption.any fun p' =>
              p'.rebuild && !p'.statements.isEmpty) = true := by
    decide +kernel
  rw [hplan, Except.toOption, Option.any_some, Option.any_eq_true] at hrun
  obtain ⟨db', hdb', hrun⟩ := hrun
  obtain ⟨plan', hplan'⟩ : ∃ plan', letters.assemble.syncPlan [] .full
      (db'.snapshot letters.assemble.table) = .ok plan' := ⟨_, rfl⟩
  rw [hplan', Except.toOption, Option.any_some, Bool.and_eq_true, Bool.not_eq_true'] at hrun
  refine ⟨plan, db', plan', hplan, hdb', hplan', hrun.1, fun hnil => ?_⟩
  rw [hnil] at hrun
  cases hrun.2

end RecordMapper
