import Mathlib.Data.List.Permutation
import Mathlib.Data.List.Sort
import Mathlib.Logic.Relation
import Mathlib.Order.Extension.Linear
import RecordMapper.Proofs.Migration.Interplay
/-!
Records that are joined to each other, synchronized in turn with a database that was empty. The
script of a record makes its table, and then the indexes that it wants on the tables of others.
-/

namespace RecordMapper

open Text Engine Relation

/-- A list can be put in an order in which nothing is related to what comes later, unless the
relation has a cycle. -/
theorem exists_perm_pairwise_not {α : Type} {r : α → α → Prop} (h : ∀ a, ¬TransGen r a a)
    (l : List α) : ∃ order : List α, order.Perm l ∧ order.Pairwise fun a b => ¬r a b := by
  classical
  have hpartial : IsPartialOrder α fun a b => ReflTransGen r b a :=
    { refl := fun a => .refl
      trans := fun a b c hab hbc => hbc.trans hab
      antisymm := fun a b hab hba => by
        rcases reflTransGen_iff_eq_or_transGen.1 hab with he | hab
        · exact he
        · exact absurd (hab.trans_left hba) (h b) }
  obtain ⟨s, hs, hle⟩ := extend_partialOrder fun a b => ReflTransGen r b a
  refine ⟨l.insertionSort s, l.perm_insertionSort s, (l.pairwise_insertionSort s).imp ?_⟩
  intro a b hab hr
  have hba : s b a := hle b a (.single hr)
  have he : a = b := hs.antisymm a b hab hba
  subst he
  exact h a (.single hr)

namespace Statement

/-- The tables that a schema statement or one about rows takes to be there. -/
def neededTables : Statement → List Sql.Name
  | insert table _ _ | update table _ _ | delete table _ | addColumn table _ | dropColumn table _
  | renameColumn table _ _ | renameTable table _ | createIndex _ table _ _ _ => [table]
  | copyTable source target _ => [source, target]
  | dropTable name ifExists => if ifExists then [] else [name]
  | query _ | createTable _ _ _ | dropIndex _ _ | pragma _ _ => []

end Statement

namespace Engine.Database

def empty : Database := ⟨fun _ => [], []⟩

/-- Every statement finds its tables when it is executed. A script ends with a statement that the
engine refuses. -/
def FindsTables (db : Database) : List Statement → Prop
  | [] => True
  | s :: script => (∀ t ∈ s.neededTables, db.hasTable t.text = true) ∧
      ∀ db', db.exec s = some db' → db'.FindsTables script

end Engine.Database

/-- The records are synchronized in this order, each once, and every statement finds its tables. -/
def Provisions (catalog : Catalog) (capability : Capability) (db : Database) : List Mapping → Prop
  | [] => True
  | m :: order => ∃ plan, m.syncPlan catalog capability (db.snapshot m.table) = .ok plan ∧
      db.FindsTables plan.statements ∧
      ∀ db', db.run plan.statements = some db' → Provisions catalog capability db' order

/-- A record is joined to one over another table, with an index wanted there. -/
def Mapping.WantsIndexOn (catalog : Catalog) (m t : Mapping) : Prop :=
  ∃ j ∈ m.joins, j.indexed = true ∧ (∃ c, catalog.joinTarget j = .ok (t, c)) ∧
    lower t.table ≠ lower m.table

variable {catalog : Catalog} {capability : Capability} {m : Mapping} {db db' : Database}
  {desired : List DesiredIndex}

theorem DesiredIndex.mem_foldl_insert {d : DesiredIndex} {l start : List DesiredIndex}
    (h : d ∈ l.foldl insert start) : d ∈ start ∨ d ∈ l := by
  induction l generalizing start with
  | nil => exact .inl h
  | cons e l ih =>
    rcases ih h with h | h
    · rw [insert] at h
      split at h
      · exact .inl h
      · rcases List.mem_append.1 h with h | h
        · exact .inl h
        · exact .inr (List.mem_singleton.1 h ▸ List.mem_cons_self)
    · exact .inr (.tail _ h)

/-- A wanted index is on the record's own table or on that of an indexed join. -/
theorem Mapping.table_of_desired (h : m.desiredIndexes catalog = .ok desired) {d : DesiredIndex}
    (hd : d ∈ desired) :
    lower d.table = lower m.table ∨ ∃ t, m.WantsIndexOn catalog t ∧ d.table = t.table := by
  obtain ⟨joined, hj, rfl⟩ := bind_pure_eq_ok_iff.1 h
  rcases DesiredIndex.mem_foldl_insert hd with hd | hd
  · cases hd
  · rcases List.mem_append.1 hd with hd | hd
    · obtain ⟨c, _, hc⟩ := List.mem_filterMap.1 hd
      obtain ⟨index, _, rfl⟩ := Option.map_eq_some_iff.1 hc
      exact .inl rfl
    · obtain ⟨j, hm, hof⟩ := exists_mem_of_forall₂ (mapM_eq_ok_iff.1 hj) hd
      obtain ⟨hm, hindexed⟩ := List.mem_filter.1 hm
      obtain ⟨⟨t, c⟩, ht, rfl⟩ := bind_pure_eq_ok_iff.1 hof
      by_cases hne : lower t.table = lower m.table
      · exact .inl hne
      · exact .inr ⟨t, ⟨j, hm, hindexed, ⟨c, ht⟩, hne⟩, rfl⟩

/-- The plan for a table that is missing makes it and then the indexes. -/
theorem LiveTable.statements_of_empty {live : LiveTable} (hl : live.columns = [])
    (hd : m.desiredIndexes catalog = .ok desired) (capability : Capability) :
    ∃ plan, m.syncPlan catalog capability live = .ok plan ∧
      plan.statements = .createTable (.simple m.table) m.definitions true ::
        indexStatements m.table desired live.indexes := by
  have hno (name : String) : live.column? name = none := by
    rw [column?, hl, List.find?_nil]
  have hrenames : Rename.detect m live = [] := by
    simp [Rename.detect, hno]
  have hchange : m.firstChange? live [] = none := by
    simp [Mapping.firstChange?, hno]
  have hdrop : m.droppedColumns live = [] := by
    simp [Mapping.droppedColumns, hl]
  have hstays : m.needsRebuild capability live [] = false := by
    simp [Mapping.needsRebuild, hchange, hdrop]
  have hcolumns : m.columnStatements capability live live [] =
      [.createTable (.simple m.table) m.definitions true] := by
    simp [Mapping.columnStatements, hstays, hl]
  have hs : live.survivors m.table false = live.indexes := by
    simp [survivors]
  simp only [Mapping.syncPlan, hrenames, live.rename_nil, hstays, hd, hs, hcolumns]
  exact ⟨_, rfl, rfl⟩

namespace Engine.Database

theorem hasTable_of_tables {t : String} (h : db'.tables = db.tables) :
    db'.hasTable t = db.hasTable t := by
  rw [hasTable, columns, h]
  rfl

theorem findsTables_drops (stale : List LiveIndex) (db : Database) :
    db.FindsTables (stale.map fun i => .dropIndex (.simple i.name) true) := by
  induction stale generalizing db with
  | nil => trivial
  | cons i stale ih => exact ⟨fun t ht => absurd ht List.not_mem_nil, fun db' _ => ih db'⟩

/-- Index work finds the tables of what it makes. -/
theorem findsTables_creates {missing : List DesiredIndex} {rest : List Statement}
    (hm : ∀ d ∈ missing, db.hasTable d.table = true) (hr : ∀ db : Database, db.FindsTables rest) :
    db.FindsTables ((missing.map fun d =>
      .createIndex (.simple d.name) (.simple d.table) [.simple d.column] false true) ++ rest) := by
  induction missing generalizing db with
  | nil => exact hr db
  | cons d missing ih =>
    refine ⟨fun t ht => ?_, fun db' h => ih fun e he => ?_⟩
    · rw [List.mem_singleton.1 ht, text_simple]
      exact hm d List.mem_cons_self
    · have htables : db'.tables = db.tables := by
        rcases exec_createIndex h with ⟨rfl, _⟩ | ⟨rfl, _⟩ <;> rfl
      rw [hasTable_of_tables htables]
      exact hm e (.tail _ he)

theorem findsTables_indexStatements {table : String} {survivors : List LiveIndex}
    (h : ∀ d ∈ desired, db.hasTable d.table = true) :
    db.FindsTables (indexStatements table desired survivors) :=
  findsTables_creates (fun d hd => h d (List.mem_of_mem_filter hd)) (findsTables_drops _)

theorem hasTable_createTable (db : Database) (t u : String) {columns : List ColumnDef}
    (hc : columns ≠ []) :
    (db.createTable t columns).hasTable u = (decide (lower u = lower t) || db.hasTable u) := by
  rw [hasTable, columns_createTable, hasTable]
  split
  next h => simp [h, hc]
  next h => simp [h]

end Engine.Database

open Engine.Database

/-- The script for a missing table finds its tables when those of the indexed joins are there, and
it adds the table to those that exist. -/
theorem provides_table (hv : m.Valid) (hj : ∀ j ∈ m.joins, ∃ t, catalog.joinTarget j = .ok t)
    (hfree : db.hasTable m.table = false)
    (hready : ∀ t, m.WantsIndexOn catalog t → db.hasTable t.table = true) :
    ∃ plan, m.syncPlan catalog capability (db.snapshot m.table) = .ok plan ∧
      db.FindsTables plan.statements ∧
      ∀ db', db.run plan.statements = some db' →
        ∀ u, db'.hasTable u = (decide (lower u = lower m.table) || db.hasTable u) := by
  obtain ⟨desired, hd⟩ := exists_desiredIndexes hj
  have hl : (db.snapshot m.table).columns = [] := by
    simpa [hasTable, snapshot] using hfree
  obtain ⟨plan, hplan, hs⟩ := LiveTable.statements_of_empty hl hd capability
  refine ⟨plan, hplan, ?_, fun db' h => ?_⟩
  · rw [hs]
    refine ⟨fun t ht => absurd ht List.not_mem_nil, fun db₁ h₁ => ?_⟩
    obtain ⟨rfl, _⟩ := exec_createTable hfree h₁
    apply findsTables_indexStatements
    intro d hm
    rw [hasTable_createTable db _ _ hv.definitions_ne_nil]
    rcases Mapping.table_of_desired hd hm with he | ⟨t, ht, he⟩
    · simp [he]
    · simp [he, hready t ht]
  · rw [hs, run_cons, Option.bind_eq_some_iff] at h
    obtain ⟨db₁, h₁, h₂⟩ := h
    obtain ⟨rfl, _⟩ := exec_createTable hfree h₁
    intro u
    obtain ⟨_, _, hw⟩ := run_indexStatements h₂
    have htables : db'.tables = (db.createTable m.table m.definitions).tables := by rw [hw.result]
    rw [hasTable_of_tables htables, hasTable_createTable db _ _ hv.definitions_ne_nil]

/-- Records can be synchronized in an order in which none wants an index on the table of a later
one. -/
theorem provisions_of_pairwise {order : List Mapping} (hv : ∀ m ∈ order, m.Valid)
    (hj : ∀ m ∈ order, ∀ j ∈ m.joins, ∃ t, catalog.joinTarget j = .ok t)
    (hn : DistinctNames (order.map Mapping.table))
    (hfree : ∀ m ∈ order, db.hasTable m.table = false)
    (hclosed : ∀ m ∈ order, ∀ t, m.WantsIndexOn catalog t →
      db.hasTable t.table = true ∨ t ∈ order)
    (hpair : order.Pairwise fun m t => ¬m.WantsIndexOn catalog t) :
    Provisions catalog capability db order := by
  induction order generalizing db with
  | nil => trivial
  | cons m order ih =>
    obtain ⟨hlater, hpair⟩ := List.pairwise_cons.1 hpair
    obtain ⟨hnew, hn⟩ := List.nodup_cons.1 hn
    have hready : ∀ t, m.WantsIndexOn catalog t → db.hasTable t.table = true := by
      intro t ht
      rcases hclosed m List.mem_cons_self t ht with h | h
      · exact h
      · rcases List.mem_cons.1 h with rfl | h
        · obtain ⟨_, _, _, _, hne⟩ := ht
          exact absurd rfl hne
        · exact absurd ht (hlater t h)
    obtain ⟨plan, hplan, hfinds, hrun⟩ := provides_table (hv m List.mem_cons_self)
      (hj m List.mem_cons_self) (hfree m List.mem_cons_self) hready
    refine ⟨plan, hplan, hfinds, fun db' h => ?_⟩
    have htables := hrun db' h
    apply ih (fun m' h => hv m' (.tail _ h)) (fun m' h => hj m' (.tail _ h)) hn
    · intro m' hm'
      have hne : lower m'.table ≠ lower m.table := fun he =>
        hnew (he ▸ List.mem_map_of_mem (List.mem_map_of_mem hm'))
      rw [htables, hfree m' (.tail _ hm'), decide_eq_false hne, Bool.false_or]
    · intro m' hm' t ht
      rcases hclosed m' (.tail _ hm') t ht with h | h
      · exact .inl (by rw [htables, h, Bool.or_true])
      · rcases List.mem_cons.1 h with rfl | h
        · exact .inl (by rw [htables, decide_eq_true rfl, Bool.true_or])
        · exact .inr h
    · exact hpair

/-- Records whose joins stay among them can be synchronized with an empty database in some order, so
that every statement finds its tables, unless there is a cycle of indexes wanted on other tables. -/
theorem exists_provisioning {records : List Mapping}
    (hb : ∀ m ∈ records, ∃ d : Declaration, d.build = .ok m)
    (hn : DistinctNames (records.map Mapping.table))
    (hj : ∀ m ∈ records, ∀ j ∈ m.joins, ∃ t ∈ records, ∃ c, catalog.joinTarget j = .ok (t, c))
    (hacyclic : ∀ m ∈ records, ¬TransGen (Mapping.WantsIndexOn catalog) m m) :
    ∃ order : List Mapping, order.Perm records ∧
      Provisions catalog capability Database.empty order := by
  have hirrefl : ∀ m, ¬TransGen (fun m t => m ∈ records ∧ m.WantsIndexOn catalog t) m m := by
    intro m h
    obtain ⟨t, ⟨hm, _⟩, _⟩ := TransGen.head'_iff.1 h
    exact hacyclic m hm (TransGen.mono (fun _ _ => And.right) m m h)
  obtain ⟨order, hperm, hpair⟩ := exists_perm_pairwise_not hirrefl records
  have hmem {m : Mapping} (hm : m ∈ order) : m ∈ records := hperm.mem_iff.1 hm
  refine ⟨order, hperm, provisions_of_pairwise (fun m hm => ?_) (fun m hm j hjm => ?_) ?_
    (fun m _ => rfl) (fun m hm t ht => ?_) ?_⟩
  · obtain ⟨d, hd⟩ := hb m (hmem hm)
    exact Mapping.valid_of_build hd
  · obtain ⟨t, _, c, ht⟩ := hj m (hmem hm) j hjm
    exact ⟨_, ht⟩
  · exact ((hperm.map _).map _).nodup_iff.2 hn
  · obtain ⟨j, hjm, _, ⟨c, hc⟩, _⟩ := ht
    obtain ⟨t', ht', c', hc'⟩ := hj m (hmem hm) j hjm
    cases hc.symm.trans hc'
    exact .inr (hperm.mem_iff.2 ht')
  · exact hpair.imp_of_mem fun hm _ hno ht => hno ⟨hmem hm, ht⟩

/-- Teams are joined to their players, with an index over the teams of players. -/
def teams : Declaration where
  name := "Team"
  table := some "teams"
  columns := [
    { field := "id", storage := .integer, primaryKey := true },
    { field := "name", storage := .text }]
  joins := [⟨"id", ⟨"Player", 1⟩, "team", true⟩]

/-- Players are joined to their team, and may want an index there in turn. -/
def players (indexed : Bool) : Declaration where
  name := "Player"
  table := some "players"
  columns := [
    { field := "id", storage := .integer, primaryKey := true },
    { field := "team", name := "team_id", storage := .integer }]
  joins := [⟨"team", ⟨"Team", 0⟩, "id", indexed⟩]

def league (indexed : Bool) : Catalog := [.declared teams, .declared (players indexed)]

theorem league_joins (indexed : Bool) :
    ∀ m ∈ [teams.assemble, (players indexed).assemble], ∀ j ∈ m.joins,
      ∃ t ∈ [teams.assemble, (players indexed).assemble],
        ∃ c, (league indexed).joinTarget j = .ok (t, c) := by
  intro m hm j hj
  simp only [List.mem_cons, List.not_mem_nil, or_false] at hm
  rcases hm with rfl | rfl
  · rw [List.mem_singleton.1 hj]
    cases indexed <;> exact ⟨_, .tail _ (.head _), _, rfl⟩
  · rw [List.mem_singleton.1 hj]
    cases indexed <;> exact ⟨_, .head _, _, rfl⟩

theorem league_builds (indexed : Bool) :
    ∀ m ∈ [teams.assemble, (players indexed).assemble], ∃ d : Declaration, d.build = .ok m := by
  intro m hm
  simp only [List.mem_cons, List.not_mem_nil, or_false] at hm
  rcases hm with rfl | rfl
  · exact ⟨teams, rfl⟩
  · refine ⟨players indexed, ?_⟩
    cases indexed <;> rfl

theorem league_tables (indexed : Bool) :
    DistinctNames ([teams.assemble, (players indexed).assemble].map Mapping.table) := by
  cases indexed <;> decide +kernel

/-- Without the index that players may want, nothing leads back from players to teams. -/
theorem league_acyclic : ∀ m ∈ [teams.assemble, (players false).assemble],
    ¬TransGen (Mapping.WantsIndexOn (league false)) m m := by
  have hplayers (t : Mapping) : ¬(players false).assemble.WantsIndexOn (league false) t := by
    rintro ⟨j, hj, hindexed, _⟩
    rw [List.mem_singleton.1 hj] at hindexed
    cases hindexed
  have hteams (t : Mapping) (h : teams.assemble.WantsIndexOn (league false) t) :
      t = (players false).assemble := by
    obtain ⟨j, hj, _, ⟨c, hc⟩, _⟩ := h
    rw [List.mem_singleton.1 hj] at hc
    exact (congrArg Prod.fst (Except.ok.inj hc)).symm
  have hpath (t : Mapping) (h : TransGen (Mapping.WantsIndexOn (league false)) teams.assemble t) :
      t = (players false).assemble := by
    induction h with
    | single h => exact hteams _ h
    | tail _ h ih =>
      rw [ih] at h
      exact absurd h (hplayers _)
  intro m hm h
  simp only [List.mem_cons, List.not_mem_nil, or_false] at hm
  rcases hm with rfl | rfl
  · have he : "teams" = "players" := congrArg Mapping.table (hpath _ h)
    revert he
    decide
  · obtain ⟨t, ht, _⟩ := TransGen.head'_iff.1 h
    exact hplayers t ht

def indexOverTeams : DesiredIndex := ⟨"idx_players_team_id", "players", "team_id"⟩

/-- Only teams want an index on the other table. With players first both scripts run to their
end. -/
theorem exists_provisioning_league :
    (∃ order : List Mapping, order.Perm [teams.assemble, (players false).assemble] ∧
      Provisions (league false) .full Database.empty order) ∧
    ∃ first second db₁ db₂,
      (players false).assemble.syncPlan (league false) .full
        (Database.empty.snapshot "players") = .ok first ∧
      Database.empty.run first.statements = some db₁ ∧
      teams.assemble.syncPlan (league false) .full (db₁.snapshot "teams") = .ok second ∧
      db₁.run second.statements = some db₂ ∧ db₂.hasTable "teams" = true ∧
      db₂.hasTable "players" = true ∧ db₂.indexes = [.wanted indexOverTeams] := by
  constructor
  · exact exists_provisioning (league_builds false) (league_tables false) (league_joins false)
      league_acyclic
  · let db₁ := Database.empty.createTable "players" (players false).assemble.definitions
    let db₂ := db₁.createTable "teams" teams.assemble.definitions
    have hfirst : (players false).assemble.syncPlan (league false) .full
        (Database.empty.snapshot "players") =
          .ok ⟨[.createTable (.simple "players") (players false).assemble.definitions true],
            false, none, [], []⟩ := by rfl
    have hsecond : teams.assemble.syncPlan (league false) .full (db₁.snapshot "teams") =
        .ok ⟨[.createTable (.simple "teams") teams.assemble.definitions true,
          .createIndex (.simple "idx_players_team_id") (.simple "players") [.simple "team_id"]
            false true], false, none, [], []⟩ := by rfl
    refine ⟨_, _, db₁, { db₂ with indexes := [.wanted indexOverTeams] }, hfirst, by rfl, hsecond,
      by rfl, by rfl, by rfl, rfl⟩

theorem not_provisions_of_missing {db₁ : Database} {plan : SyncPlan} {s s' : Statement}
    {script : List Statement} {order : List Mapping} {t : Sql.Name}
    (hplan : m.syncPlan catalog capability (db.snapshot m.table) = .ok plan)
    (hs : plan.statements = s :: s' :: script) (h₁ : db.exec s = some db₁)
    (ht : t ∈ s'.neededTables) (hno : db₁.hasTable t.text = false) :
    ¬Provisions catalog capability db (m :: order) := by
  rintro ⟨plan', hplan', hfinds, _⟩
  cases hplan.symm.trans hplan'
  rw [hs] at hfinds
  have hthere := (hfinds.2 db₁ h₁).1 t ht
  rw [hno] at hthere
  cases hthere

/-- When both want an index on the other's table, the first script makes one on a table that is
missing, whichever record comes first. -/
theorem not_provisions_of_mutual_hints :
    (∀ m ∈ [teams.assemble, (players true).assemble], ∃ d : Declaration, d.build = .ok m) ∧
      DistinctNames ([teams.assemble, (players true).assemble].map Mapping.table) ∧
      (∀ m ∈ [teams.assemble, (players true).assemble], ∀ j ∈ m.joins,
        ∃ t ∈ [teams.assemble, (players true).assemble],
          ∃ c, (league true).joinTarget j = .ok (t, c)) ∧
      ∀ order : List Mapping, order.Perm [teams.assemble, (players true).assemble] →
        ¬Provisions (league true) .full Database.empty order := by
  refine ⟨league_builds true, league_tables true, league_joins true, fun order hperm => ?_⟩
  have horder : order ∈ [[teams.assemble, (players true).assemble],
      [(players true).assemble, teams.assemble]] := List.mem_permutations'.2 hperm
  simp only [List.mem_cons, List.not_mem_nil, or_false] at horder
  rcases horder with rfl | rfl
  · have hplan : teams.assemble.syncPlan (league true) .full
        (Database.empty.snapshot teams.assemble.table) =
          .ok ⟨[.createTable (.simple "teams") teams.assemble.definitions true,
            .createIndex (.simple "idx_players_team_id") (.simple "players") [.simple "team_id"]
              false true], false, none, [], []⟩ := by rfl
    have hcreate : Database.empty.exec
        (.createTable (.simple "teams") teams.assemble.definitions true) =
          some (Database.empty.createTable "teams" teams.assemble.definitions) := by rfl
    exact not_provisions_of_missing hplan rfl hcreate (.head _) (by rfl)
  · have hplan : (players true).assemble.syncPlan (league true) .full
        (Database.empty.snapshot (players true).assemble.table) =
          .ok ⟨[.createTable (.simple "players") (players true).assemble.definitions true,
            .createIndex (.simple "idx_teams_id") (.simple "teams") [.simple "id"] false true],
              false, none, [], []⟩ := by rfl
    have hcreate : Database.empty.exec
        (.createTable (.simple "players") (players true).assemble.definitions true) =
          some (Database.empty.createTable "players" (players true).assemble.definitions) := by rfl
    exact not_provisions_of_missing hplan rfl hcreate (.head _) (by rfl)

end RecordMapper
