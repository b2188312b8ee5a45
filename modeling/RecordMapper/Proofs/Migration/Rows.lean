import RecordMapper.Proofs.Engine.Table
import RecordMapper.Proofs.Migration.Settled
/-!
What a migration does to the rows. Changing the columns in place and copying the rows to a shadow
table leave the same data.
-/

namespace RecordMapper

open Text Engine Sql

theorem sublist_map_filterMap {α β γ : Type} {f : α → Option β} {g : β → γ} {h : α → γ}
    (hf : ∀ a b, f a = some b → g b = h a) (l : List α) :
    ((l.filterMap f).map g).Sublist (l.map h) := by
  induction l with
  | nil => exact .slnil
  | cons a l ih =>
    cases ha : f a with
    | none =>
      rw [List.filterMap_cons_none ha]
      exact ih.cons _
    | some b =>
      rw [List.filterMap_cons_some ha, List.map_cons, List.map_cons, hf a b ha]
      exact ih.cons_cons _

namespace Rename

variable {m : Mapping} {live : LiveTable} {renames : List Rename} {columns : List String}

theorem distinct_targets (hn : DistinctNames (m.columns.map Column.name)) :
    DistinctNames ((detect m live).map Rename.target) := by
  have hs : ((detect m live).map Rename.target).Sublist (m.columns.map Column.name) := by
    apply sublist_map_filterMap
    intro c r hr
    obtain ⟨_, hr⟩ := Option.ite_none_right_eq_some.1 hr
    obtain ⟨l, _, rfl⟩ := Option.map_eq_some_iff.1 hr
    rfl
  exact hn.sublist (hs.map lower)

theorem fresh_detect (hn : DistinctNames (m.columns.map Column.name)) :
    Fresh live (detect m live) where
  targets _ hr _ hr' h := (distinct_targets hn).eq hr hr' h
  free r hr := by
    obtain ⟨c, _, _, hl, ht, _⟩ := mem_detect hr
    rwa [ht]

/-- Renames that can be made one after the other over columns of these names. -/
structure Applicable (columns : List String) (renames : List Rename) : Prop where
  sources : DistinctNames (renames.map Rename.source)
  targets : DistinctNames (renames.map Rename.target)
  taken : ∀ r ∈ renames, ∃ c ∈ columns, lower c = lower r.source
  free : ∀ r ∈ renames, ∀ c ∈ columns, lower c ≠ lower r.target

/-- After the first rename the others can still be made. -/
theorem Applicable.tail {r : Rename} (h : Applicable columns (r :: renames)) :
    Applicable (columns.map fun c => if sameName r.source c then r.target else c) renames := by
  obtain ⟨hs, hsources⟩ := List.nodup_cons.1 h.sources
  obtain ⟨ht, htargets⟩ := List.nodup_cons.1 h.targets
  refine ⟨hsources, htargets, fun r' hr' => ?_, fun r' hr' => List.forall_mem_map.2 fun c hc => ?_⟩
  · obtain ⟨c, hc, he⟩ := h.taken r' (.tail _ hr')
    have hne : sameName r.source c = false := by
      rw [Bool.eq_false_iff, ne_eq, sameName_iff, he]
      intro hsame
      exact hs (hsame ▸ List.mem_map_of_mem (List.mem_map_of_mem hr'))
    exact ⟨c, List.mem_map.2 ⟨c, hc, by rw [hne]; rfl⟩, he⟩
  · split
    next =>
      intro hsame
      exact ht (hsame ▸ List.mem_map_of_mem (List.mem_map_of_mem hr'))
    next => exact h.free r' (.tail _ hr') c hc

theorem Clean.applicable (h : Clean live renames)
    (ht : DistinctNames (renames.map Rename.target)) :
    Applicable (live.columns.map LiveColumn.name) renames := by
  refine ⟨?_, ht, fun r hr => ?_, fun r hr c hc he => ?_⟩
  · rw [DistinctNames, List.map_map] at ht ⊢
    exact ht.of_map.map_on fun r hr r' hr' => h.sources r hr r' hr'
  · obtain ⟨l, hl, he⟩ := h.taken r hr
    exact ⟨l.name, List.mem_map_of_mem hl, he⟩
  · obtain ⟨l, hl, rfl⟩ := List.mem_map.1 hc
    exact h.free r hr ⟨l, hl, he⟩

/-- The name under which a copy reads what a column of this name holds. -/
def sourceName (renames : List Rename) (name : String) : String :=
  (previousName? renames name).getD name

theorem sourceName_congr {a b : String} (h : lower a = lower b) :
    lower (sourceName renames a) = lower (sourceName renames b) := by
  have hp : previousName? renames a = previousName? renames b := by
    simp only [previousName?, sameName, h]
  rw [sourceName, sourceName, hp]
  cases previousName? renames b with
  | none => exact h
  | some source => rfl

/-- The name before the renames is found again from the name after them. -/
theorem Fresh.sourceName_newName (h : Fresh live renames) {name : String}
    (hl : live.HasColumn name) :
    lower (sourceName renames (newName renames name)) = lower name := by
  rcases newName_cases renames name with ⟨_, he⟩ | ⟨r, hr, hs, he⟩
  · have hnone : previousName? renames name = none :=
      previousName_of_not_target fun r hr ht => h.free r hr (hl.congr ht.symm)
    rw [he, sourceName, hnone, Option.getD_none]
  · rw [he, sourceName, h.previousName_target hr rfl, Option.getD_some, hs]

theorem Fresh.distinct_rename (h : Fresh live renames)
    (hd : DistinctNames (live.columns.map LiveColumn.name)) :
    DistinctNames ((live.rename renames).columns.map LiveColumn.name) := by
  rw [DistinctNames, List.map_map] at hd
  rw [DistinctNames, LiveTable.rename, List.map_map, List.map_map]
  refine hd.of_map.map_on fun a ha b hb he => List.inj_on_of_nodup_map hd ha hb ?_
  calc lower a.name
      = lower (sourceName renames (newName renames a.name)) :=
        (h.sourceName_newName ⟨a, ha, rfl⟩).symm
    _ = lower (sourceName renames (newName renames b.name)) := sourceName_congr he
    _ = lower b.name := h.sourceName_newName ⟨b, hb, rfl⟩

end Rename

theorem LiveTable.names_rename (live : LiveTable) (renames : List Rename) :
    (live.rename renames).columns.map LiveColumn.name =
      (live.columns.map LiveColumn.name).map (Rename.newName renames) := by
  simp only [rename, List.map_map, Function.comp_def]

namespace Engine.Table

variable {α : Type}

/-- The table after its columns were renamed, added and dropped. -/
def changedInPlace (m : Mapping) (renamed : LiveTable) (renames : List Rename) (t : Table α) :
    Table α :=
  ((t.mapNames (Rename.newName renames)).addColumns
    ((m.addedColumns renamed).map Column.name)).keepColumns fun name =>
      !(m.droppedColumns renamed).any fun d => sameName name d.name

/-- The shadow table once the rows were copied to it. -/
def rebuilt (m : Mapping) (renamed : LiveTable) (renames : List Rename) (t : Table α) : Table α :=
  (empty (m.columns.map Column.name)).copyRows t
    ((m.copyColumns renamed renames).map fun c => (c.1.text, c.2.map Name.text))

end Engine.Table

namespace Engine.Store

variable {α : Type} {store : Store α} {table : String} {t : Table α}

theorem run_renames {renames : List Rename} (ht : store.table? table = some t)
    (h : Rename.Applicable t.columns renames) :
    store.run (renames.map fun r =>
        .renameColumn (.simple table) (.simple r.source) (.simple r.target)) =
      some (store.put table (some (t.mapNames (Rename.newName renames)))) := by
  induction renames generalizing store t with
  | nil =>
    have hid : Rename.newName [] = id := rfl
    rw [hid, Table.mapNames_id, ← ht, put_table?]
    rfl
  | cons r rs ih =>
    have hsource : t.hasColumn r.source = true := Table.hasColumn_iff.2 (h.taken r (.head _))
    have htarget : t.hasColumn r.target = false :=
      Table.hasColumn_eq_false.2 (h.free r (.head _))
    have hlater : ∀ r' ∈ rs, lower r.target ≠ lower r'.source := by
      intro r' hr' he
      obtain ⟨c, hc, hs⟩ := h.taken r' (.tail _ hr')
      exact h.free r (.head _) c hc (hs.trans he.symm)
    rw [List.map_cons, run_cons]
    simp only [exec, text_simple, ht, hsource, htarget, Option.bind_eq_bind, Option.bind_some,
      and_self, if_true]
    rw [ih (table?_put_self ..) h.tail, put_put, Table.mapNames_mapNames,
      Database.newName_cons hlater]

theorem run_adds {added : List Column} (ht : store.table? table = some t)
    (hd : DistinctNames (added.map Column.name))
    (hfree : ∀ c ∈ added, t.hasColumn c.name = false)
    (hlimit : ∀ c ∈ added, c.addLimitation? = none) :
    store.run (added.map fun c => .addColumn (.simple table) c.definition) =
      some (store.put table (some (t.addColumns (added.map Column.name)))) := by
  induction added generalizing store t with
  | nil =>
    rw [List.map_nil, List.map_nil, Table.addColumns_nil, ← ht, put_table?]
    rfl
  | cons c cs ih =>
    obtain ⟨hc, hcs⟩ := List.nodup_cons.1 hd
    have hfree' : ∀ d ∈ cs, (t.addColumns [c.name]).hasColumn d.name = false := by
      intro d hm
      have hne : lower c.name ≠ lower d.name := fun he =>
        hc (he ▸ List.mem_map_of_mem (List.mem_map_of_mem hm))
      have hno := Table.hasColumn_eq_false.1 (hfree d (.tail _ hm))
      rw [Table.hasColumn_eq_false, Table.addColumns, List.forall_mem_append]
      exact ⟨hno, List.forall_mem_singleton.2 hne⟩
    rw [List.map_cons, run_cons]
    simp only [exec, text_simple, ht, Column.name_definition, hfree c (.head _),
      Column.isAddable_definition.2 (hlimit c (.head _)), Option.bind_eq_bind, Option.bind_some,
      and_self, if_true]
    rw [ih (table?_put_self ..) hcs hfree' fun d hm => hlimit d (.tail _ hm), put_put,
      Table.addColumns_addColumns]
    rfl

/-- Columns can go as long as one of the table stays. -/
theorem run_drops {dropped : List LiveColumn} (ht : store.table? table = some t)
    (hd : DistinctNames (dropped.map LiveColumn.name))
    (hhas : ∀ d ∈ dropped, t.hasColumn d.name = true)
    (hstays : ∃ c ∈ t.columns, ∀ d ∈ dropped, lower c ≠ lower d.name) :
    store.run (dropped.map fun d => .dropColumn (.simple table) (.simple d.name)) =
      some (store.put table
        (some (t.keepColumns fun c => !dropped.any fun d => sameName c d.name))) := by
  induction dropped generalizing store t with
  | nil =>
    have hall : (fun c => !([] : List LiveColumn).any fun d => sameName c d.name) =
        fun _ => true := rfl
    rw [hall, Table.keepColumns_true, ← ht, put_table?]
    rfl
  | cons d ds ih =>
    obtain ⟨hnew, hds⟩ := List.nodup_cons.1 hd
    obtain ⟨c, hc, hne⟩ := hstays
    have hother : ∃ c ∈ t.columns, lower c ≠ lower d.name := ⟨c, hc, hne d (.head _)⟩
    have hhas' : ∀ e ∈ ds, (t.keepColumns fun c => !sameName c d.name).hasColumn e.name = true := by
      intro e he
      obtain ⟨n, hn, hs⟩ := Table.hasColumn_iff.1 (hhas e (.tail _ he))
      have hnd : lower n ≠ lower d.name := fun h =>
        hnew (h ▸ hs ▸ List.mem_map_of_mem (List.mem_map_of_mem he))
      exact Table.hasColumn_iff.2 ⟨n, List.mem_filter.2 ⟨hn, by simpa [sameName] using hnd⟩, hs⟩
    have hstays' : ∃ c ∈ (t.keepColumns fun c => !sameName c d.name).columns,
        ∀ e ∈ ds, lower c ≠ lower e.name := by
      have hcd := hne d (.head _)
      exact ⟨c, List.mem_filter.2 ⟨hc, by simpa [sameName] using hcd⟩,
        fun e he => hne e (.tail _ he)⟩
    rw [List.map_cons, run_cons]
    simp only [exec, text_simple, ht, hhas d (.head _), hother, Option.bind_eq_bind,
      Option.bind_some, and_self, if_true]
    rw [ih (table?_put_self ..) hds hhas' hstays', put_put, Table.keepColumns_keepColumns]
    simp only [List.any_cons, Bool.not_or, Bool.and_comm]

theorem exec_createTable {name : String} {m : Mapping} {ifNotExists : Bool}
    (hfree : store.table? name = none) (hv : m.Valid) :
    store.exec (.createTable (.simple name) m.definitions ifNotExists) =
      some (store.put name (some (.empty (m.columns.map Column.name)))) := by
  rw [exec, text_simple, hfree, ← m.names_definitions]
  exact if_pos ⟨hv.definitions_ne_nil, m.names_definitions ▸ hv.names⟩

theorem exec_copyTable {source target : String} {s : Table α}
    {columns : List (Name × Option Name)} (hs : store.table? source = some s)
    (ht : store.table? target = some t)
    (hc : ∀ c ∈ columns, t.hasColumn c.1.text ∧ ∀ column ∈ c.2, s.hasColumn column.text) :
    store.exec (.copyTable (.simple source) (.simple target) columns) =
      some (store.put target
        (some (t.copyRows s (columns.map fun c => (c.1.text, c.2.map Name.text))))) := by
  rw [exec, text_simple, text_simple, hs, ht]
  exact if_pos hc

theorem exec_dropTable {name : String} {ifExists : Bool} (ht : store.table? name = some t) :
    store.exec (.dropTable (.simple name) ifExists) = some (store.put name none) := by
  rw [exec, text_simple, ht]

theorem exec_renameTable {source target : String} (ht : store.table? source = some t)
    (hfree : store.table? target = none) :
    store.exec (.renameTable (.simple source) (.simple target)) =
      some ((store.put source none).put target (some t)) := by
  rw [exec, text_simple, text_simple, ht, hfree]
  rfl

/-- A rebuild needs a free name for the shadow table, and only replaces the table. -/
theorem run_rebuild {m : Mapping} {capability : Capability} {renamed : LiveTable}
    {renames : List Rename} (hv : m.Valid) (ht : store.table? m.table = some t)
    (hsource : ∀ c ∈ m.copyColumns renamed renames, ∀ s ∈ c.2, t.hasColumn s.text = true) :
    store.run (m.rebuildStatements capability renamed renames) =
      if (store.table? (m.table ++ capability.shadowSuffix)).isSome then none
      else some (store.put m.table (some (t.rebuilt m renamed renames))) := by
  generalize hshadow : m.table ++ capability.shadowSuffix = shadow
  have hpragma (store : Store α) (value : Option String) :
      store.exec (.pragma "foreign_keys" value) = some store := rfl
  simp only [Mapping.rebuildStatements, hshadow, run_cons, hpragma, Option.bind_some]
  cases hs : store.table? shadow with
  | some u => simp only [exec, text_simple, hs, Option.isSome_some, if_true, Option.bind_none,
      Bool.false_eq_true, if_false]
  | none =>
    have hne : lower m.table ≠ lower shadow := by
      intro he
      rw [table?, he, ← table?, hs] at ht
      cases ht
    have hcopy : ∀ c ∈ m.copyColumns renamed renames,
        (Table.empty (m.columns.map Column.name) : Table α).hasColumn c.1.text = true ∧
          ∀ s ∈ c.2, t.hasColumn s.text = true := by
      intro c hc
      refine ⟨?_, hsource c hc⟩
      obtain ⟨d, hd, rfl⟩ := List.mem_map.1 hc
      rw [text_simple]
      exact Table.hasColumn_iff.2 ⟨d.name, List.mem_map_of_mem hd, rfl⟩
    have htable (u : Option (Table α)) : (store.put shadow u).table? m.table = some t := by
      rw [table?_put, if_neg hne, ht]
    have hshadowed (u : Option (Table α)) :
        ((store.put shadow u).put m.table none).table? shadow = u := by
      rw [table?_put, if_neg hne.symm, table?_put_self]
    have hgone (u : Option (Table α)) :
        ((store.put shadow u).put m.table none).put shadow none = store.put m.table none := by
      rw [put_comm _ hne, put_put, ← hs, put_table?]
    rw [exec_createTable hs hv, Option.bind_some,
      exec_copyTable (htable _) (table?_put_self ..) hcopy, Option.bind_some, put_put,
      exec_dropTable (htable _), Option.bind_some,
      exec_renameTable (hshadowed _) (table?_put_self ..), Option.bind_some, run_nil, hgone,
      put_put]
    rfl

end Engine.Store

/-! ### Contents -/

namespace Engine.Table

variable {α : Type}

/-- A table with the columns of a mapping. Each row holds in a column what the row of `t` held in
it once the renames were made, or null where it had no such column. -/
structure Carries (m : Mapping) (renames : List Rename) (t t' : Table α) : Prop where
  columns : ∀ name, t'.hasColumn name = (m.columnByName? name).isSome
  rows : List.Forall₂ (fun row row' => ∀ c ∈ m.columns,
    row'.cell? c.name = some ((row.mapNames (Rename.newName renames)).cell? c.name).join)
      t.rows t'.rows

/-- Tables with the same columns, in any order, and row by row the same cells. -/
structure SameData (t u : Table α) : Prop where
  columns : ∀ name, t.hasColumn name = u.hasColumn name
  rows : List.Forall₂ (fun row row' => ∀ name, row.cell? name = row'.cell? name) t.rows u.rows

theorem cell?_eq_none {t : Table α} {row : Row α} (hr : row ∈ t.rows) {name : String} :
    row.cell? name = none ↔ t.hasColumn name = false := by
  rw [hasColumn_eq_false, Row.cell?_eq_none, t.wide row hr]

/-- Two tables that carry the same rows are the same up to the order of their columns. -/
theorem Carries.sameData {m : Mapping} {renames : List Rename} {t u v : Table α}
    (hu : Carries m renames t u) (hv : Carries m renames t v) : u.SameData v := by
  have hcolumns (name : String) : u.hasColumn name = v.hasColumn name := by
    rw [hu.columns, hv.columns]
  obtain ⟨hul, hur⟩ := List.forall₂_iff_get.1 hu.rows
  obtain ⟨hvl, hvr⟩ := List.forall₂_iff_get.1 hv.rows
  refine ⟨hcolumns, List.forall₂_iff_get.2 ⟨hul.symm.trans hvl, fun i hi hi' name => ?_⟩⟩
  cases hc : m.columnByName? name with
  | none =>
    have hno : u.hasColumn name = false := by rw [hu.columns, hc, Option.isSome_none]
    rw [(cell?_eq_none (List.get_mem ..)).2 hno,
      (cell?_eq_none (List.get_mem ..)).2 ((hcolumns name).symm.trans hno)]
  | some c =>
    obtain ⟨hm, hn⟩ := Mapping.columnByName?_eq_some hc
    have hi₀ : i < t.rows.length := hul ▸ hi
    rw [← Row.cell?_congr hn, ← Row.cell?_congr hn, hur i hi₀ hi c hm, hvr i hi₀ hi' c hm]

end Engine.Table

section

variable {α : Type} {m : Mapping} {live : LiveTable} {renames : List Rename} {t : Table α}

/-- The column that the copy of a row reads for a declared column is the one that the renames give
its name. -/
theorem cell?_source (hfresh : Rename.Fresh live renames) {row : Row α}
    (hrow : row.map Prod.fst = live.columns.map LiveColumn.name)
    (hd : DistinctNames (row.map Prod.fst)) (name : String) :
    (((live.rename renames).column? name).bind fun l =>
        (row.cell? (Rename.sourceName renames l.name)).join) =
      ((row.mapNames (Rename.newName renames)).cell? name).join := by
  have hcell : (row.mapNames (Rename.newName renames)).cell? name =
      (row.find? fun cell => sameName (Rename.newName renames cell.1) name).map Prod.snd := by
    rw [Row.cell?, Row.mapNames, List.find?_map, Option.map_map]
    rfl
  have hlive : (live.rename renames).column? name =
      (live.columns.find? fun l => sameName (Rename.newName renames l.name) name).map fun l =>
        { l with name := Rename.newName renames l.name } := by
    rw [LiveTable.column?, LiveTable.rename, List.find?_map]
    rfl
  -- row and snapshot list the same names, so both searches stop at the same one
  have hsame : (row.find? fun cell => sameName (Rename.newName renames cell.1) name).map Prod.fst =
      (live.columns.find? fun l => sameName (Rename.newName renames l.name) name).map
        LiveColumn.name := by
    have hfind := congrArg (List.find? fun n => sameName (Rename.newName renames n) name) hrow
    rwa [List.find?_map, List.find?_map] at hfind
  rw [hcell, hlive]
  cases hl : live.columns.find? fun l => sameName (Rename.newName renames l.name) name with
  | none =>
    rw [hl, Option.map_none, Option.map_eq_none_iff] at hsame
    rw [hsame]
    rfl
  | some l =>
    rw [hl, Option.map_some, Option.map_eq_some_iff] at hsame
    obtain ⟨cell, hc, hn⟩ := hsame
    have hsource := hfresh.sourceName_newName ⟨l, List.mem_of_find?_eq_some hl, rfl⟩
    rw [hc, Option.map_some, Option.map_some, Option.bind_some,
      Row.cell?_of_mem hd (List.mem_of_find?_eq_some hc) (by rw [hn, hsource])]

variable (hv : m.Valid) (hl : live.columns.map LiveColumn.name = t.columns)

include hl in
theorem names_renamed : (live.rename renames).columns.map LiveColumn.name =
    t.columns.map (Rename.newName renames) := by
  rw [live.names_rename, hl]

include hl in
theorem mem_addedNames {c : Column} (hc : c ∈ m.columns)
    (hno : ∀ n ∈ t.columns.map (Rename.newName renames), lower n ≠ lower c.name) :
    c.name ∈ (m.addedColumns (live.rename renames)).map Column.name :=
  List.mem_map_of_mem (Mapping.mem_addedColumns.2 ⟨hc, names_renamed hl ▸ hno⟩)

include hl in
/-- A declared column is there before columns are dropped. -/
theorem exists_declared {c : Column} (hc : c ∈ m.columns) :
    ∃ n ∈ ((t.mapNames (Rename.newName renames)).addColumns
      ((m.addedColumns (live.rename renames)).map Column.name)).columns,
        lower n = lower c.name := by
  by_cases hno : ∀ n ∈ t.columns.map (Rename.newName renames), lower n ≠ lower c.name
  · exact ⟨c.name, List.mem_append_right _ (mem_addedNames hl hc hno), rfl⟩
  · simp only [ne_eq, not_forall, not_not] at hno
    obtain ⟨n, hn, hs⟩ := hno
    exact ⟨n, List.mem_append_left _ hn, hs⟩

include hv hl

theorem carries_changedInPlace :
    t.Carries m renames (t.changedInPlace m (live.rename renames) renames) := by
  have hkept {c : Column} (hc : c ∈ m.columns) {name : String} (hn : lower name = lower c.name) :
      (!(m.droppedColumns (live.rename renames)).any fun d => sameName name d.name) = true := by
    rw [hv.not_dropped hc hn, Bool.not_false]
  constructor
  · intro name
    rw [Bool.eq_iff_iff, Table.hasColumn_iff, Option.isSome_iff_exists]
    constructor
    · rintro ⟨n, hn, he⟩
      obtain ⟨hn, hk⟩ := List.mem_filter.1 hn
      rw [← Option.isSome_iff_exists, ← Mapping.columnByName?_congr he, Option.isSome_iff_ne_none]
      intro hnone
      rcases List.mem_append.1 hn with hn | hn
      · have hlive : n ∈ (live.rename renames).columns.map LiveColumn.name := by
          rwa [names_renamed hl]
        rw [Mapping.any_droppedColumns.2 ⟨hnone, n, hlive, rfl⟩] at hk
        cases hk
      · obtain ⟨c, hc, rfl⟩ := List.mem_map.1 hn
        rw [hv.columnByName (Mapping.mem_addedColumns.1 hc).1 rfl] at hnone
        cases hnone
    · rintro ⟨c, hc⟩
      obtain ⟨hc, he⟩ := Mapping.columnByName?_eq_some hc
      obtain ⟨n, hn, hs⟩ := exists_declared hl hc
      exact ⟨n, List.mem_filter.2 ⟨hn, hkept hc hs⟩, hs.trans he⟩
  · simp only [Table.changedInPlace, Table.keepColumns, Table.addColumns, Table.mapNames,
      List.map_map,
      List.forall₂_map_right_iff, List.forall₂_same]
    intro row hr c hc
    have hnames : (row.mapNames (Rename.newName renames)).map Prod.fst =
        t.columns.map (Rename.newName renames) := by
      rw [← t.wide row hr, Row.mapNames, List.map_map, List.map_map]
      rfl
    rw [Function.comp_apply, Function.comp_apply, Row.cell?_keep fun n hn => hkept hc hn,
      Row.cell?_append]
    cases hcell : (row.mapNames (Rename.newName renames)).cell? c.name with
    | some v => rfl
    | none =>
      rw [Row.cell?_eq_none, hnames] at hcell
      rw [Option.none_or, Row.cell?_nulls (mem_addedNames hl hc hcell)]
      rfl

theorem carries_rebuilt_of_fresh (hfresh : Rename.Fresh live renames)
    (hd : DistinctNames t.columns) :
    t.Carries m renames (t.rebuilt m (live.rename renames) renames) := by
  constructor
  · intro name
    rw [Bool.eq_iff_iff, Table.hasColumn_iff, Option.isSome_iff_exists]
    constructor
    · rintro ⟨n, hn, he⟩
      obtain ⟨c, hc, rfl⟩ := List.mem_map.1 hn
      exact ⟨c, hv.columnByName hc he⟩
    · rintro ⟨c, hc⟩
      obtain ⟨hc, he⟩ := Mapping.columnByName?_eq_some hc
      exact ⟨c.name, List.mem_map_of_mem hc, he⟩
  · simp only [Table.rebuilt, Table.copyRows, Table.empty, List.nil_append,
      List.forall₂_map_right_iff, List.forall₂_same]
    intro row hr c hc
    have hrow := t.wide row hr
    have hselect : row.select ((m.copyColumns (live.rename renames) renames).map fun c =>
        (c.1.text, c.2.map Name.text)) =
          m.columns.map fun c => (c.name, ((live.rename renames).column? c.name).bind fun l =>
            (row.cell? (Rename.sourceName renames l.name)).join) := by
      simp [Row.select, Mapping.copyColumns, Rename.sourceName, Function.comp_def, Option.bind_map]
    have hdistinct : DistinctNames ((m.columns.map fun c =>
        (c.name, ((live.rename renames).column? c.name).bind fun l =>
          (row.cell? (Rename.sourceName renames l.name)).join)).map Prod.fst) := by
      rw [List.map_map]
      exact hv.names
    have hcell := Row.cell?_of_mem hdistinct (List.mem_map_of_mem hc) rfl
    rw [Row.cell?_filled (List.mem_map_of_mem hc), hselect, hcell,
      cell?_source hfresh (hrow.trans hl.symm) (hrow.symm ▸ hd)]
    rfl

variable {store : Store α} (ht : store.table? m.table = some t)

include ht in
theorem run_rebuildStatements_of_fresh (hfresh : Rename.Fresh live renames)
    (capability : Capability) :
    store.run (m.rebuildStatements capability (live.rename renames) renames) =
      if (store.table? (m.table ++ capability.shadowSuffix)).isSome then none
      else some (store.put m.table (some (t.rebuilt m (live.rename renames) renames))) := by
  apply Store.run_rebuild hv ht
  intro c hc s hs
  obtain ⟨d, _, rfl⟩ := List.mem_map.1 hc
  obtain ⟨l, hlive, rfl⟩ := Option.map_eq_some_iff.1 hs
  obtain ⟨hlm, _⟩ := LiveTable.column?_eq_some hlive
  obtain ⟨l₀, hm₀, rfl⟩ := List.mem_map.1 hlm
  rw [text_simple, Table.hasColumn_iff]
  exact ⟨l₀.name, hl ▸ List.mem_map_of_mem hm₀,
    (hfresh.sourceName_newName ⟨l₀, hm₀, rfl⟩).symm⟩

theorem carries_rebuilt (hclean : Rename.Clean live renames) (hd : DistinctNames t.columns) :
    t.Carries m renames (t.rebuilt m (live.rename renames) renames) :=
  carries_rebuilt_of_fresh hv hl hclean.fresh hd

variable (hclean : Rename.Clean live renames) (hd : DistinctNames t.columns)

include ht hclean hd

theorem run_inPlaceStatements (htargets : DistinctNames (renames.map Rename.target))
    (hadd : ∀ c ∈ m.addedColumns (live.rename renames), c.addLimitation? = none) :
    store.run (m.inPlaceStatements (live.rename renames) renames) =
      some (store.put m.table (some (t.changedInPlace m (live.rename renames) renames))) := by
  have happlicable : Rename.Applicable t.columns renames := hl ▸ hclean.applicable htargets
  have hadded : DistinctNames ((m.addedColumns (live.rename renames)).map Column.name) :=
    hv.names.sublist ((List.filter_sublist.map _).map _)
  have hfree : ∀ c ∈ m.addedColumns (live.rename renames),
      (t.mapNames (Rename.newName renames)).hasColumn c.name = false := by
    intro c hc
    have hno := (Mapping.mem_addedColumns.1 hc).2
    rw [names_renamed hl] at hno
    exact Table.hasColumn_eq_false.2 hno
  have hdropped : DistinctNames ((m.droppedColumns (live.rename renames)).map LiveColumn.name) :=
    (hclean.fresh.distinct_rename (hl ▸ hd)).sublist ((List.filter_sublist.map _).map _)
  have hhas : ∀ d ∈ m.droppedColumns (live.rename renames),
      ((t.mapNames (Rename.newName renames)).addColumns
        ((m.addedColumns (live.rename renames)).map Column.name)).hasColumn d.name = true := by
    intro d hm
    have hn : d.name ∈ t.columns.map (Rename.newName renames) :=
      names_renamed hl ▸ List.mem_map_of_mem (List.mem_of_mem_filter hm)
    exact Table.hasColumn_iff.2 ⟨d.name, List.mem_append_left _ hn, rfl⟩
  obtain ⟨key, keys, hkey⟩ := List.exists_cons_of_ne_nil hv.columns_ne_nil
  have hkeym : key ∈ m.columns := hkey ▸ List.mem_cons_self
  obtain ⟨n, hn, hs⟩ := exists_declared hl hkeym
  have hstays : ∀ d ∈ m.droppedColumns (live.rename renames), lower n ≠ lower d.name := by
    intro d hm he
    have hno : ((m.droppedColumns (live.rename renames)).any fun d => sameName n d.name) = false :=
      hv.not_dropped hkeym hs
    rw [List.any_eq_false] at hno
    exact hno d hm (sameName_iff.2 he)
  rw [Mapping.inPlaceStatements, Store.run_append, Store.run_append,
    Store.run_renames ht happlicable, Option.bind_some,
    Store.run_adds (Store.table?_put_self ..) hadded hfree hadd, Option.bind_some,
    Store.run_drops (Store.table?_put_self ..) hdropped hhas ⟨n, hn, hstays⟩, Store.put_put,
    Store.put_put]
  rfl

omit hd in
theorem run_rebuildStatements (capability : Capability) :
    store.run (m.rebuildStatements capability (live.rename renames) renames) =
      if (store.table? (m.table ++ capability.shadowSuffix)).isSome then none
      else some (store.put m.table (some (t.rebuilt m (live.rename renames) renames))) :=
  run_rebuildStatements_of_fresh hv hl ht hclean.fresh capability

end

/-- When no column is changed, the columns can be renamed, added and dropped in place or the table
be rebuilt, which needs a free name for the shadow table. Either way only the table is replaced, and
the two tables hold the same data. -/
theorem inPlace_rebuild_sameData {α : Type} {d : Declaration} {m : Mapping} (hm : d.build = .ok m)
    (hf : DistinctNames (m.columns.map Column.field)) {store : Store α} {t : Table α}
    (ht : store.table? m.table = some t) (hd : DistinctNames t.columns) {live : LiveTable}
    (hl : live.columns.map LiveColumn.name = t.columns) {renames : List Rename}
    (hr : renames = Rename.detect m live)
    (hchange : m.firstChange? (live.rename renames) renames = none)
    (hadd : ∀ c ∈ m.addedColumns (live.rename renames), c.addLimitation? = none)
    {able limited : Capability} (ha : able.renameColumn = true ∧ able.dropColumn = true)
    (hb : m.needsRebuild limited (live.rename renames) renames = true) :
    ∃ u v : Table α,
      store.run (m.columnStatements able live (live.rename renames) renames) =
          some (store.put m.table (some u)) ∧
        store.run (m.columnStatements limited live (live.rename renames) renames) =
          (if (store.table? (m.table ++ limited.shadowSuffix)).isSome then none
          else some (store.put m.table (some v))) ∧
        t.Carries m renames u ∧ t.Carries m renames v ∧ u.SameData v := by
  have hv := Mapping.valid_of_build hm
  have hclean : Rename.Clean live renames := hr ▸ Rename.clean_detect hv.names hf
  have htargets : DistinctNames (renames.map Rename.target) := hr ▸ Rename.distinct_targets hv.names
  have hstays : m.needsRebuild able (live.rename renames) renames = false := by
    simp [Mapping.needsRebuild, hchange, ha.1, ha.2]
  -- the key cannot be added, so the table has it
  have hsome : live.columns.isEmpty = false := by
    rw [Bool.eq_false_iff, ne_eq, List.isEmpty_iff]
    intro hempty
    obtain ⟨key, hkey, _⟩ := hv.key
    obtain ⟨hkm, hk⟩ := List.mem_filter.1 (hkey ▸ List.mem_singleton_self key)
    have hlimit := hadd key (Mapping.mem_addedColumns.2 ⟨hkm, by simp [LiveTable.rename, hempty]⟩)
    simp [Column.addLimitation?, hk] at hlimit
  have hu : t.Carries m renames _ := carries_changedInPlace hv hl
  have hw := carries_rebuilt hv hl hclean hd
  refine ⟨_, _, ?_, ?_, hu, hw, hu.sameData hw⟩
  · rw [Mapping.columnStatements, hstays, hsome]
    exact run_inPlaceStatements hv hl ht hclean hd htargets hadd
  · rw [Mapping.columnStatements, hb]
    exact run_rebuildStatements hv hl ht hclean limited

/-- People whose name became a full name, while another field takes over the column name. -/
def people : Declaration where
  name := "people"
  columns := [
    { field := "id", storage := .integer, primaryKey := true },
    { field := "name", name := "full_name", storage := .text, nullable := true },
    { field := "nick", name := "name", storage := .text, nullable := true },
    { field := "city", storage := .text, nullable := true }]

def earlierPeople : LiveTable where
  columns := [
    { name := "id", declaredType := "INTEGER", keyPosition := 1 },
    { name := "Name", declaredType := "TEXT" },
    { name := "CITY", declaredType := "TEXT" },
    { name := "age", declaredType := "INTEGER" }]

def earlierPeopleRows : Table Nat where
  columns := ["id", "Name", "CITY", "age"]
  rows := [
    [("id", some 1), ("Name", some 10), ("CITY", none), ("age", some 36)],
    [("id", some 2), ("Name", some 11), ("CITY", some 20), ("age", none)]]
  wide := by decide

/-- The source of a rename is the declared name of another column, which is added. -/
theorem inPlace_rebuild_sameData_people :
    let m := people.assemble
    let store : Store Nat := Store.empty.put "people" (some earlierPeopleRows)
    let renames := Rename.detect m earlierPeople
    let renamed := earlierPeople.rename renames
    ∃ u v : Table Nat, renames = [⟨"Name", "full_name"⟩] ∧
      store.run (m.columnStatements .full earlierPeople renamed renames) =
        some (store.put "people" (some u)) ∧
      store.run (m.columnStatements .addOnly earlierPeople renamed renames) =
        some (store.put "people" (some v)) ∧
      u.SameData v := by
  intro m store renames renamed
  have hm : people.build = .ok m := rfl
  have hf : DistinctNames (m.columns.map Column.field) := by decide +kernel
  have ht : store.table? m.table = some earlierPeopleRows := Store.table?_put_self ..
  have hd : DistinctNames earlierPeopleRows.columns := by decide +kernel
  have hchange : m.firstChange? renamed renames = none := by decide +kernel
  have hadd : ∀ c ∈ m.addedColumns renamed, c.addLimitation? = none := by decide +kernel
  have hb : m.needsRebuild .addOnly renamed renames = true := by decide +kernel
  have hfree : (store.table? (m.table ++ Capability.addOnly.shadowSuffix)).isSome = false := by
    decide +kernel
  have hfull : Capability.full.renameColumn = true ∧ Capability.full.dropColumn = true :=
    ⟨rfl, rfl⟩
  obtain ⟨u, v, hu, hw, _, _, hsame⟩ :=
    inPlace_rebuild_sameData hm hf ht hd rfl rfl hchange hadd hfull hb
  rw [hfree] at hw
  exact ⟨u, v, by decide +kernel, hu, hw, hsame⟩

end RecordMapper
