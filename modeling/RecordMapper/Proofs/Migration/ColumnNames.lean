import Mathlib.Data.Finset.Basic
import Mathlib.Data.Finset.Lattice.Lemmas
import Mathlib.Data.Finset.SDiff
import RecordMapper.Proofs.Migration.Idempotence
import RecordMapper.Proofs.Migration.Rows
/-!
The names of a table's columns through a script in place. Every statement finds the names it needs,
and the declared ones are left, as long as no live column is taken over by two declared ones.
-/

namespace RecordMapper

open Text Engine

variable {m : Mapping} {live : LiveTable} {catalog : Catalog} {capability : Capability}

/-- No two declared columns take over one live column. -/
def Mapping.Uncontested (m : Mapping) (live : LiveTable) : Prop :=
  ∀ c ∈ m.columns, ∀ d ∈ m.columns,
    c.TakesOver live → d.TakesOver live → lower c.field = lower d.field → c = d

instance (m : Mapping) (live : LiveTable) : Decidable (m.Uncontested live) :=
  inferInstanceAs (Decidable (∀ c ∈ m.columns, ∀ d ∈ m.columns,
    c.TakesOver live → d.TakesOver live → lower c.field = lower d.field → c = d))

/-- What holds of each creation and each drop of an index holds of all index work. -/
theorem forall_mem_indexStatements {p : Statement → Prop} {table : String}
    {desired : List DesiredIndex} {survivors : List LiveIndex}
    (hcreate : ∀ d : DesiredIndex,
      p (.createIndex (.simple d.name) (.simple d.table) [.simple d.column] false true))
    (hdrop : ∀ i : LiveIndex, p (.dropIndex (.simple i.name) true)) :
    ∀ s ∈ indexStatements table desired survivors, p s := by
  intro s hs
  rcases List.mem_append.1 hs with hs | hs
  · obtain ⟨d, _, rfl⟩ := List.mem_map.1 hs
    exact hcreate d
  · obtain ⟨i, _, rfl⟩ := List.mem_map.1 hs
    exact hdrop i

namespace Rename

theorem distinct_sources_iff (hn : DistinctNames (m.columns.map Column.name)) :
    DistinctNames ((detect m live).map Rename.source) ↔ m.Uncontested live := by
  constructor
  · intro hd c hc d hdm hct hdt he
    obtain ⟨r, hr, ht, hs⟩ := exists_detect hc hct
    obtain ⟨r', hr', ht', hs'⟩ := exists_detect hdm hdt
    have hrr : r = r' := hd.eq hr hr' (by rw [hs, hs', he])
    exact hn.eq hc hdm (by rw [← ht, ← ht', hrr])
  · intro h
    have hnodup : (detect m live).Nodup := by
      have ht : DistinctNames ((detect m live).map Rename.target) := distinct_targets hn
      rw [DistinctNames, List.map_map] at ht
      exact ht.of_map
    rw [DistinctNames, List.map_map]
    refine hnodup.map_on fun r hr r' hr' he => ?_
    obtain ⟨c, hc, hi, hno, ht, hs, hl⟩ := mem_detect hr
    obtain ⟨d, hd, hi', hno', ht', hs', hl'⟩ := mem_detect hr'
    have hcd : c = d := h c hc d hd ⟨hi, hno, hl.congr hs⟩ ⟨hi', hno', hl'.congr hs'⟩
      (hs.symm.trans (he.trans hs'))
    exact (distinct_targets hn).eq hr hr' (by rw [ht, ht', hcd])

theorem clean_of_uncontested (hn : DistinctNames (m.columns.map Column.name))
    (h : m.Uncontested live) : Clean live (detect m live) where
  sources _ hr _ hr' he := ((distinct_sources_iff hn).2 h).eq hr hr' he
  targets := (fresh_detect hn).targets
  taken r hr := by
    obtain ⟨_, _, _, _, _, _, hl⟩ := mem_detect hr
    exact hl
  free := (fresh_detect hn).free

end Rename

namespace Engine.ColumnNames

/-- The names without the case of their letters. -/
def ofList (names : List String) : Finset String := (names.map lower).toFinset

theorem mem_ofList {names : List String} {n : String} :
    n ∈ ofList names ↔ ∃ a ∈ names, lower a = n := by
  simp [ofList]

theorem mem_ofList_map {β : Type} {f : β → String} {l : List β} {n : String} :
    n ∈ ofList (l.map f) ↔ ∃ a ∈ l, lower (f a) = n := by
  simp [ofList]

theorem ofList_cons (a : String) (names : List String) :
    ofList (a :: names) = insert (lower a) (ofList names) := by
  rw [ofList, List.map_cons, List.toFinset_cons, ofList]

/-- The names of the table's columns after a statement, unless it is about a column that is not
there, gives a name that is taken, or is about something else than the table's columns or an
index. -/
def exec (table : String) (names : Finset String) : Statement → Option (Finset String)
  | .renameColumn t source target =>
    if lower t.text = lower table ∧ lower source.text ∈ names ∧ lower target.text ∉ names then
      some (insert (lower target.text) (names.erase (lower source.text)))
    else none
  | .addColumn t d =>
    if lower t.text = lower table ∧ lower d.name ∉ names then some (insert (lower d.name) names)
    else none
  | .dropColumn t column =>
    if lower t.text = lower table ∧ lower column.text ∈ names then
      some (names.erase (lower column.text))
    else none
  | .createIndex .. | .dropIndex .. => some names
  | _ => none

def run (table : String) (names : Finset String) (script : List Statement) :
    Option (Finset String) :=
  script.foldlM (exec table) names

variable {table : String} {names : Finset String}

theorem run_cons (s : Statement) (script : List Statement) :
    run table names (s :: script) = (exec table names s).bind (run table · script) := rfl

theorem run_append (a b : List Statement) :
    run table names (a ++ b) = (run table names a).bind (run table · b) := by
  simp only [run, List.foldlM_append]
  rfl

/-- The first of some renames makes no difference to whether the sources of the others are there,
but for its own source. -/
theorem sources_cons_iff {r : Rename} {rs : List Rename} (hs : lower r.source ∈ names)
    (hne : ∀ r' ∈ rs, lower r.target ≠ lower r'.source) :
    (DistinctNames (rs.map Rename.source) ∧ ∀ r' ∈ rs,
        lower r'.source ∈ insert (lower r.target) (names.erase (lower r.source))) ↔
      DistinctNames ((r :: rs).map Rename.source) ∧ ∀ r' ∈ r :: rs, lower r'.source ∈ names := by
  have hsource (r' : Rename) (hr' : r' ∈ rs) :
      lower r'.source ∈ insert (lower r.target) (names.erase (lower r.source)) ↔
        lower r'.source ≠ lower r.source ∧ lower r'.source ∈ names := by
    have hn := (hne r' hr').symm
    simp [hn]
  have hnew : lower r.source ∉ (rs.map Rename.source).map lower ↔
      ∀ r' ∈ rs, lower r'.source ≠ lower r.source := by
    simp
  rw [forall₂_congr hsource, List.forall_mem_cons, List.map_cons, DistinctNames,
    DistinctNames, List.map_cons, List.nodup_cons, hnew]
  simp only [hs, true_and, forall_and]
  rw [← and_assoc, and_comm (a := List.Nodup _)]

/-- Renames to free names can be made exactly when each starts from a column of its own. -/
theorem run_renames {renames : List Rename} (ht : DistinctNames (renames.map Rename.target))
    (hfree : ∀ r ∈ renames, lower r.target ∉ names)
    (hne : ∀ r ∈ renames, ∀ r' ∈ renames, lower r.target ≠ lower r'.source) :
    run table names (renames.map fun r =>
        .renameColumn (.simple table) (.simple r.source) (.simple r.target)) =
      if DistinctNames (renames.map Rename.source) ∧ ∀ r ∈ renames, lower r.source ∈ names then
        some (names \ ofList (renames.map Rename.source) ∪ ofList (renames.map Rename.target))
      else none := by
  induction renames generalizing names with
  | nil => simp [run, DistinctNames, ofList]
  | cons r rs ih =>
    obtain ⟨htr, hts⟩ := List.nodup_cons.1 ht
    have hrt : lower r.target ∉ names := hfree r (.head _)
    rw [List.map_cons, run_cons, exec]
    simp only [text_simple, hrt, true_and, not_false_eq_true, and_true]
    by_cases hs : lower r.source ∈ names
    · have hlater : ∀ r' ∈ rs,
          lower r'.target ∉ insert (lower r.target) (names.erase (lower r.source)) := by
        intro r' hr'
        have hn : lower r'.target ≠ lower r.target := fun he =>
          htr (he ▸ List.mem_map_of_mem (List.mem_map_of_mem hr'))
        have hf : lower r'.target ∉ names := hfree r' (.tail _ hr')
        simp [hn, hf]
      have hcond := sources_cons_iff hs fun r' hr' => hne r (.head _) r' (.tail _ hr')
      have htarget : lower r.target ∉ ofList (rs.map Rename.source) := by
        rw [mem_ofList_map]
        rintro ⟨r', hr', he⟩
        exact hne r (.head _) r' (.tail _ hr') he.symm
      rw [if_pos hs, Option.bind_some,
        ih hts hlater fun a ha b hb => hne a (.tail _ ha) b (.tail _ hb)]
      refine if_congr hcond (congrArg some ?_) rfl
      rw [List.map_cons, List.map_cons, ofList_cons, ofList_cons, Finset.sdiff_insert,
        Finset.insert_sdiff_of_notMem _ htarget, Finset.erase_sdiff_comm, Finset.insert_union_comm]
    · rw [if_neg hs, Option.bind_none, if_neg fun h => hs (h.2 r (.head _))]

theorem run_adds {added : List Column} (hd : DistinctNames (added.map Column.name))
    (hfree : ∀ c ∈ added, lower c.name ∉ names) :
    run table names (added.map fun c => .addColumn (.simple table) c.definition) =
      some (names ∪ ofList (added.map Column.name)) := by
  induction added generalizing names with
  | nil => simp [run, ofList]
  | cons c cs ih =>
    obtain ⟨hc, hcs⟩ := List.nodup_cons.1 hd
    have hlater : ∀ d ∈ cs, lower d.name ∉ insert (lower c.name) names := by
      intro d hm
      have hn : lower d.name ≠ lower c.name := fun he =>
        hc (he ▸ List.mem_map_of_mem (List.mem_map_of_mem hm))
      have hf : lower d.name ∉ names := hfree d (.tail _ hm)
      simp [hn, hf]
    rw [List.map_cons, run_cons, exec, if_pos ⟨rfl, hfree c (.head _)⟩, Option.bind_some,
      Column.name_definition, ih hcs hlater, List.map_cons, ofList_cons, Finset.insert_union_comm]

theorem run_drops {dropped : List LiveColumn} (hd : DistinctNames (dropped.map LiveColumn.name))
    (hhas : ∀ d ∈ dropped, lower d.name ∈ names) :
    run table names (dropped.map fun d => .dropColumn (.simple table) (.simple d.name)) =
      some (names \ ofList (dropped.map LiveColumn.name)) := by
  induction dropped generalizing names with
  | nil => simp [run, ofList]
  | cons d ds ih =>
    obtain ⟨hnew, hds⟩ := List.nodup_cons.1 hd
    have hlater : ∀ e ∈ ds, lower e.name ∈ names.erase (lower d.name) := by
      intro e he
      have hn : lower e.name ≠ lower d.name := fun h =>
        hnew (h ▸ List.mem_map_of_mem (List.mem_map_of_mem he))
      exact Finset.mem_erase.2 ⟨hn, hhas e (.tail _ he)⟩
    rw [List.map_cons, run_cons, exec, if_pos ⟨rfl, hhas d (.head _)⟩, Option.bind_some,
      text_simple, ih hds hlater, List.map_cons, ofList_cons, Finset.sdiff_insert,
      Finset.erase_sdiff_comm]

theorem run_indexStatements {desired : List DesiredIndex} {survivors : List LiveIndex}
    {t : String} : run table names (indexStatements t desired survivors) = some names :=
  foldlM_eq_some_self (forall_mem_indexStatements (fun _ => rfl) fun _ => rfl)

/-- The names after renames of which each starts from a column of its own. -/
theorem ofList_rename {renames : List Rename} (h : Rename.Clean live renames) :
    ofList ((live.rename renames).columns.map LiveColumn.name) =
      ofList (live.columns.map LiveColumn.name) \ ofList (renames.map Rename.source) ∪
        ofList (renames.map Rename.target) := by
  ext n
  simp only [live.names_rename, List.map_map, Function.comp_apply, Finset.mem_union,
    Finset.mem_sdiff, mem_ofList_map]
  constructor
  · rintro ⟨l, hl, rfl⟩
    rcases Rename.newName_cases renames l.name with ⟨hno, he⟩ | ⟨r, hr, _, he⟩
    · rw [he]
      exact .inl ⟨⟨l, hl, rfl⟩, fun ⟨r, hr, hs⟩ => hno r hr hs⟩
    · exact .inr ⟨r, hr, by rw [he]⟩
  · rintro (⟨⟨l, hl, rfl⟩, hno⟩ | ⟨r, hr, rfl⟩)
    · exact ⟨l, hl, by rw [Rename.newName_of_not_source fun r hr hs => hno ⟨r, hr, hs⟩]⟩
    · obtain ⟨l, hl, he⟩ := h.taken r hr
      exact ⟨l, hl, by rw [h.newName_source hr he]⟩

/-- Additions and drops make up for what the renames leave of the declared names. -/
theorem ofList_declared (hv : m.Valid) (renamed : LiveTable) :
    (ofList (renamed.columns.map LiveColumn.name) ∪
        ofList ((m.addedColumns renamed).map Column.name)) \
      ofList ((m.droppedColumns renamed).map LiveColumn.name) =
        ofList (m.columns.map Column.name) := by
  ext n
  simp only [Finset.mem_sdiff, Finset.mem_union, mem_ofList_map]
  constructor
  · rintro ⟨⟨l, hl, rfl⟩ | ⟨c, hc, rfl⟩, hkept⟩
    · cases hc : m.columnByName? l.name with
      | none => exact absurd ⟨l, List.mem_filter.2 ⟨hl, by simp [hc]⟩, rfl⟩ hkept
      | some c =>
        obtain ⟨hcm, he⟩ := Mapping.columnByName?_eq_some hc
        exact ⟨c, hcm, he⟩
    · exact ⟨c, (Mapping.mem_addedColumns.1 hc).1, rfl⟩
  · rintro ⟨c, hc, rfl⟩
    refine ⟨?_, ?_⟩
    · by_cases hl : renamed.HasColumn c.name
      · exact .inl hl
      · refine .inr ⟨c, Mapping.mem_addedColumns.2 ⟨hc, List.forall_mem_map.2 ?_⟩, rfl⟩
        exact fun l hm he => hl ⟨l, hm, he⟩
    · rintro ⟨d, hd, he⟩
      have hno : ((m.droppedColumns renamed).any fun e => sameName d.name e.name) = false :=
        hv.not_dropped hc he
      rw [List.any_eq_false] at hno
      exact hno d hd (sameName_refl _)

theorem run_inPlaceStatements (hv : m.Valid)
    (hd : DistinctNames (live.columns.map LiveColumn.name)) {renames : List Rename}
    (hr : renames = Rename.detect m live) :
    run m.table (ofList (live.columns.map LiveColumn.name))
        (m.inPlaceStatements (live.rename renames) renames) =
      if m.Uncontested live then some (ofList (m.columns.map Column.name)) else none := by
  have hfresh : Rename.Fresh live renames := hr ▸ Rename.fresh_detect hv.names
  have htargets : DistinctNames (renames.map Rename.target) := hr ▸ Rename.distinct_targets hv.names
  have hfree : ∀ r ∈ renames, lower r.target ∉ ofList (live.columns.map LiveColumn.name) := by
    intro r hm ht
    exact hfresh.free r hm (mem_ofList_map.1 ht)
  have hsources : ∀ r ∈ renames, lower r.source ∈ ofList (live.columns.map LiveColumn.name) := by
    intro r hm
    obtain ⟨_, _, _, _, _, _, hl⟩ := Rename.mem_detect (hr ▸ hm)
    exact mem_ofList_map.2 hl
  have hcond : (DistinctNames (renames.map Rename.source) ∧
      ∀ r ∈ renames, lower r.source ∈ ofList (live.columns.map LiveColumn.name)) ↔
        m.Uncontested live := by
    rw [and_iff_left hsources, hr, Rename.distinct_sources_iff hv.names]
  rw [Mapping.inPlaceStatements, run_append, run_append,
    run_renames htargets hfree (Rename.targets_ne_sources hr), if_congr hcond rfl rfl]
  by_cases hu : m.Uncontested live
  · have hclean : Rename.Clean live renames := hr ▸ Rename.clean_of_uncontested hv.names hu
    have hadded : DistinctNames ((m.addedColumns (live.rename renames)).map Column.name) :=
      hv.names.sublist ((List.filter_sublist.map _).map _)
    have hdropped : DistinctNames ((m.droppedColumns (live.rename renames)).map LiveColumn.name) :=
      (hfresh.distinct_rename hd).sublist ((List.filter_sublist.map _).map _)
    have hnew : ∀ c ∈ m.addedColumns (live.rename renames),
        lower c.name ∉ ofList ((live.rename renames).columns.map LiveColumn.name) := by
      intro c hc hn
      obtain ⟨l, hl, he⟩ := mem_ofList_map.1 hn
      exact (Mapping.mem_addedColumns.1 hc).2 l.name (List.mem_map_of_mem hl) he
    have hhas : ∀ d ∈ m.droppedColumns (live.rename renames),
        lower d.name ∈ ofList ((live.rename renames).columns.map LiveColumn.name) ∪
          ofList ((m.addedColumns (live.rename renames)).map Column.name) := by
      intro d hm
      exact Finset.mem_union_left _
        (mem_ofList_map.2 ⟨d, List.mem_of_mem_filter hm, rfl⟩)
    rw [if_pos hu, if_pos hu, ← ofList_rename hclean, Option.bind_some, run_adds hadded hnew,
      Option.bind_some, run_drops hdropped hhas, ofList_declared hv]
  · rw [if_neg hu, if_neg hu, Option.bind_none, Option.bind_none]

end Engine.ColumnNames

/-- The statements of a plan in place find the columns that they name and leave the declared ones.
They stop only where two declared columns take over one live column, at the second rename of it. -/
theorem runNames_syncPlan {d : Declaration} (hm : d.build = .ok m) (hne : live.columns ≠ [])
    (hd : DistinctNames (live.columns.map LiveColumn.name)) {plan : SyncPlan}
    (hp : m.syncPlan catalog capability live = .ok plan) (hr : plan.rebuild = false) :
    ColumnNames.run m.table (ColumnNames.ofList (live.columns.map LiveColumn.name))
        plan.statements =
      if m.Uncontested live then some (ColumnNames.ofList (m.columns.map Column.name))
      else none := by
  obtain ⟨hrenames, hrebuild, desired, _, hs⟩ := Mapping.syncPlan_eq_ok hp
  have hinPlace : m.columnStatements capability live (live.rename plan.renames) plan.renames =
      m.inPlaceStatements (live.rename plan.renames) plan.renames := by
    rw [Mapping.columnStatements, ← hrebuild, hr]
    simp [hne]
  rw [hs, hinPlace, ColumnNames.run_append,
    ColumnNames.run_inPlaceStatements (Mapping.valid_of_build hm) hd hrenames]
  split
  next => exact ColumnNames.run_indexStatements
  next => rfl

/-- The name becomes a full name while another column takes its place, and the age goes. -/
theorem runNames_syncPlan_people : ∃ plan,
    people.assemble.syncPlan [] .full earlierPeople = .ok plan ∧ plan.statements.length = 3 ∧
      ColumnNames.run "people" {"id", "name", "city", "age"} plan.statements =
        some {"id", "full_name", "name", "city"} := by
  obtain ⟨plan, hp, hl, hr⟩ : ∃ plan, people.assemble.syncPlan [] .full earlierPeople = .ok plan ∧
      plan.statements.length = 3 ∧ plan.rebuild = false :=
    ⟨_, rfl, by decide +kernel, by decide +kernel⟩
  have hm : people.build = .ok people.assemble := rfl
  have hu : people.assemble.Uncontested earlierPeople := by decide +kernel
  have hrun := runNames_syncPlan hm (by decide) (by decide +kernel) hp hr
  rw [if_pos hu] at hrun
  have hbefore : ColumnNames.ofList (earlierPeople.columns.map LiveColumn.name) =
      {"id", "name", "city", "age"} := by decide +kernel
  have hafter : ColumnNames.ofList (people.assemble.columns.map Column.name) =
      {"id", "full_name", "name", "city"} := by decide +kernel
  rw [hbefore, hafter] at hrun
  exact ⟨plan, hp, hl, hrun⟩

/-- Guests whose name was split in two, with one field for each part that is called like it. -/
def guests : Declaration where
  name := "guests"
  columns := [
    { field := "id", storage := .integer, primaryKey := true },
    { field := "name", name := "first_name", storage := .text, nullable := true },
    { field := "Name", name := "last_name", storage := .text, nullable := true }]

def earlierGuests : LiveTable where
  columns := [
    { name := "id", declaredType := "INTEGER", keyPosition := 1 },
    { name := "name", declaredType := "TEXT" }]

/-- Both parts are renamed from the one name, which is gone after the first. -/
theorem second_rename_without_source :
    guests.build = .ok guests.assemble ∧ earlierGuests.columns ≠ [] ∧
      DistinctNames (earlierGuests.columns.map LiveColumn.name) ∧
      ∃ plan, guests.assemble.syncPlan [] .full earlierGuests = .ok plan ∧ plan.rebuild = false ∧
        plan.renames = [⟨"name", "first_name"⟩, ⟨"name", "last_name"⟩] ∧
        ColumnNames.run "guests" {"id", "name"} (plan.statements.take 1) =
          some {"id", "first_name"} ∧
        ColumnNames.run "guests" {"id", "name"} plan.statements = none :=
  ⟨rfl, by decide, by decide +kernel, _, rfl, by decide +kernel, by decide +kernel,
    by decide +kernel, by decide +kernel⟩

end RecordMapper
