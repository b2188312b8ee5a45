import RecordMapper.Proofs.Migration.ColumnNames
/-!
What a migration does to the data of a column that stays declared. A column keeps its data unless
another declared column, whose field has its name, takes it over.
-/

namespace RecordMapper

open Text Engine

variable {α : Type} {m : Mapping} {live : LiveTable} {catalog : Catalog} {capability : Capability}

/-- A declared column takes over the live column of this name. -/
def Mapping.TakenOver (m : Mapping) (live : LiveTable) (name : String) : Prop :=
  ∃ d ∈ m.columns, d.TakesOver live ∧ lower d.field = lower name

instance (m : Mapping) (live : LiveTable) (name : String) : Decidable (m.TakenOver live name) :=
  inferInstanceAs (Decidable (∃ d ∈ m.columns, d.TakesOver live ∧ lower d.field = lower name))

namespace Rename

theorem exists_source_iff {name : String} :
    (∃ r ∈ detect m live, lower r.source = lower name) ↔ m.TakenOver live name := by
  constructor
  · rintro ⟨r, hr, he⟩
    obtain ⟨c, hc, hi, hno, _, hs, hl⟩ := mem_detect hr
    exact ⟨c, hc, ⟨hi, hno, hl.congr hs⟩, hs.symm.trans he⟩
  · rintro ⟨c, hc, ht, he⟩
    obtain ⟨r, hr, _, hs⟩ := exists_detect hc ht
    exact ⟨r, hr, hs.trans he⟩

/-- After the renames a name that the table had is left to the column that had it, if to any. -/
theorem newName_eq_iff {name n : String} (hl : live.HasColumn name) :
    lower (newName (detect m live) n) = lower name ↔
      ¬m.TakenOver live name ∧ lower n = lower name := by
  rw [← exists_source_iff]
  rcases newName_cases (detect m live) n with ⟨hno, he⟩ | ⟨r, hr, hs, he⟩
  · rw [he]
    refine ⟨fun hn => ⟨fun ⟨r, hr, hs⟩ => hno r hr (hs.trans hn.symm), hn⟩, And.right⟩
  · obtain ⟨c, _, _, hfree, ht, _⟩ := mem_detect hr
    rw [he, ht]
    refine iff_of_false (fun hn => hfree (hl.congr hn.symm)) ?_
    exact fun ⟨hno, hn⟩ => hno ⟨r, hr, hs.trans hn⟩

end Rename

namespace Engine

theorem Row.cell?_renamed (row : Row α) {name : String} (hl : live.HasColumn name) :
    (row.mapNames (Rename.newName (Rename.detect m live))).cell? name =
      if m.TakenOver live name then none else row.cell? name := by
  rw [Row.cell?, Row.mapNames, List.find?_map, Option.map_map]
  split
  next ht =>
    have hnone : row.find? ((fun cell => sameName cell.1 name) ∘
        fun cell : String × Option α => (Rename.newName (Rename.detect m live) cell.1, cell.2)) =
        none := by
      rw [List.find?_eq_none]
      intro cell _ hs
      exact ((Rename.newName_eq_iff hl).1 (sameName_iff.1 hs)).1 ht
    rw [hnone, Option.map_none]
  next ht =>
    have hsame : ((fun cell : String × Option α => sameName cell.1 name) ∘
        fun cell : String × Option α => (Rename.newName (Rename.detect m live) cell.1, cell.2)) =
          fun cell => sameName cell.1 name := by
      funext cell
      rw [Function.comp_apply, Bool.eq_iff_iff, sameName_iff, sameName_iff,
        Rename.newName_eq_iff hl, and_iff_right ht]
    rw [hsame]
    rfl

end Engine

/-- Work on the columns of a table. -/
inductive Statement.AltersColumns (table : String) : Statement → Prop
  | renameColumn {source target : Sql.Name} :
      AltersColumns table (.renameColumn (.simple table) source target)
  | addColumn {d : ColumnDef} : AltersColumns table (.addColumn (.simple table) d)
  | dropColumn {column : Sql.Name} : AltersColumns table (.dropColumn (.simple table) column)

theorem Mapping.altersColumns_inPlaceStatements {renamed : LiveTable} {renames : List Rename} :
    ∀ s ∈ m.inPlaceStatements renamed renames, s.AltersColumns m.table := by
  intro s hs
  simp only [inPlaceStatements, List.mem_append, List.mem_map] at hs
  rcases hs with (⟨r, _, rfl⟩ | ⟨c, _, rfl⟩) | ⟨d, _, rfl⟩
  · exact .renameColumn
  · exact .addColumn
  · exact .dropColumn

namespace Engine

namespace ColumnNames

variable {names : List String}

theorem ofList_renamed {source target : String} (h : lower source ∈ ofList names) :
    ofList (names.map fun c => if sameName source c then target else c) =
      insert (lower target) ((ofList names).erase (lower source)) := by
  ext n
  rw [mem_ofList_map, Finset.mem_insert, Finset.mem_erase, mem_ofList]
  constructor
  · rintro ⟨c, hc, rfl⟩
    split
    next => exact .inl rfl
    next he => exact .inr ⟨fun hn => he (sameName_iff.2 hn.symm), c, hc, rfl⟩
  · rintro (rfl | ⟨hn, c, hc, rfl⟩)
    · obtain ⟨c, hc, he⟩ := mem_ofList.1 h
      exact ⟨c, hc, by rw [if_pos (sameName_iff.2 he.symm)]⟩
    · exact ⟨c, hc, by rw [if_neg fun he => hn (sameName_iff.1 he).symm]⟩

theorem ofList_concat (a : String) :
    ofList (names ++ [a]) = insert (lower a) (ofList names) := by
  rw [ofList, List.map_append, List.toFinset_append, Finset.union_comm]
  rfl

theorem ofList_filter (a : String) :
    ofList (names.filter fun c => !sameName c a) = (ofList names).erase (lower a) := by
  ext n
  simp only [mem_ofList, Finset.mem_erase, List.mem_filter, sameName, Bool.not_eq_true',
    beq_eq_false_iff_ne]
  constructor
  · rintro ⟨c, ⟨hc, hn⟩, rfl⟩
    exact ⟨hn, c, hc, rfl⟩
  · rintro ⟨hn, c, hc, rfl⟩
    exact ⟨c, ⟨hc, hn⟩, rfl⟩

end ColumnNames

namespace Store

variable {store store' : Store α} {table : String} {t : Table α}

/-- A step on the columns of a table does to the set of their names what the statement says. -/
theorem exec_names {statement : Statement} (hs : statement.AltersColumns table)
    (ht : store.table? table = some t) (h : store.exec statement = some store') :
    ∃ t', store'.table? table = some t' ∧
      ColumnNames.exec table (ColumnNames.ofList t.columns) statement =
        some (ColumnNames.ofList t'.columns) := by
  have hmem (name : String) :
      lower name ∈ ColumnNames.ofList t.columns ↔ t.hasColumn name = true := by
    rw [ColumnNames.mem_ofList, Table.hasColumn_iff]
  cases hs with
  | @renameColumn source target =>
    simp only [exec, text_simple, ht, Option.bind_eq_bind, Option.bind_some,
      Option.ite_none_right_eq_some, Option.some.injEq] at h
    obtain ⟨⟨hsource, htarget⟩, rfl⟩ := h
    have hs := (hmem source.text).2 hsource
    have hfree := mt (hmem target.text).1 (Bool.eq_false_iff.1 htarget)
    refine ⟨_, table?_put_self .., ?_⟩
    rw [ColumnNames.exec, if_pos ⟨rfl, hs, hfree⟩]
    exact congrArg some (ColumnNames.ofList_renamed hs).symm
  | @addColumn d =>
    simp only [exec, text_simple, ht, Option.bind_eq_bind, Option.bind_some,
      Option.ite_none_right_eq_some, Option.some.injEq] at h
    obtain ⟨⟨hfree, _⟩, rfl⟩ := h
    refine ⟨_, table?_put_self .., ?_⟩
    rw [ColumnNames.exec, if_pos ⟨rfl, mt (hmem d.name).1 (Bool.eq_false_iff.1 hfree)⟩]
    exact congrArg some (ColumnNames.ofList_concat d.name).symm
  | @dropColumn column =>
    simp only [exec, text_simple, ht, Option.bind_eq_bind, Option.bind_some,
      Option.ite_none_right_eq_some, Option.some.injEq] at h
    obtain ⟨⟨hhas, _⟩, rfl⟩ := h
    refine ⟨_, table?_put_self .., ?_⟩
    rw [ColumnNames.exec, if_pos ⟨rfl, (hmem column.text).2 hhas⟩]
    exact congrArg some (ColumnNames.ofList_filter column.text).symm

theorem run_names {script : List Statement} (hs : ∀ s ∈ script, s.AltersColumns table)
    (ht : store.table? table = some t) (h : store.run script = some store') :
    ∃ t', store'.table? table = some t' ∧
      ColumnNames.run table (ColumnNames.ofList t.columns) script =
        some (ColumnNames.ofList t'.columns) := by
  induction script generalizing store t with
  | nil =>
    cases h
    exact ⟨t, ht, rfl⟩
  | cons s script ih =>
    rw [run_cons, Option.bind_eq_some_iff] at h
    obtain ⟨store₁, h₁, h₂⟩ := h
    obtain ⟨t₁, ht₁, hn₁⟩ := exec_names (hs s (.head _)) ht h₁
    obtain ⟨t', ht', hn'⟩ := ih (fun s hm => hs s (.tail _ hm)) ht₁ h₂
    exact ⟨t', ht', by rw [ColumnNames.run_cons, hn₁, Option.bind_some, hn']⟩

theorem addLimitation_of_run {script : List Statement} (h : store.run script = some store')
    {name : Sql.Name} {c : Column} (hc : .addColumn name c.definition ∈ script) :
    c.addLimitation? = none := by
  induction script generalizing store with
  | nil => cases hc
  | cons s script ih =>
    rw [run_cons, Option.bind_eq_some_iff] at h
    obtain ⟨store₁, h₁, h₂⟩ := h
    rcases List.mem_cons.1 hc with rfl | hc
    · simp only [exec, Option.bind_eq_bind, Option.bind_eq_some_iff,
        Option.ite_none_right_eq_some] at h₁
      obtain ⟨_, _, ⟨_, haddable⟩, _⟩ := h₁
      exact Column.isAddable_definition.1 haddable
    · exact ih h₂ hc

theorem run_indexStatements {desired : List DesiredIndex} {survivors : List LiveIndex} :
    store.run (indexStatements table desired survivors) = some store :=
  foldlM_eq_some_self (forall_mem_indexStatements (fun _ => rfl) fun _ => rfl)

end Store

end Engine

section

variable {store store' : Store α} {t : Table α} {renames : List Rename}

/-- However the column work is done, when the engine goes through with it the table that it leaves
carries the rows. -/
theorem carries_columnStatements (hv : m.Valid) (ht : store.table? m.table = some t)
    (hl : live.columns.map LiveColumn.name = t.columns) (hd : DistinctNames t.columns)
    (hne : live.columns ≠ []) (hr : renames = Rename.detect m live)
    (h : store.run (m.columnStatements capability live (live.rename renames) renames) =
      some store') :
    ∃ t', store'.table? m.table = some t' ∧ t.Carries m renames t' := by
  have hfresh : Rename.Fresh live renames := hr ▸ Rename.fresh_detect hv.names
  rw [Mapping.columnStatements] at h
  split at h
  next =>
    rw [run_rebuildStatements_of_fresh hv hl ht hfresh] at h
    obtain ⟨_, h⟩ := Option.ite_none_left_eq_some.1 h
    cases h
    exact ⟨_, Store.table?_put_self .., carries_rebuilt_of_fresh hv hl hfresh hd⟩
  next =>
    rw [if_neg (by simpa using hne)] at h
    have hadd : ∀ c ∈ m.addedColumns (live.rename renames), c.addLimitation? = none := by
      intro c hc
      have hm : .addColumn (.simple m.table) c.definition ∈
          m.inPlaceStatements (live.rename renames) renames := by
        simp only [Mapping.inPlaceStatements, List.mem_append, List.mem_map]
        exact .inl (.inr ⟨c, hc, rfl⟩)
      exact Store.addLimitation_of_run h hm
    obtain ⟨_, _, hnames⟩ := Store.run_names Mapping.altersColumns_inPlaceStatements ht h
    rw [← hl, ColumnNames.run_inPlaceStatements hv (hl ▸ hd) hr] at hnames
    obtain ⟨hu, _⟩ := Option.ite_none_right_eq_some.1 hnames
    have hclean : Rename.Clean live renames := hr ▸ Rename.clean_of_uncontested hv.names hu
    rw [run_inPlaceStatements hv hl ht hclean hd (hr ▸ Rename.distinct_targets hv.names) hadd] at h
    cases h
    exact ⟨_, Store.table?_put_self .., carries_changedInPlace hv hl⟩

end

/-- A declared column that the live table has keeps its data exactly when no other declared column
takes it over or it holds nothing. The renames of the plan say which columns are taken over. -/
theorem retained_iff {d : Declaration} (hm : d.build = .ok m) {store store' : Store α} {t : Table α}
    (ht : store.table? m.table = some t) (hl : live.columns.map LiveColumn.name = t.columns)
    (hd : DistinctNames t.columns) {plan : SyncPlan}
    (hp : m.syncPlan catalog capability live = .ok plan)
    (hrun : store.run plan.statements = some store') {c : Column} (hc : c ∈ m.columns)
    (hcl : live.HasColumn c.name) :
    ((∃ r ∈ plan.renames, lower r.source = lower c.name) ↔ m.TakenOver live c.name) ∧
      ∃ t', store'.table? m.table = some t' ∧
        List.Forall₂ (fun row row' => row'.cell? c.name = row.cell? c.name ↔
          ¬m.TakenOver live c.name ∨ row.cell? c.name = some none) t.rows t'.rows := by
  obtain ⟨hrenames, _, desired, _, hs⟩ := Mapping.syncPlan_eq_ok hp
  have hne : live.columns ≠ [] := by
    obtain ⟨l, hlm, _⟩ := hcl
    exact List.ne_nil_of_mem hlm
  rw [hs, Store.run_append, Option.bind_eq_some_iff] at hrun
  obtain ⟨store₁, h₁, h₂⟩ := hrun
  rw [Store.run_indexStatements] at h₂
  cases h₂
  obtain ⟨t', ht', hcarries⟩ :=
    carries_columnStatements (Mapping.valid_of_build hm) ht hl hd hne hrenames h₁
  refine ⟨hrenames ▸ Rename.exists_source_iff, t', ht', ?_⟩
  have hrows := (List.forall₂_and_left ..).2 ⟨fun row hr => hr, hcarries.rows⟩
  refine hrows.imp fun row row' ⟨hr, hcells⟩ => ?_
  obtain ⟨v, hv⟩ : ∃ v, row.cell? c.name = some v := by
    rw [← Option.ne_none_iff_exists', ne_eq, Row.cell?_eq_none, t.wide row hr, ← hl]
    obtain ⟨l, hlm, he⟩ := hcl
    exact fun hno => hno l.name (List.mem_map_of_mem hlm) he
  rw [hcells c hc, hrenames, Row.cell?_renamed row hcl, hv]
  split
  next htaken => simp [htaken, eq_comm]
  next htaken => simp [htaken]

/-- No field is called city, so the cities stay where they are. -/
theorem retained_people : ∃ plan store' t',
    people.assemble.syncPlan [] .full earlierPeople = .ok plan ∧
      (Store.empty.put "people" (some earlierPeopleRows)).run plan.statements = some store' ∧
      store'.table? "people" = some t' ∧
      List.Forall₂ (fun row row' => row'.cell? "city" = row.cell? "city") earlierPeopleRows.rows
        t'.rows := by
  obtain ⟨plan, hp, hsome⟩ : ∃ plan,
      people.assemble.syncPlan [] .full earlierPeople = .ok plan ∧
        ((Store.empty.put "people" (some earlierPeopleRows)).run plan.statements).isSome :=
    ⟨_, rfl, by decide +kernel⟩
  obtain ⟨store', hrun⟩ := Option.isSome_iff_exists.1 hsome
  have hm : people.build = .ok people.assemble := rfl
  have ht : (Store.empty.put "people" (some earlierPeopleRows)).table? people.assemble.table =
      some earlierPeopleRows := Store.table?_put_self ..
  let city : Column := { field := "city", storage := .text, nullable := true }
  have hcity : city ∈ people.assemble.columns := by decide +kernel
  have hlive : earlierPeople.HasColumn city.name := by decide +kernel
  have hfree : ¬people.assemble.TakenOver earlierPeople city.name := by decide +kernel
  obtain ⟨_, t', ht', hrows⟩ := retained_iff hm ht rfl (by decide +kernel) hp hrun hcity hlive
  exact ⟨plan, store', t', hp, hrun, ht', hrows.imp fun _ _ h => h.2 (.inl hfree)⟩

/-- The column of nicks is there before, as `Name`. Its data goes to the full names, and the nicks
are empty afterwards. -/
theorem nicks_taken_over :
    people.build = .ok people.assemble ∧
      (earlierPeopleRows.rows.map fun row => row.cell? "name") = [some (some 10), some (some 11)] ∧
      ∃ plan, people.assemble.syncPlan [] .full earlierPeople = .ok plan ∧
        plan.renames = [⟨"Name", "full_name"⟩] ∧
        (((Store.empty.put "people" (some earlierPeopleRows)).run plan.statements).bind fun store =>
          (store.table? "people").map fun t => t.rows.map fun row => row.cell? "name") =
            some [some none, some none] :=
  ⟨rfl, by decide +kernel, _, rfl, by decide +kernel, by decide +kernel⟩

end RecordMapper
