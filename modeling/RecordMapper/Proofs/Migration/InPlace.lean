import RecordMapper.Proofs.Migration.Creation
import RecordMapper.Proofs.Migration.Renames
/-!
A table that was changed in place matches its mapping. Renames carry the unique indexes over to the
new names.
-/

namespace RecordMapper

open Text Engine

namespace Engine

/-- The table has a unique index over the column alone. -/
def Database.UniqueColumn (db : Database) (table column : String) : Prop :=
  ∃ i ∈ db.indexes, i.belongsTo table = true ∧
    ∃ d, i.definition = some d ∧ d.unique = true ∧ d.columns = [column]

/-- A unique index that is found by the name of a field is over the column of that name. The search
folds the case of all letters, and names of columns fold that of ASCII letters. -/
def Database.FindsOwn (db : Database) (table field : String) : Prop :=
  (db.snapshot table).hasUniqueIndex table [field] = true →
    ∃ x, db.UniqueColumn table x ∧ lower x = lower field

variable {db : Database} {table : String}

theorem hasUniqueIndex_cons (live : LiveTable) (table name : String) (names : List String) :
    live.hasUniqueIndex table (name :: names) =
      (live.hasUniqueIndex table [name] || live.hasUniqueIndex table names) := by
  simp only [LiveTable.hasUniqueIndex, List.any_cons, List.any_nil, Bool.or_false]

theorem Database.Sound.hasUniqueIndex_iff (h : db.Sound) (live : LiveTable)
    (hl : live.indexes = db.indexes.map StoredIndex.live) {names : List String}
    (hn : ∀ n ∈ names, isPlain n = true) :
    live.hasUniqueIndex table names = true ↔
      ∃ n ∈ names, ∃ x, db.UniqueColumn table x ∧ lower x = lower n := by
  simp only [LiveTable.hasUniqueIndex, List.any_eq_true, hl, List.mem_map]
  constructor
  · rintro ⟨n, hm, _, ⟨i, hi, rfl⟩, ht⟩
    simp only [Bool.and_eq_true] at ht
    obtain ⟨⟨hb, hu⟩, ht⟩ := ht
    refine ⟨n, hm, ?_⟩
    cases hd : i.definition with
    | none => simp [StoredIndex.live, hd] at ht
    | some d =>
      have hp := (h.indexes i hi).plain hd
      rw [StoredIndex.isUnique_live hd hp] at hu
      simp only [StoredIndex.live, hd, Option.map_some] at ht
      obtain ⟨x, hx, he⟩ := (StoredIndex.namesAlone_text hp (hn n hm)).1 ht
      exact ⟨x, ⟨i, hi, hb, d, hd, hu, hx⟩, he⟩
  · rintro ⟨n, hm, x, ⟨i, hi, hb, d, hd, hu, hx⟩, he⟩
    have hp := (h.indexes i hi).plain hd
    refine ⟨n, hm, i.live, ⟨i, hi, rfl⟩, ?_⟩
    simp only [Bool.and_eq_true]
    refine ⟨⟨hb, by rw [StoredIndex.isUnique_live hd hp, hu]⟩, ?_⟩
    simp only [StoredIndex.live, hd, Option.map_some]
    exact (StoredIndex.namesAlone_text hp (hn n hm)).2 ⟨x, hx, he⟩

/-- Only a name with foreign letters is found in the index of another column. -/
theorem Database.Sound.findsOwn (h : db.Sound) {field : String} (hf : isPlain field = true) :
    db.FindsOwn table field := by
  intro hu
  have hplain : ∀ n ∈ [field], isPlain n = true := by
    simpa using hf
  obtain ⟨n, hn, hx⟩ := (h.hasUniqueIndex_iff _ rfl hplain).1 hu
  rwa [List.mem_singleton.1 hn] at hx

theorem Database.kept_mapColumns (db : Database) (table : String) (f : String → String) :
    ∃ g : StoredIndex → StoredIndex,
      (db.mapColumns table f).indexes = db.indexes.map g ∧ ∀ i : StoredIndex, i.Kept (g i) := by
  refine ⟨_, indexes_mapColumns _ _ _, fun i => ?_⟩
  split
  · exact i.kept_mapColumns _
  · exact ⟨rfl, rfl, rfl⟩

/-- A unique index follows its column when columns are renamed. -/
theorem Database.uniqueColumn_mapColumns {f : String → String} {y : String} :
    (db.mapColumns table f).UniqueColumn table y ↔
      ∃ x, db.UniqueColumn table x ∧ f x = y := by
  simp only [UniqueColumn, indexes_mapColumns, List.mem_map]
  constructor
  · rintro ⟨_, ⟨i, hi, rfl⟩, hb, d, hd, hu, hy⟩
    have hbi : i.belongsTo table = true := by
      split at hb
      next h => exact h
      next => exact hb
    rw [if_pos hbi, StoredIndex.mapColumns, Option.map_eq_some_iff] at hd
    obtain ⟨e, he, rfl⟩ := hd
    obtain ⟨x, hx, rfl⟩ := List.map_eq_singleton_iff.1 hy
    exact ⟨x, ⟨i, hi, hbi, e, he, hu, hx⟩, rfl⟩
  · rintro ⟨x, ⟨i, hi, hb, d, hd, hu, hx⟩, rfl⟩
    refine ⟨_, ⟨i, hi, rfl⟩, ?_⟩
    rw [if_pos hb]
    exact ⟨hb, { d with columns := d.columns.map f }, by simp [StoredIndex.mapColumns, hd], hu,
      by simp [hx]⟩

theorem Database.Sound.isPlain_of_hasColumn (h : db.Sound) (table : String) {x : String}
    (hx : (db.snapshot table).HasColumn x) : isPlain x = true := by
  obtain ⟨l, hl, he⟩ := hx
  rw [← isPlain_congr he]
  exact h.columns table l hl

theorem Database.Consistent.hasColumn_of_unique (h : db.Consistent table) {x : String}
    (hx : db.UniqueColumn table x) : (db.snapshot table).HasColumn x := by
  obtain ⟨i, hi, hb, d, hd, _, hc⟩ := hx
  have hcol := h.overColumns i hi hb d hd x (by simp [hc])
  simpa [hasColumn, LiveTable.HasColumn, snapshot, sameName_iff] using hcol

end Engine

namespace Rename.Clean

variable {live : LiveTable} {renames : List Rename} (h : Clean live renames)

theorem hasColumn_newName {x : String} (hx : live.HasColumn x) :
    (live.rename renames).HasColumn (newName renames x) := by
  obtain ⟨l, hl, he⟩ := hx
  exact ⟨_, List.mem_map_of_mem hl, lower_newName_congr he⟩

theorem hasColumn_rename {name : String} (hp : (live.rename renames).HasColumn name) :
    ∃ x, live.HasColumn x ∧ lower (newName renames x) = lower name := by
  obtain ⟨_, hl, he⟩ := hp
  obtain ⟨l, hm, rfl⟩ := List.mem_map.1 hl
  exact ⟨l.name, ⟨l, hm, rfl⟩, he⟩

include h

/-- A column that keeps its name was not taken over by another declared column. -/
theorem not_source_of_hasColumn {name : String} (hp : (live.rename renames).HasColumn name)
    (hl : live.HasColumn name) : ∀ r ∈ renames, lower r.source ≠ lower name := by
  intro r hr he
  obtain ⟨y, hy, hn⟩ := hasColumn_rename hp
  rcases newName_cases renames y with ⟨ha, hny⟩ | ⟨r', hr', _, hny⟩
  · rw [hny] at hn
    exact ha r hr (he.trans hn.symm)
  · rw [hny] at hn
    exact h.free r' hr' (hl.congr hn.symm)

/-- Which live columns have a name afterwards: the one that had it, or the one renamed to it. -/
theorem newName_iff {name x : String} (hp : (live.rename renames).HasColumn name)
    (hx : live.HasColumn x) : lower (newName renames x) = lower name ↔
      ∃ n ∈ name :: (previousName? renames name).toList, lower x = lower n := by
  by_cases ht : ∃ r ∈ renames, lower r.target = lower name
  · obtain ⟨r, hr, he⟩ := ht
    rw [h.fresh.previousName_target hr he, ← he, h.newName_eq_target hr hx]
    simp only [Option.toList_some, List.mem_cons, List.not_mem_nil, or_false, exists_eq_or_imp,
      exists_eq_left]
    constructor
    · exact .inr
    · rintro (hn | hn)
      · exact absurd (hx.congr (hn.trans he.symm)) (h.free r hr)
      · exact hn
  · simp only [not_exists, not_and] at ht
    rw [previousName_of_not_target ht]
    simp only [Option.toList_none, List.mem_singleton, exists_eq_left]
    rcases newName_cases renames x with ⟨_, hn⟩ | ⟨r, hr, hs, hn⟩
    · rw [hn]
    · rw [hn]
      constructor
      · exact fun he => absurd he (ht r hr)
      · intro he
        exact absurd (hs.trans he) (h.not_source_of_hasColumn hp (hx.congr he) r hr)

end Rename.Clean

namespace Engine.Database

variable {db db' : Database} {m : Mapping}

/-- What changes in place leave of the columns: the renamed and the added ones, less those that are
not declared. Nothing that was added or dropped is a key or needs an index. -/
structure ChangedInPlace (db db' : Database) (m : Mapping) (renames : List Rename) : Prop where
  columns : db'.columns m.table =
    (((db.snapshot m.table).rename renames).columns ++
      (m.addedColumns ((db.snapshot m.table).rename renames)).map (·.definition.stored)).filter
        fun l => !((m.droppedColumns ((db.snapshot m.table).rename renames)).any
          fun d => sameName l.name d.name)
  indexes : db'.indexes = (db.mapColumns m.table (Rename.newName renames)).indexes
  added : ∀ c ∈ m.addedColumns ((db.snapshot m.table).rename renames),
    c.primaryKey = false ∧ c.unique = false
  dropped : ∀ d ∈ m.droppedColumns ((db.snapshot m.table).rename renames),
    ∀ l ∈ ((db.snapshot m.table).rename renames).columns, lower l.name = lower d.name →
      l.isKey = false

theorem run_inPlace {renames : List Rename}
    (hr : ∀ r ∈ renames, ∀ r' ∈ renames, lower r.target ≠ lower r'.source)
    (h : db.run (m.inPlaceStatements ((db.snapshot m.table).rename renames) renames) = some db') :
    ChangedInPlace db db' m renames := by
  rw [Mapping.inPlaceStatements, run_append, Option.bind_eq_some_iff] at h
  obtain ⟨db₂, h₁₂, h₃⟩ := h
  rw [run_append, Option.bind_eq_some_iff] at h₁₂
  obtain ⟨db₁, h₁, h₂⟩ := h₁₂
  have e₁ := run_renames hr h₁
  obtain ⟨e₂, hadd⟩ := run_adds h₂
  obtain ⟨e₃, hdrop⟩ := run_drops h₃
  have hcols : db₁.columns m.table = ((db.snapshot m.table).rename renames).columns := by
    rw [e₁, columns_mapColumns]
    rfl
  refine ⟨?_, ?_, fun c hc => ?_, fun d hd l hl he => ?_⟩
  · rw [e₃, columns_setColumns_self, e₂, columns_setColumns_self, hcols]
  · rw [e₃, indexes_setColumns, e₂, indexes_setColumns, e₁]
  · exact ⟨(hadd c hc).1, (hadd c hc).2.1⟩
  · apply (hdrop d hd).1 l _ he
    rw [e₂, columns_setColumns_self, hcols]
    exact List.mem_append_left _ hl

namespace ChangedInPlace

variable {renames : List Rename} (h : ChangedInPlace db db' m renames)

include h

/-- Of declared columns, the renamed ones stay as they are and the added ones follow. -/
theorem column? (hv : m.Valid) {c : Column} (hc : c ∈ m.columns) :
    (db'.snapshot m.table).column? c.name =
      (((db.snapshot m.table).rename renames).column? c.name).or (some c.definition.stored) := by
  have hfind : (db'.snapshot m.table).column? c.name =
      (((db.snapshot m.table).rename renames).columns ++
        (m.addedColumns ((db.snapshot m.table).rename renames)).map (·.definition.stored)).find?
          fun l => sameName l.name c.name := by
    rw [LiveTable.column?, snapshot, h.columns, List.find?_filter]
    congr 1
    funext l
    cases hl : sameName l.name c.name with
    | false => simp
    | true => simp [hv.not_dropped hc (sameName_iff.1 hl)]
  rw [hfind, List.find?_append, ← LiveTable.column?]
  cases hl : ((db.snapshot m.table).rename renames).column? c.name with
  | some l => rfl
  | none =>
    have hadded : c ∈ m.addedColumns ((db.snapshot m.table).rename renames) :=
      List.mem_filter.2 ⟨hc, by rw [hl]; rfl⟩
    have hf : (m.addedColumns ((db.snapshot m.table).rename renames)).find?
        (fun d => sameName d.name c.name) = some c := by
      apply find?_eq_some_of_unique hadded (sameName_refl _)
      intro d hd hs
      exact hv.names.eq (List.mem_of_mem_filter hd) hc (sameName_iff.1 hs)
    rw [Option.none_or, Option.none_or, List.find?_map]
    simp only [Function.comp_def, Column.name_stored_definition, hf, Option.map_some]

theorem declared (hv : m.Valid) {l : LiveColumn} (hl : l ∈ (db'.snapshot m.table).columns) :
    (m.columnByName? l.name).isSome = true := by
  rw [snapshot, h.columns] at hl
  obtain ⟨hm, hk⟩ := List.mem_filter.1 hl
  rcases List.mem_append.1 hm with hm | hm
  · by_contra hno
    have hd : l ∈ m.droppedColumns ((db.snapshot m.table).rename renames) :=
      List.mem_filter.2 ⟨hm, by simpa using hno⟩
    rw [Bool.not_eq_true', List.any_eq_false] at hk
    exact hk l hd (sameName_refl _)
  · obtain ⟨c, hc, rfl⟩ := List.mem_map.1 hm
    have hf : m.columnByName? c.name = some c := hv.columnByName (List.mem_of_mem_filter hc) rfl
    simp only [Column.name_stored_definition, hf, Option.isSome_some]

theorem keyIndexCount :
    (db'.snapshot m.table).keyIndexCount =
      ((db.snapshot m.table).rename renames).keyIndexCount := by
  have hf : (db'.snapshot m.table).columns.filter LiveColumn.isKey =
      ((db.snapshot m.table).rename renames).columns.filter LiveColumn.isKey := by
    have hnone : ((m.addedColumns ((db.snapshot m.table).rename renames)).map
        (·.definition.stored)).filter (fun l => l.isKey &&
          !((m.droppedColumns ((db.snapshot m.table).rename renames)).any
            fun d => sameName l.name d.name)) = [] := by
      rw [List.filter_eq_nil_iff]
      intro l hl
      obtain ⟨c, hc, rfl⟩ := List.mem_map.1 hl
      simp [Column.isKey_stored, (h.added c hc).1]
    rw [snapshot, h.columns, List.filter_filter, List.filter_append, hnone, List.append_nil]
    apply List.filter_congr
    intro l hl
    cases hk : l.isKey with
    | false => rfl
    | true =>
      rw [Bool.true_and, Bool.not_eq_true', List.any_eq_false]
      intro d hd hn
      rw [h.dropped d hd l hl (sameName_iff.1 hn)] at hk
      cases hk
  rw [LiveTable.keyIndexCount, LiveTable.keyIndexCount, hf]

theorem kept : ∃ g : StoredIndex → StoredIndex,
    db'.indexes = db.indexes.map g ∧ ∀ i : StoredIndex, i.Kept (g i) := by
  rw [h.indexes]
  exact db.kept_mapColumns m.table (Rename.newName renames)

theorem engineIndexCount :
    (db'.snapshot m.table).engineIndexCount m.table =
      ((db.snapshot m.table).rename renames).engineIndexCount m.table := by
  obtain ⟨g, hg, hk⟩ := h.kept
  simp only [LiveTable.engineIndexCount, snapshot, LiveTable.rename, hg, List.countP_map]
  apply List.countP_congr
  intro i _
  simp only [Function.comp_apply, LiveIndex.belongsTo, LiveIndex.isEngineMade, StoredIndex.live,
    (hk i).name, (hk i).table]

theorem carried (hdb : db.Consistent m.table) : Carried db.indexes db'.indexes := by
  obtain ⟨g, hg, hk⟩ := h.kept
  rw [hg]
  refine ⟨hdb.indexNames, hdb.indexes, fun i hi => ?_, fun j hj => ?_⟩
  · exact ⟨g i, List.mem_map_of_mem hi, hk i⟩
  · obtain ⟨i, hi, rfl⟩ := List.mem_map.1 hj
    exact .inl ⟨i, hi, hk i⟩

theorem uniqueColumn {y : String} : db'.UniqueColumn m.table y ↔
    ∃ x, db.UniqueColumn m.table x ∧ Rename.newName renames x = y := by
  rw [← uniqueColumn_mapColumns]
  simp only [UniqueColumn, h.indexes]

/-- A unique index over a column is found under the new name when it was under the old one. -/
theorem hasUniqueIndex (hdb : db.Consistent m.table) (hs : db'.Sound)
    (hr : Rename.Clean (db.snapshot m.table) renames) {name : String} (hn : isPlain name = true)
    (hp : ((db.snapshot m.table).rename renames).HasColumn name) :
    (db'.snapshot m.table).hasUniqueIndex m.table [name] =
      ((db.snapshot m.table).rename renames).hasUniqueIndex m.table
        (name :: (Rename.previousName? renames name).toList) := by
  have hprev : ∀ n ∈ name :: (Rename.previousName? renames name).toList, isPlain n = true := by
    intro n hm
    rcases List.mem_cons.1 hm with rfl | hm
    · exact hn
    · obtain ⟨r, hr', rfl⟩ := Option.map_eq_some_iff.1 (Option.mem_toList.1 hm)
      exact hdb.isPlain_of_hasColumn m.table (hr.taken r (List.mem_of_find?_eq_some hr'))
  rw [Bool.eq_iff_iff, hs.hasUniqueIndex_iff _ rfl (by simpa using hn),
    hdb.hasUniqueIndex_iff ((db.snapshot m.table).rename renames) rfl hprev]
  simp only [List.mem_singleton, exists_eq_left, h.uniqueColumn]
  constructor
  · rintro ⟨_, ⟨x, hx, rfl⟩, he⟩
    obtain ⟨n, hm, hxn⟩ := (hr.newName_iff hp (hdb.hasColumn_of_unique hx)).1 he
    exact ⟨n, hm, x, hx, hxn⟩
  · rintro ⟨n, hm, x, hx, hxn⟩
    exact ⟨_, ⟨x, hx, rfl⟩, (hr.newName_iff hp (hdb.hasColumn_of_unique hx)).2 ⟨n, hm, hxn⟩⟩

/-- A column that a unique index served under the name of column or field is still served. -/
theorem served (hdb : db.Consistent m.table) (hs : db'.Sound)
    (hr : Rename.Clean (db.snapshot m.table) renames) {c : Column}
    (hf : ∀ x, (db.snapshot m.table).HasColumn x → lower x = lower c.field →
      lower (Rename.newName renames x) = lower c.field ∨
        lower (Rename.newName renames x) = lower c.name)
    (hn : isPlain c.name = true) (hown : db.FindsOwn m.table c.field)
    (hp : ((db.snapshot m.table).rename renames).HasColumn c.name)
    (hu : ((db.snapshot m.table).rename renames).hasUniqueIndex m.table [c.name, c.field] = true) :
    (db'.snapshot m.table).hasUniqueIndex m.table [c.name, c.field] = true := by
  have hname : ∀ n ∈ [c.name], isPlain n = true := by
    simpa using hn
  rw [hasUniqueIndex_cons, Bool.or_eq_true] at hu ⊢
  rcases hu with hu | hu
  · rw [hdb.hasUniqueIndex_iff ((db.snapshot m.table).rename renames) rfl hname] at hu
    obtain ⟨n, hm, x, hx, hxn⟩ := hu
    rw [List.mem_singleton.1 hm] at hxn
    have hsrc := hr.not_source_of_hasColumn hp ((hdb.hasColumn_of_unique hx).congr hxn)
    left
    refine (hs.hasUniqueIndex_iff _ rfl hname).2 ⟨c.name, by simp, x, h.uniqueColumn.2 ?_, hxn⟩
    exact ⟨x, hx, Rename.newName_of_not_source fun r hm he => hsrc r hm (he.trans hxn)⟩
  · obtain ⟨x, hx, hxn⟩ := hown hu
    have hl := hdb.hasColumn_of_unique hx
    have hy : db'.UniqueColumn m.table (Rename.newName renames x) := h.uniqueColumn.2 ⟨x, hx, rfl⟩
    have hfield : ∀ n ∈ [c.field], isPlain n = true := by
      simpa [← isPlain_congr hxn] using hdb.isPlain_of_hasColumn m.table hl
    rcases hf x hl hxn with he | he
    · exact .inr ((hs.hasUniqueIndex_iff _ rfl hfield).2 ⟨c.field, by simp, _, hy, he⟩)
    · exact .inl ((hs.hasUniqueIndex_iff _ rfl hname).2 ⟨c.name, by simp, _, hy, he⟩)

variable (hdb : db.Consistent m.table) (hs : db'.Sound) (hv : m.Valid)
  (hf : DistinctNames (m.columns.map Column.field))
  (hown : ∀ c ∈ m.columns, c.unique = true → c.primaryKey = false → db.FindsOwn m.table c.field)
  (hr : renames = Rename.detect m (db.snapshot m.table))

include hs hv in
theorem isPlain_name {c : Column} (hc : c ∈ m.columns) : isPlain c.name = true := by
  apply hs.isPlain_of_hasColumn m.table
  by_contra hno
  have hn := LiveTable.column?_eq_none.2 hno
  simp [h.column? hv hc] at hn

include hdb hs hv hf hr

include hown in
/-- Unique columns were there before, so those that an index serves are served afterwards. -/
theorem unservedCount_le : (db'.snapshot m.table).unservedCount m ≤
    ((db.snapshot m.table).rename renames).unservedCount m := by
  apply List.countP_mono_left
  intro c hc hu
  simp only [Bool.and_eq_true, Bool.not_eq_true'] at hu ⊢
  obtain ⟨⟨hcu, hk⟩, hno⟩ := hu
  refine ⟨⟨hcu, hk⟩, ?_⟩
  by_contra hyes
  rw [Bool.not_eq_false] at hyes
  have hcol : ((db.snapshot m.table).rename renames).HasColumn c.name := by
    by_contra hn
    have hadded : c ∈ m.addedColumns ((db.snapshot m.table).rename renames) :=
      List.mem_filter.2 ⟨hc, by rw [LiveTable.column?_eq_none.2 hn]; rfl⟩
    rw [(h.added c hadded).2] at hcu
    cases hcu
  have hclean : Rename.Clean (db.snapshot m.table) renames := hr ▸ Rename.clean_detect hv.names hf
  have hserved := h.served hdb hs hclean
    (fun x _ hx => by rw [hr]; exact Rename.newName_field hf hc hx)
    (h.isPlain_name hs hv hc) (hown c hc hcu hk) hcol hyes
  rw [hserved] at hno
  cases hno

/-- An index over a column tells as much of its uniqueness afterwards as before. -/
theorem hasUniqueIndex_name {c : Column} (hc : c ∈ m.columns)
    (hcol : ((db.snapshot m.table).rename renames).HasColumn c.name) :
    (db'.snapshot m.table).hasUniqueIndex m.table [c.name] =
      ((db.snapshot m.table).rename renames).hasUniqueIndex m.table
        (c.name :: (Rename.previousName? renames c.name).toList) :=
  h.hasUniqueIndex hdb hs (hr ▸ Rename.clean_detect hv.names hf) (h.isPlain_name hs hv hc) hcol

include hown in
theorem isUnique {c : Column} (hc : c ∈ m.columns)
    (hcol : ((db.snapshot m.table).rename renames).HasColumn c.name) (hcu : c.unique = true)
    (hu : ((db.snapshot m.table).rename renames).isUnique m c
      (Rename.previousName? renames c.name) = true) :
    (db'.snapshot m.table).isUnique m c none = true := by
  have he := h.hasUniqueIndex_name hdb hs hv hf hr hc hcol
  have hle := h.unservedCount_le hdb hs hv hf hown hr
  rw [LiveTable.isUnique, hcu] at hu ⊢
  rw [Option.toList_none, he, h.keyIndexCount, h.engineIndexCount]
  split at hu
  next hx => rw [if_pos hx, hu]
  next hx =>
    rw [if_neg hx]
    have hcount := of_decide_eq_true hu
    exact decide_eq_true (Nat.le_trans (Nat.add_le_add_right hle _) hcount)

theorem isUnique_eq_false {c : Column} (hc : c ∈ m.columns)
    (hcol : ((db.snapshot m.table).rename renames).HasColumn c.name) (hcu : c.unique = false)
    (hu : ((db.snapshot m.table).rename renames).isUnique m c
      (Rename.previousName? renames c.name) = false) :
    (db'.snapshot m.table).isUnique m c none = false := by
  have he := h.hasUniqueIndex_name hdb hs hv hf hr hc hcol
  rw [LiveTable.isUnique, hcu] at hu ⊢
  simp only [Bool.not_false, Bool.or_true, if_true, Option.toList_none, he] at hu ⊢
  exact hu

omit hf hr in
/-- No index is over a column that was just added. -/
theorem isUnique_added {c : Column} (hc : c ∈ m.columns)
    (hcol : ¬((db.snapshot m.table).rename renames).HasColumn c.name) :
    (db'.snapshot m.table).isUnique m c none = c.unique := by
  have hadded : c ∈ m.addedColumns ((db.snapshot m.table).rename renames) :=
    List.mem_filter.2 ⟨hc, by rw [LiveTable.column?_eq_none.2 hcol]; rfl⟩
  have hno : (db'.snapshot m.table).hasUniqueIndex m.table [c.name] = false := by
    rw [Bool.eq_false_iff, ne_eq,
      hs.hasUniqueIndex_iff _ rfl (by simpa using h.isPlain_name hs hv hc)]
    rintro ⟨n, hm, _, hy, he⟩
    obtain ⟨x, hx, rfl⟩ := h.uniqueColumn.1 hy
    apply hcol
    rw [List.mem_singleton.1 hm] at he
    exact (Rename.Clean.hasColumn_newName (hdb.hasColumn_of_unique hx)).congr he
  simp [LiveTable.isUnique, hno, (h.added c hadded).2]

/-- All that can be left to change is the uniqueness of columns that are declared unique. -/
theorem matches_of_unique
    (hn : m.firstChange? ((db.snapshot m.table).rename renames) renames = none)
    (hu : m.UniqueIn (db'.snapshot m.table)) : (db'.snapshot m.table).Matches m := by
  refine ⟨fun c hc => ?_, fun l hl => h.declared hv hl⟩
  rw [h.column? hv hc]
  cases hl : ((db.snapshot m.table).rename renames).column? c.name with
  | none =>
    refine ⟨_, rfl, Column.change?_stored fun _ => ?_⟩
    exact h.isUnique_added hdb hs hv hc (LiveTable.column?_eq_none.1 hl)
  | some l =>
    refine ⟨l, rfl, ?_⟩
    have hcol : ((db.snapshot m.table).rename renames).HasColumn c.name := by
      by_contra hno
      rw [LiveTable.column?_eq_none.2 hno] at hl
      cases hl
    have hnone := Mapping.firstChange?_eq_none_iff.1 hn c hc l hl
    rw [Column.change?_eq_none_iff] at hnone
    obtain ⟨ht, hk, hrest⟩ := hnone
    rw [Column.change?_eq_none_iff]
    refine ⟨ht, hk, fun hkey => ⟨(hrest hkey).1, ?_⟩⟩
    cases hcu : c.unique with
    | true => exact (hu c hc hcu hkey).symm
    | false =>
      have hbefore := (hrest hkey).2.symm.trans hcu
      exact (h.isUnique_eq_false hdb hs hv hf hr hc hcol hcu hbefore).symm

include hown in
theorem uniqueIn (hn : m.firstChange? ((db.snapshot m.table).rename renames) renames = none) :
    m.UniqueIn (db'.snapshot m.table) := by
  intro c hc hcu hkey
  cases hl : ((db.snapshot m.table).rename renames).column? c.name with
  | none => rw [h.isUnique_added hdb hs hv hc (LiveTable.column?_eq_none.1 hl), hcu]
  | some l =>
    have hcol : ((db.snapshot m.table).rename renames).HasColumn c.name := by
      by_contra hno
      rw [LiveTable.column?_eq_none.2 hno] at hl
      cases hl
    have hnone := Mapping.firstChange?_eq_none_iff.1 hn c hc l hl
    have hbefore := (((Column.change?_eq_none_iff.1 hnone).2.2 hkey).2).symm.trans hcu
    exact h.isUnique hdb hs hv hf hown hr hc hcol hcu hbefore

end ChangedInPlace

end Engine.Database

end RecordMapper
