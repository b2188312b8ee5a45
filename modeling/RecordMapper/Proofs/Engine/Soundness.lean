import RecordMapper.Proofs.Engine.Execution
import RecordMapper.Proofs.Schema.Validity
/-!
What no statement breaks: names are plain, and the names of the engine's own indexes are kept for
them.
-/

namespace RecordMapper.Engine

open Text

theorem beginsWith_iff {start s : String} :
    beginsWith start s = true ↔ start.toList <+: s.toList := by
  rw [beginsWith, List.isPrefixOf_iff_prefix]

theorem not_beginsWith_of_isFree {name : String} (h : isFree name = true) :
    beginsWith "sqlite_" name = false := by
  simp only [isFree, Bool.and_eq_true, Bool.not_eq_true'] at h
  rw [Bool.eq_false_iff, ne_eq, beginsWith_iff] at h ⊢
  intro hp
  apply h.2
  rw [toList_lower]
  exact hp.map Char.toLower

theorem isPlain_of_isFree {name : String} (h : isFree name = true) : isPlain name = true := by
  simp only [isFree, Bool.and_eq_true] at h
  exact h.1

theorem beginsWith_engineName (rest : String) :
    beginsWith "sqlite_autoindex" ("sqlite_autoindex_" ++ rest) = true := by
  rw [beginsWith_iff, String.toList_append]
  exact List.IsPrefix.trans ⟨['_'], by decide⟩ (List.prefix_append _ _)

namespace StoredIndex

/-- An index that the engine made is named as such, any other one is not. -/
def Sound (i : StoredIndex) : Prop :=
  match i.definition with
  | none => beginsWith "sqlite_autoindex" i.name = true
  | some d => i.Plain d ∧ beginsWith "sqlite_" i.name = false

instance (i : StoredIndex) (d : IndexDefinition) : Decidable (i.Plain d) :=
  decidable_of_iff (isPlain i.name = true ∧ isPlain i.table = true ∧
      (∀ c ∈ d.columns, isPlain c = true) ∧ d.columns ≠ [])
    ⟨fun ⟨hn, ht, hc, hne⟩ => ⟨hn, ht, hc, hne⟩, fun ⟨hn, ht, hc, hne⟩ => ⟨hn, ht, hc, hne⟩⟩

instance : (i : StoredIndex) → Decidable i.Sound
  | ⟨_, _, none⟩ => inferInstanceAs (Decidable (_ = true))
  | ⟨name, table, some d⟩ =>
    inferInstanceAs (Decidable (Plain ⟨name, table, some d⟩ d ∧ _ = false))

variable {i : StoredIndex}

theorem Sound.plain (h : i.Sound) {d : IndexDefinition} (hd : i.definition = some d) :
    i.Plain d := by
  simp only [Sound, hd] at h
  exact h.1

theorem Sound.isEngineMade (h : i.Sound) : i.live.isEngineMade = !i.definition.isSome := by
  cases hd : i.definition with
  | none =>
    simp only [Sound, hd] at h
    simpa [LiveIndex.isEngineMade, live] using h
  | some d =>
    simp only [Sound, hd, Bool.eq_false_iff, ne_eq, beginsWith_iff] at h
    simp only [LiveIndex.isEngineMade, live, Option.isSome_some, Bool.not_true, Bool.eq_false_iff,
      ne_eq, beginsWith_iff]
    exact fun hp => h.2 (List.IsPrefix.trans ⟨"autoindex".toList, by decide⟩ hp)

theorem Sound.mapColumns (h : i.Sound) {f : String → String}
    (hf : ∀ c, isPlain c = true → isPlain (f c) = true) : (i.mapColumns f).Sound := by
  cases hd : i.definition with
  | none => simpa [Sound, StoredIndex.mapColumns, hd] using h
  | some d =>
    simp only [Sound, hd] at h
    simp only [Sound, StoredIndex.mapColumns, hd, Option.map_some]
    refine ⟨⟨h.1.name, h.1.table, fun c hc => ?_, by simpa using h.1.nonempty⟩, h.2⟩
    obtain ⟨c', hc', rfl⟩ := List.mem_map.1 hc
    exact hf c' (h.1.columns c' hc')

theorem Sound.renameTable (h : i.Sound) {source target : String} (ht : isPlain target = true) :
    (i.renameTable source target).Sound := by
  cases hd : i.definition with
  | none =>
    simp only [Sound, StoredIndex.renameTable, hd, Option.isSome_none, Bool.false_eq_true, if_false,
      String.append_assoc]
    exact beginsWith_engineName _
  | some d =>
    simp only [Sound, hd] at h
    simp only [Sound, StoredIndex.renameTable, hd, Option.isSome_some, if_true]
    exact ⟨⟨h.1.name, ht, h.1.columns, h.1.nonempty⟩, h.2⟩

theorem sound_engineIndexes {table : String} {columns : List ColumnDef} {i : StoredIndex}
    (h : i ∈ engineIndexes table columns) : i.Sound := by
  obtain ⟨k, _, rfl⟩ := List.mem_map.1 h
  simp only [Sound, String.append_assoc]
  exact beginsWith_engineName _

end StoredIndex

namespace Database

structure Sound (db : Database) : Prop where
  columns : ∀ t, ∀ l ∈ db.columns t, isPlain l.name = true
  indexes : ∀ i ∈ db.indexes, i.Sound

variable {db db' : Database}

/-- Names of columns in a database with one table. -/
theorem plain_columns {table : String} {columns : List LiveColumn}
    (h : db.tables = fun name => if name = table then columns else [])
    (hp : ∀ l ∈ columns, isPlain l.name = true) (t : String) :
    ∀ l ∈ db.columns t, isPlain l.name = true := by
  intro l hl
  rw [Database.columns, h] at hl
  dsimp only at hl
  split at hl
  · exact hp l hl
  · cases hl

theorem Sound.setColumns (h : db.Sound) (t : String) {columns : List LiveColumn}
    (hc : ∀ l ∈ columns, isPlain l.name = true) : (db.setColumns t columns).Sound := by
  refine ⟨fun u l hl => ?_, h.indexes⟩
  rw [columns_setColumns] at hl
  split at hl
  · exact hc l hl
  · exact h.columns u l hl

theorem Sound.mapIndexes (h : db.Sound) {t : String} {f : StoredIndex → StoredIndex}
    (hf : ∀ i, i.Sound → (f i).Sound) : (db.mapIndexes t f).Sound := by
  refine ⟨h.columns, fun i hi => ?_⟩
  obtain ⟨j, hj, rfl⟩ := List.mem_map.1 hi
  split
  · exact hf j (h.indexes j hj)
  · exact h.indexes j hj

theorem Sound.filterIndexes (h : db.Sound) (p : StoredIndex → Bool) :
    Sound { db with indexes := db.indexes.filter p } :=
  ⟨h.columns, fun i hi => h.indexes i (List.mem_of_mem_filter hi)⟩

theorem Sound.appendIndexes (h : db.Sound) {added : List StoredIndex}
    (ha : ∀ i ∈ added, i.Sound) : Sound { db with indexes := db.indexes ++ added } := by
  refine ⟨h.columns, fun i hi => ?_⟩
  rcases List.mem_append.1 hi with hi | hi
  · exact h.indexes i hi
  · exact ha i hi

theorem Sound.createTable (h : db.Sound) {t : String} {columns : List ColumnDef}
    (hc : ∀ c ∈ columns, isPlain c.name = true) : (db.createTable t columns).Sound := by
  have hs : (db.setColumns t (columns.map ColumnDef.stored)).Sound := by
    apply h.setColumns
    intro l hl
    obtain ⟨c, hm, rfl⟩ := List.mem_map.1 hl
    exact hc c hm
  exact hs.appendIndexes fun i hi => StoredIndex.sound_engineIndexes hi

theorem Sound.dropTable (h : db.Sound) (t : String) : (db.dropTable t).Sound :=
  (h.setColumns t (by simp)).filterIndexes _

theorem Sound.renameTable (h : db.Sound) {source target : String} (ht : isPlain target = true) :
    (db.renameTable source target).Sound := by
  have hnil : ∀ l ∈ ([] : List LiveColumn), isPlain l.name = true := by simp
  have hs := (h.setColumns source hnil).setColumns target (h.columns source)
  exact hs.mapIndexes fun i hi => hi.renameTable ht

theorem Sound.mapColumns (h : db.Sound) {t : String} {f : String → String}
    (hf : ∀ c, isPlain c = true → isPlain (f c) = true) : (db.mapColumns t f).Sound := by
  have hs : (db.setColumns t ((db.columns t).map fun l => { l with name := f l.name })).Sound := by
    apply h.setColumns
    intro l hl
    obtain ⟨l', hm, rfl⟩ := List.mem_map.1 hl
    exact hf _ (h.columns t l' hm)
  exact hs.mapIndexes fun i hi => hi.mapColumns hf

theorem exec_sound {s : Statement} (hs : db.Sound) (h : db.exec s = some db') : db'.Sound := by
  cases s with
  | createTable name columns ifNotExists =>
    simp only [exec] at h
    split at h
    next =>
      cases ifNotExists <;> simp at h
      exact h ▸ hs
    next =>
      simp only [Option.ite_none_right_eq_some, Option.some.injEq, Bool.and_eq_true,
        List.all_eq_true] at h
      obtain ⟨⟨⟨_, hc⟩, _⟩, rfl⟩ := h
      exact hs.createTable hc
  | addColumn table c =>
    simp only [exec, Option.ite_none_right_eq_some, Option.some.injEq, Bool.and_eq_true] at h
    obtain ⟨⟨⟨⟨_, hn⟩, _⟩, _⟩, rfl⟩ := h
    apply hs.setColumns
    intro l hl
    rcases List.mem_append.1 hl with hl | hl
    · exact hs.columns _ l hl
    · rw [List.mem_singleton.1 hl]
      exact hn
  | dropColumn table column =>
    simp only [exec, Option.ite_none_right_eq_some, Option.some.injEq] at h
    obtain ⟨_, rfl⟩ := h
    exact hs.setColumns _ fun l hl => hs.columns _ l (List.mem_of_mem_filter hl)
  | renameColumn table source target =>
    simp only [exec, Option.ite_none_right_eq_some, Option.some.injEq, Bool.and_eq_true] at h
    obtain ⟨⟨_, ht⟩, rfl⟩ := h
    apply hs.mapColumns
    intro c hc
    split
    · exact ht
    · exact hc
  | renameTable table target =>
    simp only [exec, Option.ite_none_right_eq_some, Option.some.injEq, Bool.and_eq_true] at h
    obtain ⟨⟨_, ht⟩, rfl⟩ := h
    exact hs.renameTable (isPlain_of_isFree ht)
  | copyTable source target columns =>
    simp only [exec, Option.ite_none_right_eq_some, Option.some.injEq] at h
    exact h.2 ▸ hs
  | createIndex name table columns unique ifNotExists =>
    simp only [exec] at h
    split at h
    next =>
      cases ifNotExists <;> simp at h
      exact h ▸ hs
    next =>
      simp only [Option.ite_none_right_eq_some, Option.some.injEq, Bool.and_eq_true,
        List.all_eq_true, Bool.not_eq_true', List.isEmpty_eq_false_iff] at h
      obtain ⟨⟨⟨⟨⟨hf, _⟩, ht⟩, hne⟩, hc⟩, rfl⟩ := h
      apply hs.appendIndexes
      intro i hi
      rw [List.mem_singleton.1 hi]
      refine ⟨⟨isPlain_of_isFree hf, ht, fun c hm => ?_, by simpa using hne⟩,
        not_beginsWith_of_isFree hf⟩
      obtain ⟨n, hn, rfl⟩ := List.mem_map.1 hm
      exact (hc n hn).1
  | dropIndex name ifExists =>
    simp only [exec] at h
    split at h
    next =>
      simp only [Option.ite_none_right_eq_some, Option.some.injEq] at h
      exact h.2 ▸ hs.filterIndexes _
    next =>
      cases ifExists <;> simp at h
      exact h ▸ hs
  | dropTable name ifExists =>
    simp only [exec] at h
    split at h
    next =>
      simp only [Option.some.injEq] at h
      exact h ▸ hs.dropTable _
    next =>
      cases ifExists <;> simp at h
      exact h ▸ hs
  | pragma _ _ => exact Option.some.inj h ▸ hs
  | query _ | insert _ _ _ | update _ _ _ | delete _ _ => exact Option.some.inj h ▸ hs

theorem run_sound {script : List Statement} (hs : db.Sound) (h : db.run script = some db') :
    db'.Sound := by
  induction script generalizing db with
  | nil =>
    rw [run_nil, Option.some.injEq] at h
    exact h ▸ hs
  | cons s script ih =>
    rw [run_cons, Option.bind_eq_some_iff] at h
    obtain ⟨db₁, h₁, h₂⟩ := h
    exact ih (exec_sound hs h₁) h₂

/-- A database in which a table can be brought in line. Indexes are over columns that exist, and
those of other tables do not wait for their table. -/
structure Consistent (db : Database) (table : String) : Prop extends Sound db where
  columnNames : DistinctNames ((db.columns table).map LiveColumn.name)
  indexNames : DistinctNames (db.indexes.map StoredIndex.name)
  overColumns : ∀ i ∈ db.indexes, i.belongsTo table = true → ∀ d, i.definition = some d →
    ∀ c ∈ d.columns, db.hasColumn table c = true
  ofTables : ∀ i ∈ db.indexes, i.belongsTo table = true ∨ db.hasTable i.table = true

end Database

end RecordMapper.Engine
