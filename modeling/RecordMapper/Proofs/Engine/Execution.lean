import RecordMapper.Migration.Plan
import RecordMapper.Proofs.Engine.Database
/-!
What a statement and a script did to a database when the engine took them.
-/

namespace RecordMapper

theorem Mapping.Valid.definitions_ne_nil {m : Mapping} (h : m.Valid) : m.definitions ≠ [] := by
  simpa [definitions] using h.columns_ne_nil

namespace Engine

open Text Sql

@[simp] theorem text_simple (s : String) : (Name.simple s).text = s := by
  simp [Name.simple, Name.text]

namespace StoredIndex

@[simp] theorem belongsTo_mapColumns (i : StoredIndex) (f : String → String) (table : String) :
    (i.mapColumns f).belongsTo table = i.belongsTo table := rfl

theorem mapColumns_id (i : StoredIndex) : i.mapColumns id = i := by
  simp [mapColumns]

theorem mapColumns_mapColumns (i : StoredIndex) (f g : String → String) :
    (i.mapColumns f).mapColumns g = i.mapColumns (g ∘ f) := by
  simp [mapColumns, Function.comp_def]

/-- The index that the engine holds once a wanted index is created. -/
def wanted (d : DesiredIndex) : StoredIndex := ⟨d.name, d.table, some ⟨false, [d.column], false⟩⟩

end StoredIndex

namespace Database

variable {db db' : Database} {table : String}

theorem columns_setColumns (db : Database) (t u : String) (columns : List LiveColumn) :
    (db.setColumns t columns).columns u =
      if lower u = lower t then columns else db.columns u := rfl

@[simp] theorem columns_setColumns_self (db : Database) (t : String) (columns : List LiveColumn) :
    (db.setColumns t columns).columns t = columns := by
  rw [columns_setColumns, if_pos rfl]

@[simp] theorem indexes_setColumns (db : Database) (t : String) (columns : List LiveColumn) :
    (db.setColumns t columns).indexes = db.indexes := rfl

@[simp] theorem setColumns_columns (db : Database) (t : String) :
    db.setColumns t (db.columns t) = db := by
  have h : (fun name => if name = lower t then db.columns t else db.tables name) = db.tables := by
    funext name
    split
    next hn => rw [hn]; rfl
    next => rfl
  simp only [setColumns, h]

@[simp] theorem setColumns_setColumns (db : Database) (t : String) (a b : List LiveColumn) :
    (db.setColumns t a).setColumns t b = db.setColumns t b := by
  simp only [setColumns, Database.mk.injEq, and_true]
  funext name
  split <;> rfl

@[simp] theorem columns_mapIndexes (db : Database) (t u : String)
    (f : StoredIndex → StoredIndex) : (db.mapIndexes t f).columns u = db.columns u := rfl

@[simp] theorem columns_mapColumns (db : Database) (t : String) (f : String → String) :
    (db.mapColumns t f).columns t = (db.columns t).map fun l => { l with name := f l.name } := by
  simp [mapColumns]

theorem indexes_mapColumns (db : Database) (t : String) (f : String → String) :
    (db.mapColumns t f).indexes =
      db.indexes.map fun i => if i.belongsTo t then i.mapColumns f else i := rfl

theorem mapColumns_id (db : Database) (t : String) : db.mapColumns t id = db := by
  simp [mapColumns, mapIndexes, StoredIndex.mapColumns_id]

theorem tables_mapColumns (db : Database) (t : String) (f : String → String) :
    (db.mapColumns t f).tables =
      (db.setColumns t ((db.columns t).map fun l => { l with name := f l.name })).tables := rfl

theorem ext {a b : Database} (ht : a.tables = b.tables) (hi : a.indexes = b.indexes) : a = b := by
  cases a
  cases b
  simp_all

theorem mapColumns_mapColumns (db : Database) (t : String) (f g : String → String) :
    (db.mapColumns t f).mapColumns t g = db.mapColumns t (g ∘ f) := by
  apply ext
  · have hc : ((db.mapColumns t f).columns t).map (fun l => { l with name := g l.name }) =
        (db.columns t).map fun l => { l with name := (g ∘ f) l.name } := by
      simp
    rw [tables_mapColumns, hc, tables_mapColumns]
    funext name
    simp only [setColumns, tables_mapColumns]
    split <;> rfl
  · rw [indexes_mapColumns, indexes_mapColumns, indexes_mapColumns, List.map_map]
    apply List.map_congr_left
    intro i _
    by_cases h : i.belongsTo t = true
    · simp only [Function.comp_apply, h, StoredIndex.belongsTo_mapColumns, if_true,
        StoredIndex.mapColumns_mapColumns]
    · simp only [Function.comp_apply, h, if_false, Bool.false_eq_true]

theorem run_nil (db : Database) : db.run [] = some db := rfl

theorem run_cons (db : Database) (s : Statement) (script : List Statement) :
    db.run (s :: script) = (db.exec s).bind (·.run script) := rfl

theorem run_append (db : Database) (a b : List Statement) :
    db.run (a ++ b) = (db.run a).bind (·.run b) := by
  simp only [run, List.foldlM_append]
  rfl

/-! ### Columns -/

/-- Renaming columns one after the other is renaming them at once when no new name is a name that
a later rename starts from. -/
theorem newName_cons {r : Rename} {rs : List Rename}
    (h : ∀ r' ∈ rs, lower r.target ≠ lower r'.source) :
    Rename.newName (r :: rs) =
      Rename.newName rs ∘ fun name => if sameName r.source name then r.target else name := by
  funext name
  have hnone : rs.find? (fun r' => sameName r'.source r.target) = none := by
    rw [List.find?_eq_none]
    intro r' hr hs
    exact h r' hr (sameName_iff.1 hs).symm
  by_cases hn : sameName r.source name = true
  · simp [Rename.newName, hn, hnone]
  · simp [Rename.newName, hn]

theorem exec_renameColumn {source target : String}
    (h : db.exec (.renameColumn (.simple table) (.simple source) (.simple target)) = some db') :
    db' = db.renameColumn table source target := by
  simp only [exec, text_simple, Option.ite_none_right_eq_some, Option.some.injEq] at h
  exact h.2.symm

theorem run_renames {renames : List Rename}
    (hr : ∀ r ∈ renames, ∀ r' ∈ renames, lower r.target ≠ lower r'.source)
    (h : db.run (renames.map fun r =>
      .renameColumn (.simple table) (.simple r.source) (.simple r.target)) = some db') :
    db' = db.mapColumns table (Rename.newName renames) := by
  induction renames generalizing db with
  | nil =>
    simp only [List.map_nil, run_nil, Option.some.injEq] at h
    have hid : Rename.newName [] = id := rfl
    rw [← h, hid, mapColumns_id]
  | cons r rs ih =>
    rw [List.map_cons, run_cons, Option.bind_eq_some_iff] at h
    obtain ⟨db₁, h₁, h₂⟩ := h
    have hi := ih (fun a ha b hb => hr a (.tail _ ha) b (.tail _ hb)) h₂
    rw [hi, exec_renameColumn h₁, renameColumn, mapColumns_mapColumns,
      newName_cons fun r' h' => hr r List.mem_cons_self r' (.tail _ h')]

theorem exec_addColumn {d : ColumnDef} (h : db.exec (.addColumn (.simple table) d) = some db') :
    db' = db.addColumn table d ∧ d.isKey = false ∧ d.unique = false ∧ isPlain d.name = true := by
  simp only [exec, text_simple, Option.ite_none_right_eq_some, Option.some.injEq, Bool.and_eq_true,
    Bool.not_eq_true'] at h
  obtain ⟨⟨⟨⟨_, hn⟩, hk⟩, hu⟩, rfl⟩ := h
  exact ⟨rfl, hk, hu, hn⟩

theorem run_adds {added : List Column}
    (h : db.run (added.map fun c => .addColumn (.simple table) c.definition) = some db') :
    db' = db.setColumns table (db.columns table ++ added.map (·.definition.stored)) ∧
      ∀ c ∈ added, c.primaryKey = false ∧ c.unique = false ∧ isPlain c.name = true := by
  induction added generalizing db with
  | nil =>
    simp only [List.map_nil, run_nil, Option.some.injEq] at h
    simp [h]
  | cons c cs ih =>
    rw [List.map_cons, run_cons, Option.bind_eq_some_iff] at h
    obtain ⟨db₁, h₁, h₂⟩ := h
    obtain ⟨rfl, hc⟩ := exec_addColumn h₁
    obtain ⟨rfl, hcs⟩ := ih h₂
    constructor
    · simp [addColumn]
    · intro d hd
      rcases List.mem_cons.1 hd with rfl | hd
      · simpa using hc
      · exact hcs d hd

theorem canDrop_iff {column : String} :
    db.canDrop table column = true ↔ db.hasColumn table column = true ∧
      (∀ l ∈ db.columns table, lower l.name = lower column → l.isKey = false) ∧
      (∃ l ∈ db.columns table, lower l.name ≠ lower column) ∧
      ∀ i ∈ db.indexes, i.belongsTo table = true → i.uses column = false := by
  simp [canDrop, sameName, imp_iff_not_or, and_assoc]

theorem exec_dropColumn {column : String}
    (h : db.exec (.dropColumn (.simple table) (.simple column)) = some db') :
    db' = db.dropColumn table column ∧
      (∀ l ∈ db.columns table, lower l.name = lower column → l.isKey = false) ∧
      ∀ i ∈ db.indexes, i.belongsTo table = true → i.uses column = false := by
  simp only [exec, text_simple, Option.ite_none_right_eq_some, Option.some.injEq, canDrop_iff] at h
  obtain ⟨⟨_, hk, _, hi⟩, rfl⟩ := h
  exact ⟨rfl, hk, hi⟩

theorem run_drops {dropped : List LiveColumn}
    (h : db.run (dropped.map fun d => .dropColumn (.simple table) (.simple d.name)) = some db') :
    db' = db.setColumns table
        ((db.columns table).filter fun l => !dropped.any fun d => sameName l.name d.name) ∧
      ∀ d ∈ dropped,
        (∀ l ∈ db.columns table, lower l.name = lower d.name → l.isKey = false) ∧
          ∀ i ∈ db.indexes, i.belongsTo table = true → i.uses d.name = false := by
  induction dropped generalizing db with
  | nil =>
    simp only [List.map_nil, run_nil, Option.some.injEq] at h
    simp [h]
  | cons d ds ih =>
    rw [List.map_cons, run_cons, Option.bind_eq_some_iff] at h
    obtain ⟨db₁, h₁, h₂⟩ := h
    obtain ⟨rfl, hk, hi⟩ := exec_dropColumn h₁
    obtain ⟨rfl, hds⟩ := ih h₂
    constructor
    · simp [dropColumn, List.filter_filter, Bool.and_comm]
    · intro e he
      rcases List.mem_cons.1 he with rfl | he
      · exact ⟨hk, hi⟩
      · refine ⟨fun l hl hn => ?_, (hds e he).2⟩
        by_cases hd : lower l.name = lower d.name
        · exact hk l hl hd
        · apply (hds e he).1 l _ hn
          simp [dropColumn, hl, sameName, hd]

/-! ### Tables -/

theorem columns_createTable (db : Database) (t u : String) (columns : List ColumnDef) :
    (db.createTable t columns).columns u =
      if lower u = lower t then columns.map ColumnDef.stored else db.columns u := rfl

theorem exec_createTable {columns : List ColumnDef} {ifNotExists : Bool}
    (hn : db.hasTable table = false)
    (h : db.exec (.createTable (.simple table) columns ifNotExists) = some db') :
    db' = db.createTable table columns ∧ isFree table = true ∧
      ∀ c ∈ columns, isPlain c.name = true := by
  simp only [exec, text_simple, hn, Bool.false_eq_true, if_false, Option.ite_none_right_eq_some,
    Option.some.injEq, Bool.and_eq_true, List.all_eq_true] at h
  obtain ⟨⟨⟨⟨⟨hf, _⟩, _⟩, hc⟩, _⟩, rfl⟩ := h
  exact ⟨rfl, hf, hc⟩

/-- A rebuild fills a new table under another name and lets it take the place of the old one. -/
theorem run_rebuild {m : Mapping} {capability : Capability} {renamed : LiveTable}
    {renames : List Rename}
    (h : db.run (m.rebuildStatements capability renamed renames) = some db') :
    let shadow := m.table ++ capability.shadowSuffix
    db' = ((db.createTable shadow m.definitions).dropTable m.table).renameTable shadow m.table ∧
      lower shadow ≠ lower m.table ∧ db.hasTable shadow = false ∧ isFree m.table = true ∧
      ∀ c ∈ m.columns, isPlain c.name = true := by
  intro shadow
  simp only [Mapping.rebuildStatements, run_cons, Option.bind_eq_some_iff] at h
  obtain ⟨db₀, h₀, db₁, h₁, db₂, h₂, db₃, h₃, db₄, h₄, db₅, h₅, h₆⟩ := h
  simp only [exec, Option.some.injEq] at h₀ h₅
  subst h₀ h₅
  have hs : db.hasTable shadow = false := by
    rw [Bool.eq_false_iff]
    intro ht
    simp [exec, shadow, ht] at h₁
  obtain ⟨rfl, _, hc⟩ := exec_createTable hs h₁
  simp only [exec, Option.ite_none_right_eq_some, Option.some.injEq] at h₂
  obtain ⟨_, rfl⟩ := h₂
  simp only [exec, text_simple, Bool.false_eq_true, if_false, Option.ite_none_right_eq_some,
    Option.some.injEq] at h₃
  obtain ⟨_, rfl⟩ := h₃
  simp only [exec, text_simple, Option.ite_none_right_eq_some, Option.some.injEq, Bool.and_eq_true]
    at h₄
  obtain ⟨⟨⟨ht, _⟩, hf⟩, rfl⟩ := h₄
  simp only [run_nil, Option.some.injEq] at h₆
  refine ⟨h₆.symm, fun he => ?_, hs, hf, m.plain_definitions.1 hc⟩
  simp [hasTable, dropTable, columns, setColumns, shadow, he] at ht

/-! ### Indexes -/

/-- A wanted index is created unless its name is taken. -/
theorem exec_createIndex {d : DesiredIndex}
    (h : db.exec (.createIndex (.simple d.name) (.simple d.table) [.simple d.column] false true) =
      some db') :
    db' = db ∧ db.hasIndex d.name = true ∨
      db' = { db with indexes := db.indexes ++ [.wanted d] } ∧ isFree d.name = true ∧
        db.hasColumn d.table d.column = true ∧ db.hasIndex d.name = false := by
  simp only [exec, text_simple] at h
  split at h
  next hn =>
    simp only [if_true, Option.some.injEq] at h
    exact .inl ⟨h.symm, hn⟩
  next hn =>
    simp only [List.isEmpty_cons, List.all_cons, List.all_nil, text_simple,
      Option.ite_none_right_eq_some, Option.some.injEq, Bool.and_eq_true] at h
    obtain ⟨⟨⟨⟨⟨hf, _⟩, _⟩, _⟩, ⟨_, hc⟩, _⟩, rfl⟩ := h
    exact .inr ⟨rfl, hf, hc, by simpa using hn⟩

theorem run_creates {missing : List DesiredIndex}
    (h : db.run (missing.map fun d =>
      .createIndex (.simple d.name) (.simple d.table) [.simple d.column] false true) = some db') :
    ∃ added : List StoredIndex, db' = { db with indexes := db.indexes ++ added } ∧
      (∀ i ∈ added, ∃ d ∈ missing, i = .wanted d ∧ isFree d.name = true ∧
        db.hasColumn d.table d.column = true) ∧
      (∀ d ∈ missing, db'.hasIndex d.name = true) ∧
      (DistinctNames (db.indexes.map StoredIndex.name) →
        DistinctNames ((db.indexes ++ added).map StoredIndex.name)) := by
  induction missing generalizing db with
  | nil =>
    simp only [List.map_nil, run_nil, Option.some.injEq] at h
    exact ⟨[], by simp [h], by simp, by simp, by simp⟩
  | cons d ds ih =>
    rw [List.map_cons, run_cons, Option.bind_eq_some_iff] at h
    obtain ⟨db₁, h₁, h₂⟩ := h
    obtain ⟨added, rfl, ha, hd, hu⟩ := ih h₂
    rcases exec_createIndex h₁ with ⟨rfl, hn⟩ | ⟨rfl, hf, hc, hn⟩
    · refine ⟨added, rfl, fun i hi => ?_, fun e he => ?_, hu⟩
      · obtain ⟨e, he, hi⟩ := ha i hi
        exact ⟨e, .tail _ he, hi⟩
      · rcases List.mem_cons.1 he with rfl | he
        · simp only [hasIndex, List.any_append, Bool.or_eq_true] at hn ⊢
          exact .inl hn
        · exact hd e he
    · refine ⟨StoredIndex.wanted d :: added, by simp, fun i hi => ?_, fun e he => ?_,
        fun hnames => ?_⟩
      · rcases List.mem_cons.1 hi with rfl | hi
        · exact ⟨d, List.mem_cons_self, rfl, hf, hc⟩
        · obtain ⟨e, he, hi⟩ := ha i hi
          exact ⟨e, .tail _ he, hi⟩
      · rcases List.mem_cons.1 he with rfl | he
        · simp [hasIndex, StoredIndex.wanted, sameName_refl]
        · exact hd e he
      · have hnew : lower d.name ∉ (db.indexes.map StoredIndex.name).map lower := by
          simpa [hasIndex, sameName_iff] using hn
        have hnext :
            DistinctNames ((db.indexes ++ [StoredIndex.wanted d]).map StoredIndex.name) := by
          rw [DistinctNames, List.map_append, List.map_append, List.nodup_append_comm]
          exact List.nodup_cons.2 ⟨hnew, hnames⟩
        rw [List.append_cons]
        exact hu hnext

theorem exec_dropIndex {name : String}
    (h : db.exec (.dropIndex (.simple name) true) = some db') :
    db' = { db with indexes := db.indexes.filter fun i => !sameName i.name name } ∧
      ∀ i ∈ db.indexes, lower i.name = lower name → i.definition.isSome = true := by
  simp only [exec, text_simple, if_true] at h
  split at h
  next hn =>
    simp only [Option.ite_none_right_eq_some, Option.some.injEq, List.all_eq_true, Bool.or_eq_true,
      Bool.not_eq_true'] at h
    obtain ⟨hd, rfl⟩ := h
    refine ⟨rfl, fun i hi he => ?_⟩
    rcases hd i hi with hs | hs
    · simp [sameName, he] at hs
    · exact hs
  next hn =>
    have hall : ∀ i ∈ db.indexes, sameName i.name name = false := by
      intro i hi
      rw [Bool.eq_false_iff]
      intro hs
      exact hn (List.any_eq_true.2 ⟨i, hi, hs⟩)
    simp only [Option.some.injEq] at h
    subst h
    constructor
    · have hf : db.indexes.filter (fun i => !sameName i.name name) = db.indexes := by
        rw [List.filter_eq_self]
        intro i hi
        rw [hall i hi]
        rfl
      rw [hf]
    · intro i hi he
      have hs := hall i hi
      simp [sameName, he] at hs

theorem run_dropIndexes {stale : List LiveIndex}
    (h : db.run (stale.map fun i => .dropIndex (.simple i.name) true) = some db') :
    db' = { db with
        indexes := db.indexes.filter (fun i => !(stale.any fun s => sameName i.name s.name)) } ∧
      ∀ s ∈ stale, ∀ i ∈ db.indexes, lower i.name = lower s.name → i.definition.isSome = true := by
  induction stale generalizing db with
  | nil =>
    simp only [List.map_nil, run_nil, Option.some.injEq] at h
    simp [← h]
  | cons s ss ih =>
    rw [List.map_cons, run_cons, Option.bind_eq_some_iff] at h
    obtain ⟨db₁, h₁, h₂⟩ := h
    obtain ⟨rfl, hs⟩ := exec_dropIndex h₁
    obtain ⟨rfl, hss⟩ := ih h₂
    constructor
    · simp [List.filter_filter, Bool.and_comm]
    · intro t ht i hi he
      rcases List.mem_cons.1 ht with rfl | ht
      · exact hs i hi he
      · by_cases hn : lower i.name = lower s.name
        · exact hs i hi hn
        · exact hss t ht i (by simp [hi, sameName, hn]) he

end Database

end Engine

end RecordMapper
