import RecordMapper.Migration.Plan
import RecordMapper.Proofs.Migration.UniqueCount
/-!
What the text of a key's type has to do with a plan. The type is taken for unchanged with modifiers
and without, but only without them the key needs no index. So the text decides when there are just
as many of the engine's indexes as columns that rely on them.
-/

namespace RecordMapper

open Text

/-- The type of an integer key, without modifiers. -/
def Text.isPlainInteger (type : String) : Bool := sameName (trim type) "INTEGER"

/-- The type of an integer key, with or without modifiers. -/
def Text.isIntegerType (type : String) : Bool :=
  isPlainInteger type || beginsWith "INTEGER " (upper (trim type))

def LiveColumn.withKeyType (l : LiveColumn) (type : String) : LiveColumn :=
  if l.isKey then { l with declaredType := type } else l

/-- The table with another text for the type of its key. -/
def LiveTable.withKeyType (live : LiveTable) (type : String) : LiveTable :=
  { live with columns := live.columns.map (·.withKeyType type) }

namespace LiveColumn

variable (l : LiveColumn) (type : String)

@[simp] theorem name_withKeyType : (l.withKeyType type).name = l.name := by
  rw [withKeyType]
  split <;> rfl

@[simp] theorem notNull_withKeyType : (l.withKeyType type).notNull = l.notNull := by
  rw [withKeyType]
  split <;> rfl

@[simp] theorem isKey_withKeyType : (l.withKeyType type).isKey = l.isKey := by
  rw [withKeyType]
  split <;> rfl

end LiveColumn

namespace LiveTable

variable (live : LiveTable) (type : String)

theorem column?_withKeyType (name : String) :
    (live.withKeyType type).column? name = (live.column? name).map (·.withKeyType type) := by
  simp only [column?, withKeyType, List.find?_map, Function.comp_def, LiveColumn.name_withKeyType]

theorem detect_withKeyType (m : Mapping) :
    Rename.detect m (live.withKeyType type) = Rename.detect m live := by
  simp only [Rename.detect, column?_withKeyType, Option.isNone_map, Option.map_map,
    Function.comp_def, LiveColumn.name_withKeyType]

theorem rename_withKeyType (renames : List Rename) :
    (live.withKeyType type).rename renames = (live.rename renames).withKeyType type := by
  simp only [rename, withKeyType, List.map_map]
  congr 2
  funext l
  have hkey : ({ l with name := Rename.newName renames l.name } : LiveColumn).isKey = l.isKey := rfl
  simp only [Function.comp_apply, LiveColumn.withKeyType, hkey]
  cases l.isKey <;> rfl

theorem keyIndexCount_withKeyType {live : LiveTable} {key : LiveColumn}
    (h : live.columns.filter LiveColumn.isKey = [key]) :
    (live.withKeyType type).keyIndexCount = if isPlainInteger type then 0 else 1 := by
  have hkey : key.isKey = true :=
    (List.mem_filter.1 (h ▸ List.mem_singleton_self key)).2
  have hcomp : LiveColumn.isKey ∘ (·.withKeyType type) = LiveColumn.isKey := by
    funext l
    exact l.isKey_withKeyType type
  rw [keyIndexCount, withKeyType, List.filter_map, hcomp, h, List.map_singleton,
    LiveColumn.withKeyType, if_pos hkey]
  rfl

end LiveTable

variable {m : Mapping} {live : LiveTable} {catalog : Catalog} {capability : Capability}
  {desired : List DesiredIndex} {type type' : String} {key : LiveColumn}

/-- An integer key keeps its type whatever modifiers are reported. -/
theorem Column.typeMatches_key {c : Column} (hk : c.primaryKey = true)
    (hs : c.storage = .integer) (ht : isIntegerType type) (l : LiveColumn) :
    c.typeMatches { l with declaredType := type } = true := by
  have hauto : c.isAutoIncrement = true := by
    rw [Column.isAutoIncrement, hk, hs]
    rfl
  rw [Column.typeMatches, hauto, hs, Bool.true_and, Bool.or_eq_true]
  rcases Bool.or_eq_true_iff.1 ht with hplain | hmodified
  · exact .inl hplain
  · rw [beginsWith, List.isPrefixOf_iff_prefix] at hmodified
    right
    rw [beginsWith, List.isPrefixOf_iff_prefix]
    have hstart : "INTEGER".toList <+: "INTEGER ".toList := by decide
    exact hstart.trans hmodified

/-- The column relies on the engine's indexes, and there are just enough of them when the key needs
none. -/
structure Column.JustServed (c : Column) (m : Mapping) (live : LiveTable) : Prop where
  unique : c.unique = true
  key : c.primaryKey = false
  unserved : ¬c.Served m live
  tight : live.engineIndexCount m.table = live.unservedCount m

/-- With modifiers in the key's type one index more is needed. -/
theorem LiveTable.isUnique_withKeyType (h : live.columns.filter LiveColumn.isKey = [key])
    {c : Column} (hc : c.primaryKey = false) {previous : Option String}
    (hp : previous = Rename.previousName? (Rename.detect m live) c.name) :
    c.unique = (live.withKeyType type).isUnique m c previous ↔
      c.unique = (live.withKeyType "INTEGER").isUnique m c previous ∧
        (isPlainInteger type = true ∨ ¬c.JustServed m live) := by
  have hjust : c.JustServed m live ↔ c.unique = true ∧
      ¬live.hasUniqueIndex m.table (c.name :: previous.toList) = true ∧
        live.engineIndexCount m.table = live.unservedCount m := by
    rw [hp, Column.hasUniqueIndex_iff_served]
    exact ⟨fun h => ⟨h.unique, h.unserved, h.tight⟩, fun ⟨hu, hn, he⟩ => ⟨hu, hc, hn, he⟩⟩
  have hunique (type : String) : (live.withKeyType type).hasUniqueIndex m.table
      (c.name :: previous.toList) = live.hasUniqueIndex m.table (c.name :: previous.toList) := rfl
  have hunserved (type : String) :
      (live.withKeyType type).unservedCount m = live.unservedCount m := rfl
  have hmade (type : String) : (live.withKeyType type).engineIndexCount m.table =
      live.engineIndexCount m.table := rfl
  have hplain : isPlainInteger "INTEGER" = true := by decide +kernel
  rw [hjust, isUnique, isUnique, hunique, hunique, hunserved, hunserved, hmade, hmade,
    keyIndexCount_withKeyType type h, keyIndexCount_withKeyType "INTEGER" h, if_pos hplain]
  cases c.unique <;> cases live.hasUniqueIndex m.table (c.name :: previous.toList) <;>
    cases isPlainInteger type <;> simp
  omega

/-- The key itself passes either way. The text of its type tells for the other columns. -/
theorem Column.change?_withKeyType (h : live.columns.filter LiveColumn.isKey = [key]) {c : Column}
    (hc : c.primaryKey = true → c.storage = .integer) (ht : isIntegerType type) (l : LiveColumn)
    {renames : List Rename} (hr : renames = Rename.detect m live) :
    c.change? m (l.withKeyType type) (Rename.previousName? renames c.name)
        ((live.withKeyType type).rename renames) = none ↔
      c.change? m (l.withKeyType "INTEGER") (Rename.previousName? renames c.name)
          ((live.withKeyType "INTEGER").rename renames) = none ∧
        (isPlainInteger type = true ∨ ¬c.JustServed m live) := by
  simp only [Column.change?_eq_none_iff, LiveTable.isUnique_rename, LiveColumn.isKey_withKeyType,
    LiveColumn.notNull_withKeyType]
  cases hk : c.primaryKey with
  | true =>
    have hjust : ¬c.JustServed m live := fun hj => by
      rw [hj.key] at hk
      cases hk
    have htype (type : String) (ht : isIntegerType type) (hl : l.isKey = true) :
        c.typeMatches (l.withKeyType type) = true := by
      rw [LiveColumn.withKeyType, if_pos hl]
      exact typeMatches_key hk (hc hk) ht l
    have hplain : isIntegerType "INTEGER" = true := by decide +kernel
    cases hl : l.isKey with
    | true => simp [htype _ ht hl, htype _ hplain hl, hjust]
    | false => simp
  | false =>
    rw [LiveTable.isUnique_withKeyType h hk (by rw [hr])]
    cases hl : l.isKey with
    | true => simp
    | false =>
      have hsame (type : String) : l.withKeyType type = l := by
        rw [LiveColumn.withKeyType, hl]
        rfl
      rw [hsame, hsame]
      simp only [true_and, forall_const, and_assoc]

/-- Some column of the table relies on just enough of the engine's indexes. -/
def Mapping.AnyJustServed (m : Mapping) (live : LiveTable) : Prop :=
  ∃ c ∈ m.columns, (live.rename (Rename.detect m live)).HasColumn c.name ∧ c.JustServed m live

theorem Mapping.firstChange?_withKeyType (type : String) (renames : List Rename) :
    m.firstChange? ((live.withKeyType type).rename renames) renames = none ↔
      ∀ c ∈ m.columns, ∀ l, (live.rename renames).column? c.name = some l →
        c.change? m (l.withKeyType type) (Rename.previousName? renames c.name)
          ((live.withKeyType type).rename renames) = none := by
  rw [firstChange?_eq_none_iff]
  refine forall_congr' fun c => imp_congr_right fun _ => ?_
  rw [LiveTable.rename_withKeyType, LiveTable.column?_withKeyType]
  cases (live.rename renames).column? c.name <;> simp

theorem Mapping.firstChange?_integerType (h : live.columns.filter LiveColumn.isKey = [key])
    (hm : ∀ c ∈ m.columns, c.primaryKey = true → c.storage = .integer) (ht : isIntegerType type) :
    m.firstChange? ((live.withKeyType type).rename (Rename.detect m live)) (Rename.detect m live) =
        none ↔
      m.firstChange? ((live.withKeyType "INTEGER").rename (Rename.detect m live))
          (Rename.detect m live) = none ∧ (isPlainInteger type = true ∨ ¬m.AnyJustServed live) := by
  rw [firstChange?_withKeyType, firstChange?_withKeyType]
  have hcolumn (c : Column) (hc : c ∈ m.columns) (l : LiveColumn) :=
    Column.change?_withKeyType (m := m) h (hm c hc) ht l rfl
  constructor
  · intro hall
    refine ⟨fun c hc l hl => ((hcolumn c hc l).1 (hall c hc l hl)).1, ?_⟩
    refine or_iff_not_imp_left.2 fun hplain => ?_
    rintro ⟨c, hc, hhas, hjust⟩
    cases hl : (live.rename (Rename.detect m live)).column? c.name with
    | none => exact LiveTable.column?_eq_none.1 hl hhas
    | some l => exact ((hcolumn c hc l).1 (hall c hc l hl)).2.resolve_left hplain hjust
  · rintro ⟨hall, hnone⟩ c hc l hl
    refine (hcolumn c hc l).2 ⟨hall c hc l hl, hnone.imp_right fun hnone hjust => hnone ?_⟩
    exact ⟨c, hc, ⟨l, LiveTable.column?_eq_some hl⟩, hjust⟩

theorem Mapping.addedColumns_withKeyType (renamed : LiveTable) :
    m.addedColumns (renamed.withKeyType type) = m.addedColumns renamed := by
  simp only [addedColumns, LiveTable.column?_withKeyType, Option.isNone_map]

theorem Mapping.droppedColumns_withKeyType (renamed : LiveTable) :
    m.droppedColumns (renamed.withKeyType type) =
      (m.droppedColumns renamed).map (·.withKeyType type) := by
  simp only [droppedColumns, LiveTable.withKeyType, List.filter_map, Function.comp_def,
    LiveColumn.name_withKeyType]

/-- Besides a change, what calls for a rebuild is not a matter of types. -/
theorem Mapping.needsRebuild_withKeyType (renames : List Rename) :
    m.needsRebuild capability ((live.withKeyType type).rename renames) renames = false ↔
      m.firstChange? ((live.withKeyType type).rename renames) renames = none ∧
        (!renames.isEmpty && !capability.renameColumn) = false ∧
        (!(m.droppedColumns (live.rename renames)).isEmpty && !capability.dropColumn) = false := by
  rw [needsRebuild, Bool.or_eq_false_iff, Bool.or_eq_false_iff, Option.isSome_eq_false_iff,
    Option.isNone_iff_eq_none, and_assoc, LiveTable.rename_withKeyType, droppedColumns_withKeyType,
    List.isEmpty_map]

theorem Mapping.needsRebuild_integerType (h : live.columns.filter LiveColumn.isKey = [key])
    (hm : ∀ c ∈ m.columns, c.primaryKey = true → c.storage = .integer) (ht : isIntegerType type) :
    m.needsRebuild capability ((live.withKeyType type).rename (Rename.detect m live))
        (Rename.detect m live) = false ↔
      m.needsRebuild capability ((live.withKeyType "INTEGER").rename (Rename.detect m live))
          (Rename.detect m live) = false ∧
        (isPlainInteger type = true ∨ ¬m.AnyJustServed live) := by
  rw [needsRebuild_withKeyType, needsRebuild_withKeyType, firstChange?_integerType h hm ht,
    and_right_comm]

/-- The statements of a plan, by whether it rebuilds the table. -/
def Mapping.work (m : Mapping) (capability : Capability) (live : LiveTable)
    (desired : List DesiredIndex) (rebuilds : Bool) : List Statement :=
  let renames := Rename.detect m live
  (if rebuilds then m.rebuildStatements capability (live.rename renames) renames
    else if live.columns.isEmpty then [.createTable (.simple m.table) m.definitions true]
    else m.inPlaceStatements (live.rename renames) renames) ++
    indexStatements m.table desired (live.survivors m.table rebuilds)

theorem Mapping.map_statements_syncPlan :
    (m.syncPlan catalog capability live).map SyncPlan.statements =
      (m.desiredIndexes catalog).map fun desired => m.work capability live desired
        (m.needsRebuild capability (live.rename (Rename.detect m live))
          (Rename.detect m live)) := by
  rw [syncPlan]
  cases m.desiredIndexes catalog <;> rfl

/-- Statements are made from names alone. -/
theorem Mapping.work_withKeyType (rebuilds : Bool) :
    m.work capability (live.withKeyType type) desired rebuilds =
      m.work capability live desired rebuilds := by
  have hcopy (renamed : LiveTable) (renames : List Rename) :
      m.copyColumns (renamed.withKeyType type) renames = m.copyColumns renamed renames := by
    simp only [copyColumns, LiveTable.column?_withKeyType, Option.map_map, Function.comp_def,
      LiveColumn.name_withKeyType]
  have hempty : (live.withKeyType type).columns.isEmpty = live.columns.isEmpty :=
    List.isEmpty_map
  have hsurvivors : (live.withKeyType type).survivors m.table rebuilds =
      live.survivors m.table rebuilds := rfl
  simp only [work, LiveTable.detect_withKeyType, LiveTable.rename_withKeyType, rebuildStatements,
    hcopy, hempty, hsurvivors, inPlaceStatements, addedColumns_withKeyType,
    droppedColumns_withKeyType, List.map_map, Function.comp_def, LiveColumn.name_withKeyType]

/-- Only a rebuild turns off the checks of foreign keys. -/
theorem Mapping.pragma_mem_work (rebuilds : Bool) :
    .pragma "foreign_keys" (some "OFF") ∈ m.work capability live desired rebuilds ↔
      rebuilds = true := by
  cases rebuilds with
  | true => simp [work, rebuildStatements]
  | false => cases he : live.columns.isEmpty <;> simp [work, he, inPlaceStatements, indexStatements]

theorem Mapping.work_inj {rebuilds rebuilds' : Bool} :
    m.work capability live desired rebuilds = m.work capability live desired rebuilds' ↔
      rebuilds = rebuilds' := by
  constructor
  · intro h
    rw [Bool.eq_iff_iff, ← pragma_mem_work, h, pragma_mem_work]
  · rintro rfl
    rfl

/-- Nothing else calls for a rebuild, and some column relies on just enough of the engine's
indexes. -/
structure Mapping.NoneToSpare (m : Mapping) (catalog : Catalog) (capability : Capability)
    (live : LiveTable) : Prop where
  resolves : ∃ desired, m.desiredIndexes catalog = .ok desired
  settled : m.needsRebuild capability
    ((live.withKeyType "INTEGER").rename (Rename.detect m live)) (Rename.detect m live) = false
  relying : m.AnyJustServed live

/-- Of an integer key's type the modifiers do not matter, unless the engine's indexes are just
enough when the key needs none. Then a plan rebuilds the table for the modifiers alone. -/
theorem statements_withKeyType_iff {d : Declaration} (hm : d.build = .ok m) {k : Column}
    (hk : m.primaryKey? = some k) (hs : k.storage = .integer)
    (h : live.columns.filter LiveColumn.isKey = [key]) (ht : isIntegerType type = true)
    (ht' : isIntegerType type' = true) :
    (m.syncPlan catalog capability (live.withKeyType type)).map SyncPlan.statements =
        (m.syncPlan catalog capability (live.withKeyType type')).map SyncPlan.statements ↔
      (isPlainInteger type = true ↔ isPlainInteger type' = true) ∨
        ¬m.NoneToSpare catalog capability live := by
  have hinteger : ∀ c ∈ m.columns, c.primaryKey = true → c.storage = .integer := by
    intro c hc hck
    have hck' : c = k := (Mapping.valid_of_build hm).eq_of_primaryKey hc
      (List.mem_of_find?_eq_some hk) hck (List.find?_some hk)
    rw [hck', hs]
  rw [Mapping.map_statements_syncPlan, Mapping.map_statements_syncPlan,
    LiveTable.detect_withKeyType, LiveTable.detect_withKeyType]
  simp only [Mapping.work_withKeyType]
  cases hd : m.desiredIndexes catalog with
  | error fault =>
    have hno : ¬m.NoneToSpare catalog capability live := fun hn => by
      obtain ⟨desired, hdesired⟩ := hn.resolves
      rw [hd] at hdesired
      cases hdesired
    exact iff_of_true rfl (.inr hno)
  | ok desired =>
    have hspare : m.NoneToSpare catalog capability live ↔
        m.needsRebuild capability ((live.withKeyType "INTEGER").rename (Rename.detect m live))
          (Rename.detect m live) = false ∧ m.AnyJustServed live :=
      ⟨fun hn => ⟨hn.settled, hn.relying⟩, fun ⟨hsettled, hany⟩ => ⟨⟨desired, hd⟩, hsettled, hany⟩⟩
    have hequal {a b : Bool} : a = b ↔ (a = false ↔ b = false) := by
      cases a <;> cases b <;> simp
    simp only [Except.map, Except.ok.injEq, Mapping.work_inj]
    rw [hequal, Mapping.needsRebuild_integerType h hinteger ht,
      Mapping.needsRebuild_integerType h hinteger ht', hspare]
    by_cases hsettled : m.needsRebuild capability
      ((live.withKeyType "INTEGER").rename (Rename.detect m live)) (Rename.detect m live) = false
    · by_cases hany : m.AnyJustServed live <;> simp [hsettled, hany]
    · simp [hsettled]

/-- The table of accounts with the engine's indexes. -/
def accountsTable (made : List String) : LiveTable where
  columns := [
    { name := "id", declaredType := "INTEGER", keyPosition := 1 },
    { name := "mail", declaredType := "TEXT", notNull := true }]
  indexes := made.map fun name => ⟨name, "accounts", none⟩

def twoMade : List String := ["sqlite_autoindex_accounts_1", "sqlite_autoindex_accounts_2"]

/-- With an index to spare the modifiers make no difference. -/
theorem statements_accounts :
    ((accountsByMail true).assemble.syncPlan [] .full
        ((accountsTable twoMade).withKeyType " integer ")).map SyncPlan.statements =
      ((accountsByMail true).assemble.syncPlan [] .full ((accountsTable twoMade).withKeyType
        "INTEGER PRIMARY KEY AUTOINCREMENT")).map SyncPlan.statements := by
  have hm : (accountsByMail true).build = .ok (accountsByMail true).assemble := rfl
  have hk : (accountsByMail true).assemble.primaryKey? =
      some { field := "id", storage := .integer, primaryKey := true } := rfl
  have h : (accountsTable twoMade).columns.filter LiveColumn.isKey =
      [{ name := "id", declaredType := "INTEGER", keyPosition := 1 }] := rfl
  refine (statements_withKeyType_iff hm hk rfl h (by decide +kernel) (by decide +kernel)).2
    (.inr fun hn => ?_)
  obtain ⟨c, _, _, hjust⟩ := hn.relying
  have hcount : (accountsTable twoMade).engineIndexCount "accounts" ≠
      (accountsTable twoMade).unservedCount (accountsByMail true).assemble := by
    decide +kernel
  exact hcount hjust.tight

/-- The one index that the engine made is for the address. With the modifiers that the key was
created with, the plan takes it for the key's and rebuilds the table. -/
theorem accounts_rebuilt_for_modifiers :
    let live := accountsTable ["sqlite_autoindex_accounts_1"]
    ∃ plan plan', (accountsByMail true).build = .ok (accountsByMail true).assemble ∧
      isIntegerType "INTEGER PRIMARY KEY AUTOINCREMENT" = true ∧
      (accountsByMail true).assemble.syncPlan [] .full live = .ok plan ∧
      (accountsByMail true).assemble.syncPlan [] .full
        (live.withKeyType "INTEGER PRIMARY KEY AUTOINCREMENT") = .ok plan' ∧
      plan.script [] .full = .ok [] ∧ plan'.script [] .full = .ok [
        "PRAGMA foreign_keys=OFF;",
        "CREATE TABLE accounts_new (id INTEGER PRIMARY KEY AUTOINCREMENT, " ++
          "mail TEXT NOT NULL UNIQUE);",
        "INSERT INTO accounts_new (id, mail) SELECT id, mail FROM accounts;",
        "DROP TABLE accounts;",
        "ALTER TABLE accounts_new RENAME TO accounts;",
        "PRAGMA foreign_keys=ON;"] :=
  ⟨_, _, rfl, by decide +kernel, rfl, rfl, by rfl, by rfl⟩

end RecordMapper
