import RecordMapper.Migration.Plan
import RecordMapper.Proofs.Schema.Validity
/-!
A live table that is in line with its mapping has no work left.
-/

namespace RecordMapper

open Text

theorem Column.change?_eq_none_iff {c : Column} {m : Mapping} {l : LiveColumn}
    {previous : Option String} {live : LiveTable} :
    c.change? m l previous live = none ↔ c.typeMatches l = true ∧ c.primaryKey = l.isKey ∧
      (c.primaryKey = false → c.nullable = !l.notNull ∧ c.unique = live.isUnique m c previous) := by
  cases ht : c.typeMatches l <;> cases hk : c.primaryKey <;> cases hl : l.isKey <;>
    cases hn : c.nullable <;> cases ho : l.notNull <;> simp [Column.change?, ht, hk, hl, hn, ho]

theorem Mapping.firstChange?_eq_none_iff {m : Mapping} {renamed : LiveTable}
    {renames : List Rename} :
    m.firstChange? renamed renames = none ↔ ∀ c ∈ m.columns, ∀ l,
      renamed.column? c.name = some l →
        c.change? m l (Rename.previousName? renames c.name) renamed = none := by
  rw [firstChange?, List.findSome?_eq_none_iff]
  refine forall_congr' fun c => imp_congr_right fun _ => ?_
  cases renamed.column? c.name <;> simp

/-- Each declared column is there unchanged, and every column is declared. -/
structure LiveTable.Matches (live : LiveTable) (m : Mapping) : Prop where
  column : ∀ c ∈ m.columns, ∃ l, live.column? c.name = some l ∧ c.change? m l none live = none
  declared : ∀ l ∈ live.columns, (m.columnByName? l.name).isSome = true

/-- The table enforces uniqueness on the columns that are declared unique, the key aside. -/
def Mapping.UniqueIn (m : Mapping) (live : LiveTable) : Prop :=
  ∀ c ∈ m.columns, c.unique = true → c.primaryKey = false → live.isUnique m c none = true

/-- Each wanted index is there, and no index of the table is there that should go. -/
structure LiveTable.Indexed (live : LiveTable) (table : String) (desired : List DesiredIndex) :
    Prop where
  wanted : ∀ d ∈ desired, (live.indexes.any fun i => sameName i.name d.name) = true
  noStale : ∀ i ∈ live.indexes, i.belongsTo table = true → i.isUnique = false →
    i.isEngineMade = false → (desired.any fun d => sameName d.name i.name) = true

variable {m : Mapping} {live : LiveTable} {catalog : Catalog} {desired : List DesiredIndex}

/-- There is no index work left exactly when the wanted indexes are there and no stale one is. -/
theorem LiveTable.indexStatements_eq_nil {table : String} :
    indexStatements table desired live.indexes = [] ↔ live.Indexed table desired := by
  rw [indexStatements, List.append_eq_nil_iff, List.map_eq_nil_iff, List.map_eq_nil_iff,
    List.filter_eq_nil_iff, List.filter_eq_nil_iff]
  constructor
  · rintro ⟨hmissing, hstale⟩
    refine ⟨fun d hd => by simpa using hmissing d hd, fun i hi hb hu he => ?_⟩
    have hkept := hstale i hi
    simp only [hb, hu, he, Bool.not_false, Bool.true_and, Bool.not_eq_true', Bool.not_eq_false]
      at hkept
    exact hkept
  · intro h
    constructor
    · intro d hd
      simp [h.wanted d hd]
    · intro i hi hc
      simp only [Bool.and_eq_true, Bool.not_eq_true'] at hc
      obtain ⟨⟨⟨hb, hu⟩, he⟩, hd⟩ := hc
      rw [h.noStale i hi hb hu he] at hd
      cases hd

namespace Mapping

variable {renamed : LiveTable} {name : String}

theorem mem_addedColumns {c : Column} : c ∈ m.addedColumns renamed ↔
    c ∈ m.columns ∧ ∀ n ∈ renamed.columns.map LiveColumn.name, lower n ≠ lower c.name := by
  simp [addedColumns, LiveTable.column?, sameName_iff]

theorem any_droppedColumns :
    ((m.droppedColumns renamed).any fun d => sameName name d.name) = true ↔
      m.columnByName? name = none ∧
        ∃ n ∈ renamed.columns.map LiveColumn.name, lower n = lower name := by
  simp only [droppedColumns, List.any_eq_true, List.mem_filter, Option.isNone_iff_eq_none,
    sameName_iff]
  constructor
  · rintro ⟨l, ⟨hl, hn⟩, he⟩
    exact ⟨(columnByName?_congr he).trans hn, l.name, List.mem_map_of_mem hl, he.symm⟩
  · rintro ⟨hn, n, hm, he⟩
    obtain ⟨l, hl, rfl⟩ := List.mem_map.1 hm
    exact ⟨l, ⟨hl, (columnByName?_congr he).trans hn⟩, he.symm⟩

/-- A column under a declared name is not dropped. -/
theorem Valid.not_dropped (h : m.Valid) {c : Column} (hc : c ∈ m.columns)
    (hn : lower name = lower c.name) :
    ((m.droppedColumns renamed).any fun d => sameName name d.name) = false := by
  rw [Bool.eq_false_iff, ne_eq, any_droppedColumns, h.columnByName hc hn.symm]
  rintro ⟨hnone, _⟩
  cases hnone

end Mapping

theorem LiveTable.rename_nil (live : LiveTable) : live.rename [] = live := by
  have hid : Rename.newName [] = id := rfl
  simp [LiveTable.rename, hid]

namespace LiveTable.Matches

variable (h : live.Matches m)

include h

theorem detect : Rename.detect m live = [] := by
  rw [Rename.detect, List.filterMap_eq_nil_iff]
  intro c hc
  obtain ⟨l, hl, _⟩ := h.column c hc
  simp [hl]

theorem uniqueIn : m.UniqueIn live := by
  intro c hc hcu hkey
  obtain ⟨l, _, hnone⟩ := h.column c hc
  rw [← ((Column.change?_eq_none_iff.1 hnone).2.2 hkey).2, hcu]

theorem firstChange : m.firstChange? live [] = none := by
  rw [Mapping.firstChange?_eq_none_iff]
  intro c hc l hl
  obtain ⟨l', hl', hn⟩ := h.column c hc
  cases hl.symm.trans hl'
  exact hn

theorem addedColumns : m.addedColumns live = [] := by
  rw [Mapping.addedColumns, List.filter_eq_nil_iff]
  intro c hc
  obtain ⟨l, hl, _⟩ := h.column c hc
  simp [hl]

theorem droppedColumns : m.droppedColumns live = [] := by
  rw [Mapping.droppedColumns, List.filter_eq_nil_iff]
  intro l hl
  have hd := h.declared l hl
  rw [Option.isSome_iff_ne_none] at hd
  simpa using hd

theorem needsRebuild (capability : Capability) : m.needsRebuild capability live [] = false := by
  simp [Mapping.needsRebuild, h.firstChange, h.droppedColumns]

theorem columnStatements (hne : m.columns ≠ []) (capability : Capability) :
    m.columnStatements capability live live [] = [] := by
  have hl : live.columns ≠ [] := by
    obtain ⟨c, cs, hc⟩ := List.exists_cons_of_ne_nil hne
    obtain ⟨l, hl, _⟩ := h.column c (by simp [hc])
    intro he
    simp [LiveTable.column?, he] at hl
  simp [Mapping.columnStatements, h.needsRebuild, hl, Mapping.inPlaceStatements, h.addedColumns,
    h.droppedColumns]

/-- Of a table that matches only the indexes are planned. -/
theorem statements (hv : m.Valid) (hd : m.desiredIndexes catalog = .ok desired)
    (capability : Capability) :
    ∃ plan, m.syncPlan catalog capability live = .ok plan ∧
      plan.statements = indexStatements m.table desired live.indexes := by
  have hs : live.survivors m.table false = live.indexes := by
    simp [LiveTable.survivors]
  simp only [Mapping.syncPlan, h.detect, live.rename_nil, h.needsRebuild, hd, hs,
    h.columnStatements hv.columns_ne_nil]
  exact ⟨_, rfl, rfl⟩

theorem syncPlan (hv : m.Valid) (hi : live.Indexed m.table desired)
    (hd : m.desiredIndexes catalog = .ok desired) (capability : Capability) :
    ∃ plan, m.syncPlan catalog capability live = .ok plan ∧ plan.statements = [] := by
  obtain ⟨plan, hplan, hs⟩ := h.statements hv hd capability
  exact ⟨plan, hplan, hs.trans (LiveTable.indexStatements_eq_nil.2 hi)⟩

end LiveTable.Matches

end RecordMapper
