import RecordMapper.Proofs.Query.Scope
import RecordMapper.Proofs.Wire.Deciding
/-!
Decoding a projected field from the alias it was projected under. The alias is the field's name, but
result columns are matched with the names of columns first.
-/

namespace RecordMapper

open Text Sql

variable {m : Mapping}

namespace Mapping

/-- A row of one cell under this name is decoded into the field of `c` and touches no other, and
stops the program where the field does. -/
def DecodesInto (m : Mapping) (name : String) (c : Column) : Prop :=
  ∀ r f w notes, Record.target? r c.field = some f →
    ((f.decode c.storage w).2 ≠ .overflow →
      ∃ s, m.decodeRow [name] [w] { record := r, notes } = (s, none) ∧ s.visited = [c.field] ∧
        s.record.field? c.field = some (f.decode c.storage w).1 ∧
        ∀ other ≠ c.field, s.record.field? other = r.field? other) ∧
    ((f.decode c.storage w).2 = .overflow →
      ∃ s, m.decodeRow [name] [w] { record := r, notes } = (s, some .overflow))

theorem decodesInto_of_resultColumn? {name : String} {c : Column}
    (h : m.resultColumn? name = some c) : m.DecodesInto name c := by
  intro r f w notes hf
  let start : RowState := { record := r, notes }
  have hn : c.field ∉ start.visited := List.not_mem_nil
  have hrow : m.decodeRow [name] [w] start = m.decodeCells [(name, w)] start := rfl
  constructor
  · intro ho
    obtain ⟨s, hcell, hvisited, hfield, hother, _⟩ := decodeCell_of_target h hn hf ho
    refine ⟨s, ?_, hvisited, hfield, hother⟩
    rw [hrow, decodeCells, hcell]
    rfl
  · intro ho
    exact ⟨start, by rw [hrow, decodeCells, decodeCell_of_overflow h hn hf ho]⟩

/-- No column before it is mapped from its field in another case. -/
def FirstOfField (m : Mapping) (c : Column) : Prop :=
  ∃ before after, m.columns = before ++ c :: after ∧ ∀ d ∈ before, lower d.field ≠ lower c.field

theorem find?_field_iff {c : Column} :
    m.columns.find? (fun d => sameName d.field c.field) = some c ↔ m.FirstOfField c := by
  simp only [List.find?_eq_some_iff_append, sameName_refl, true_and, FirstOfField,
    Bool.not_eq_true', Bool.eq_false_iff, ne_eq, sameName_iff]

/-- A result column named like a field belongs to some column. -/
theorem exists_resultColumn {c : Column} (hc : c ∈ m.columns) :
    ∃ d, m.resultColumn? c.field = some d := by
  rw [← Option.isSome_iff_exists, resultColumn?, Option.isSome_or, Bool.or_eq_true]
  right
  rw [List.find?_isSome]
  exact ⟨c, hc, sameName_refl c.field⟩

/-- The column that a field is mapped to is found by the field's name when no other column has that
name, and when it has the name itself or is the first of the field. -/
theorem Valid.resultColumn_iff (hv : m.Valid) {c : Column} (hc : c ∈ m.columns) :
    m.resultColumn? c.field = some c ↔
      (∀ d ∈ m.columns, lower d.name = lower c.field → d = c) ∧
        (lower c.name = lower c.field ∨ m.FirstOfField c) := by
  rw [hv.resultColumn?_eq_some_iff, ResolvesTo, find?_field_iff]
  by_cases hs : lower c.name = lower c.field
  · have honly : ∀ d ∈ m.columns, lower d.name = lower c.field → d = c := fun d hd h =>
      hv.names.eq hd hc (h.trans hs.symm)
    exact iff_of_true ⟨hc, .inl hs⟩ ⟨honly, .inl hs⟩
  · have hnone : (∀ d ∈ m.columns, lower d.name = lower c.field → d = c) ↔
        ∀ d ∈ m.columns, lower d.name ≠ lower c.field := by
      refine forall₂_congr fun d _ => ⟨?_, fun h he => absurd he h⟩
      intro h he
      exact hs (h he ▸ he)
    simp only [hc, hs, true_and, false_or, hnone]

end Mapping

variable {catalog : Catalog} {capability : Capability} {source : RecordRef} {s : Select}

theorem QueryPlan.projectedColumns_field {e : Expr} {field : String}
    (he : e.stripCasts = .field field) {items : List (String × String)}
    (h : projectedColumns m e = .ok items) :
    ∃ c, m.columnByField? field = some c ∧ items = [(c.name, field)] := by
  rw [projectedColumns, he] at h
  obtain ⟨column, hc, rfl⟩ := bind_pure_eq_ok_iff.1 h
  rw [Mapping.columnName] at hc
  split at hc
  next c hf =>
    cases hc
    exact ⟨c, hf, rfl⟩
  next => cases hc

/-- A query that ends in the projection of a field selects the column of the field. -/
theorem list_of_projection (hm : catalog.resolve source = .ok m) {ops : List QueryOp} {e : Expr}
    {field : String} (he : e.stripCasts = .field field)
    (h : Query.toSelect catalog capability ⟨source, ops ++ [.select e]⟩ = .ok s) :
    ∃ c, m.columnByField? field = some c ∧ s.list = .columns [(c.name, field)] := by
  obtain ⟨plan, hp, h⟩ := bind_eq_ok_iff.1 h
  obtain ⟨filters, _, rfl⟩ := bind_pure_eq_ok_iff.1 h
  obtain ⟨joins, _, hops⟩ := exists_joins_of_ofQuery hm hp
  rw [List.foldlM_append] at hops
  obtain ⟨plan₁, h₁, h₂⟩ := bind_eq_ok_iff.1 hops
  have hstart : QueryPlan.Agrees m {} { mapping := m, joins } := ⟨rfl, .nil, rfl, .nil, rfl⟩
  have hmapping := (hstart.foldlM h₁).1.mapping
  rw [List.foldlM_cons] at h₂
  obtain ⟨plan₂, h₂, h₃⟩ := bind_eq_ok_iff.1 h₂
  cases pure_eq_ok_iff.1 h₃
  obtain ⟨items, hi, rfl⟩ := bind_pure_eq_ok_iff.1 h₂
  rw [hmapping] at hi
  obtain ⟨c, hc, rfl⟩ := QueryPlan.projectedColumns_field he hi
  exact ⟨c, hc, rfl⟩

/-- A projected field is decoded into the field of one column. That is the column it was projected
from when no other column is named like the field, and when the column is so named itself or no
earlier one is mapped from the field in another case. -/
theorem projection_decodesInto_iff {d : Declaration} (hd : d.build = .ok m)
    (hm : catalog.resolve source = .ok m) {ops : List QueryOp} {e : Expr} {field : String}
    (he : e.stripCasts = .field field)
    (h : Query.toSelect catalog capability ⟨source, ops ++ [.select e]⟩ = .ok s) :
    ∃ c c', m.columnByField? field = some c ∧ s.list = .columns [(c.name, field)] ∧
      m.resultColumn? field = some c' ∧ m.DecodesInto field c' ∧
      (c' = c ↔ (∀ d ∈ m.columns, lower d.name = lower field → d = c) ∧
        (lower c.name = lower field ∨ m.FirstOfField c)) := by
  obtain ⟨c, hc, hlist⟩ := list_of_projection hm he h
  have hmem : c ∈ m.columns := List.mem_of_find?_eq_some hc
  have hfield : c.field = field := by simpa using List.find?_some hc
  subst hfield
  obtain ⟨c', hc'⟩ := Mapping.exists_resultColumn hmem
  refine ⟨c, c', hc, hlist, hc', Mapping.decodesInto_of_resultColumn? hc', ?_⟩
  rw [← (Mapping.valid_of_build hd).resultColumn_iff hmem, hc', Option.some.injEq]

/-- Entries of a glossary, with a label in the column that is named after its notes. -/
def entries : Declaration where
  name := "Entry"
  table := some "entries"
  columns := [
    { field := "id", storage := .integer, primaryKey := true },
    { field := "title", name := "label", storage := .text },
    { field := "label", name := "note", storage := .text }]

def glossary : Catalog := [.declared entries]

/-- The title of an entry is selected under `title` and decoded into the title again. -/
theorem projection_decodesInto_title : ∃ s c,
    Query.toSelect glossary .full ⟨⟨"Entry", 0⟩, [.select (.field "title")]⟩ = .ok s ∧
      s.list = .columns [("label", "title")] ∧ entries.assemble.columnByField? "title" = some c ∧
      entries.assemble.resultColumn? "title" = some c ∧ entries.assemble.DecodesInto "title" c := by
  have hd : entries.build = .ok entries.assemble := rfl
  have hm : glossary.resolve ⟨"Entry", 0⟩ = .ok entries.assemble := rfl
  obtain ⟨s, h⟩ : ∃ s, Query.toSelect glossary .full
      ⟨⟨"Entry", 0⟩, [] ++ [.select (.field "title")]⟩ = .ok s := ⟨_, rfl⟩
  obtain ⟨c, c', hc, hlist, hc', hinto, hiff⟩ := projection_decodesInto_iff hd hm rfl h
  cases hc
  have hfirst :
      entries.assemble.FirstOfField { field := "title", name := "label", storage := .text } :=
    ⟨[{ field := "id", storage := .integer, primaryKey := true }], _, rfl, by decide +kernel⟩
  have hsame := hiff.2 ⟨by decide +kernel, .inr hfirst⟩
  rw [hsame] at hc' hinto
  exact ⟨s, _, h, hlist, rfl, hc', hinto⟩

def blankEntry : Record := [
  ⟨"id", .int .i64, .required .zero, false⟩,
  ⟨"title", .string, .required "", false⟩,
  ⟨"label", .string, .required "", false⟩]

/-- The label of an entry is selected under `label`, which is the name of the title's column. -/
theorem label_not_decodesInto : ∃ s c,
    entries.build = .ok entries.assemble ∧
      glossary.resolve ⟨"Entry", 0⟩ = .ok entries.assemble ∧
      Query.toSelect glossary .full ⟨⟨"Entry", 0⟩, [.select (.field "label")]⟩ = .ok s ∧
      entries.assemble.columnByField? "label" = some c ∧ s.list = .columns [(c.name, "label")] ∧
      ¬entries.assemble.DecodesInto "label" c := by
  refine ⟨_, _, rfl, rfl, rfl, rfl, rfl, ?_⟩
  intro hinto
  obtain ⟨s, hrow, hvisited, _⟩ := (hinto blankEntry _ (.text "Term") {} rfl).1 (by decide)
  have htitle : (entries.assemble.decodeRow ["label"] [.text "Term"]
      { record := blankEntry }).1.visited = ["title"] := by rfl
  rw [hrow] at htitle
  rw [hvisited] at htitle
  revert htitle
  decide +kernel

end RecordMapper
