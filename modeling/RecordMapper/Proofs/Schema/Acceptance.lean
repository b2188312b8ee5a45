import RecordMapper.Proofs.Schema.DefaultKey
import RecordMapper.Proofs.Schema.Validity
import RecordMapper.Proofs.Traversal
/-!
Which declarations become mappings, in terms of the columns as they were declared, and what becomes
of these.
-/

namespace RecordMapper

open Text

namespace Mapping

variable {m : Mapping}

theorem checkKey_of_valid (h : m.Valid) : m.checkKey = .ok () := by
  obtain ⟨k, hk, hs, hn⟩ := h.key
  have hstorage : (!k.storage.isInteger && !k.storage.isText) = false := by
    rcases hs with hs | hs <;> rw [hs] <;> rfl
  simp only [checkKey, hk, hstorage, hn, Bool.false_eq_true, if_false]

theorem check_eq_ok_iff : m.check = .ok () ↔ m.Valid := by
  constructor
  · exact valid_of_check
  · intro h
    have ht : m.checkTable = .ok () := by
      rw [checkTable, h.table]
      rfl
    have hn : m.checkColumnNames = .ok () := by
      rw [checkColumnNames, firstDuplicate_of_distinct h.names fun _ _ => List.not_mem_nil]
    have hv : m.columns.find? (·.storage == .vector 0) = none := by
      rw [List.find?_eq_none]
      intro c hc he
      exact h.vectors c hc (eq_of_beq he)
    rw [check, ht, checkKey_of_valid h, hn, checkVectors, hv]
    rfl

end Mapping

def Column.asKey (c : Column) : Column := { c with primaryKey := true }

theorem Column.asKey_of_primaryKey {c : Column} (h : c.primaryKey = true) : c.asKey = c := by
  rw [asKey, ← h]

namespace Declaration

variable {d : Declaration} {before after : List Column} {key : Column}

/-- The one column among the columns before and after it that is marked as the key. -/
structure MarkedKey (before : List Column) (key : Column) (after : List Column) : Prop where
  marked : key.primaryKey = true
  others : ∀ c ∈ before ++ after, c.primaryKey = false

/-- No column is marked, and the column is the first one of the earliest name for keys that any
column has. -/
structure DefaultKey (before : List Column) (key : Column) (after : List Column) : Prop where
  unmarked : ∀ c ∈ before ++ key :: after, c.primaryKey = false
  earliest : ∃ preferred others, defaultKeys = preferred ++ key.field :: others ∧
    ∀ c ∈ before ++ key :: after, c.field ∉ preferred
  first : ∀ c ∈ before, c.field ≠ key.field

/-- The declaration is valid, and its key stands between the columns before and after it. -/
structure Accepted (d : Declaration) (before : List Column) (key : Column) (after : List Column) :
    Prop where
  columns : d.columns = before ++ key :: after
  isKey : MarkedKey before key after ∨ DefaultKey before key after
  storage : key.storage = .integer ∨ key.storage = .text
  notNull : key.nullable = false
  table : isBlankText (d.table.getD d.name) = false
  names : DistinctNames (d.columns.map Column.name)
  vectors : ∀ c ∈ d.columns, c.storage ≠ .vector 0

theorem withDefaultKey_of_marked (h : MarkedKey before key after) :
    withDefaultKey (before ++ key :: after) = before ++ key.asKey :: after := by
  have hany : (before ++ key :: after).any (·.primaryKey) = true :=
    List.any_eq_true.2 ⟨key, List.mem_append_right _ List.mem_cons_self, h.marked⟩
  rw [withDefaultKey, if_pos hany, Column.asKey_of_primaryKey h.marked]

theorem markKey_append (h : ∀ c ∈ before, c.field ≠ key.field) (after : List Column) :
    markKey key.field (before ++ key :: after) = before ++ key.asKey :: after := by
  induction before with
  | nil => exact if_pos rfl
  | cons c before ih =>
    obtain ⟨hc, hbefore⟩ := List.forall_mem_cons.1 h
    rw [List.cons_append, markKey, if_neg hc, ih hbefore]
    rfl

theorem withDefaultKey_of_default (h : DefaultKey before key after) :
    withDefaultKey (before ++ key :: after) = before ++ key.asKey :: after := by
  have hany : ¬(before ++ key :: after).any (·.primaryKey) = true := by
    rw [List.any_eq_true]
    rintro ⟨c, hc, hp⟩
    rw [h.unmarked c hc] at hp
    cases hp
  obtain ⟨preferred, others, hkeys, hnone⟩ := h.earliest
  have hfind : defaultKeys.find? (fun name => (before ++ key :: after).any (·.field == name)) =
      some key.field := by
    rw [List.find?_eq_some_iff_append]
    refine ⟨?_, preferred, others, hkeys, ?_⟩
    · exact List.any_eq_true.2 ⟨key, List.mem_append_right _ List.mem_cons_self, beq_self_eq_true _⟩
    · intro name hname
      rw [Bool.not_eq_true', Bool.eq_false_iff]
      intro hp
      obtain ⟨c, hc, he⟩ := List.any_eq_true.1 hp
      exact hnone c hc (eq_of_beq he ▸ hname)
  rw [withDefaultKey, if_neg hany, hfind]
  exact markKey_append h.first after

/-- What the default makes of columns of which one is the key. -/
theorem withDefaultKey_of_isKey (h : MarkedKey before key after ∨ DefaultKey before key after) :
    withDefaultKey (before ++ key :: after) = before ++ key.asKey :: after := by
  rcases h with h | h
  · exact withDefaultKey_of_marked h
  · exact withDefaultKey_of_default h

theorem filter_asKey (h : MarkedKey before key after ∨ DefaultKey before key after) :
    (before ++ key.asKey :: after).filter (·.primaryKey) = [key.asKey] := by
  have hothers : ∀ c ∈ before ++ after, c.primaryKey = false := by
    rcases h with h | h
    · exact h.others
    · intro c hc
      apply h.unmarked c
      rw [List.mem_append] at hc ⊢
      exact hc.imp_right (.tail _)
  obtain ⟨hbefore, hafter⟩ := List.forall_mem_append.1 hothers
  rw [List.filter_eq_cons_iff]
  refine ⟨before, after, rfl, ?_, rfl, ?_⟩
  · exact fun c hc => Bool.eq_false_iff.1 (hbefore c hc)
  · rw [List.filter_eq_nil_iff]
    exact fun c hc => Bool.eq_false_iff.1 (hafter c hc)

/-- Columns with one key after the default have one before it: a marked one or the default. -/
theorem exists_isKey {columns : List Column} {k : Column}
    (h : (withDefaultKey columns).filter (·.primaryKey) = [k]) :
    ∃ before key after, columns = before ++ key :: after ∧
      (MarkedKey before key after ∨ DefaultKey before key after) := by
  by_cases hany : columns.any (·.primaryKey) = true
  · rw [withDefaultKey, if_pos hany, List.filter_eq_cons_iff] at h
    obtain ⟨before, after, hcolumns, hbefore, hk, hafter⟩ := h
    rw [List.filter_eq_nil_iff] at hafter
    refine ⟨before, k, after, hcolumns, .inl ⟨hk, List.forall_mem_append.2 ⟨?_, ?_⟩⟩⟩
    · exact fun c hc => Bool.eq_false_iff.2 (hbefore c hc)
    · exact fun c hc => Bool.eq_false_iff.2 (hafter c hc)
  · have hunmarked : ∀ c ∈ columns, c.primaryKey = false := by
      intro c hc
      rw [Bool.eq_false_iff]
      intro hp
      exact hany (List.any_eq_true.2 ⟨c, hc, hp⟩)
    rw [withDefaultKey, if_neg hany] at h
    split at h
    next name hname =>
      obtain ⟨hsome, preferred, others, hkeys, hnone⟩ := List.find?_eq_some_iff_append.1 hname
      obtain ⟨key, hkey⟩ := Option.isSome_iff_exists.1 ((List.isSome_find? ..).trans hsome)
      obtain ⟨hfield, before, after, rfl, hfirst⟩ := List.find?_eq_some_iff_append.1 hkey
      obtain rfl := eq_of_beq hfield
      refine ⟨before, key, after, rfl, .inr ⟨hunmarked, ⟨preferred, others, hkeys, ?_⟩, ?_⟩⟩
      · intro c hc hp
        have hno := hnone _ hp
        rw [Bool.not_eq_true', Bool.eq_false_iff] at hno
        exact hno (List.any_eq_true.2 ⟨c, hc, beq_self_eq_true _⟩)
      · intro c hc he
        have hno := hfirst c hc
        rw [he, beq_self_eq_true] at hno
        cases hno
    next =>
      rw [List.filter_eq_nil_iff.2 fun c hc => Bool.eq_false_iff.1 (hunmarked c hc)] at h
      cases h

theorem build_eq_ok_iff {m : Mapping} : d.build = .ok m ↔ d.assemble.Valid ∧ d.assemble = m := by
  rw [build, bind_pure_eq_ok_iff, ← Mapping.check_eq_ok_iff]
  constructor
  · rintro ⟨_, hc, hm⟩
    exact ⟨hc, hm⟩
  · rintro ⟨hc, hm⟩
    exact ⟨(), hc, hm⟩

theorem Accepted.columns_assemble (h : d.Accepted before key after) :
    d.assemble.columns = before ++ key.asKey :: after := by
  rw [← withDefaultKey_of_isKey h.isKey, ← h.columns]
  rfl

/-- What is told of the declared columns, but for the marks, is told of those of the mapping. -/
theorem map_assemble {β : Type} {g : Column → β} (hg : ∀ c, g { c with primaryKey := true } = g c)
    (d : Declaration) : d.assemble.columns.map g = d.columns.map g :=
  map_withDefaultKey hg d.columns

theorem forall_vectors_iff :
    (∀ c ∈ d.assemble.columns, c.storage ≠ .vector 0) ↔ ∀ c ∈ d.columns, c.storage ≠ .vector 0 := by
  have hmap := map_assemble (g := Column.storage) (fun _ => rfl) d
  have hstorages (columns : List Column) :
      (∀ c ∈ columns, c.storage ≠ .vector 0) ↔ .vector 0 ∉ columns.map Column.storage := by
    simp
  rw [hstorages, hstorages, hmap]

theorem Accepted.valid (h : d.Accepted before key after) : d.assemble.Valid where
  table := h.table
  key := by
    refine ⟨key.asKey, ?_, h.storage, h.notNull⟩
    rw [h.columns_assemble]
    exact filter_asKey h.isKey
  names := by
    rw [map_assemble fun _ => rfl]
    exact h.names
  vectors := forall_vectors_iff.2 h.vectors

theorem exists_accepted (h : d.assemble.Valid) :
    ∃ before key after, d.Accepted before key after := by
  obtain ⟨k, hk, hs, hn⟩ := h.key
  obtain ⟨before, key, after, hcolumns, hkey⟩ := exists_isKey hk
  have hassemble : d.assemble.columns = before ++ key.asKey :: after := by
    rw [← withDefaultKey_of_isKey hkey, ← hcolumns]
    rfl
  rw [hassemble, filter_asKey hkey] at hk
  obtain rfl := List.singleton_inj.1 hk
  refine ⟨before, key, after, hcolumns, hkey, hs, hn, h.table, ?_, forall_vectors_iff.1 h.vectors⟩
  rw [← map_assemble fun _ => rfl]
  exact h.names

/-- A declaration is built just when it is valid, into a mapping with the columns and joins that it
has. The key is marked and is found, and every column is found by its name in any ASCII case. -/
theorem build_accepts (d : Declaration) :
    ((∃ m, d.build = .ok m) ↔ ∃ before key after, d.Accepted before key after) ∧
      ∀ before key after, d.Accepted before key after →
        ∃ m, d.build = .ok m ∧ m.name = d.name ∧ m.table = d.table.getD d.name ∧
          m.columns = before ++ key.asKey :: after ∧ m.joins = d.joins ∧
          m.primaryKey? = some key.asKey ∧
          ∀ c ∈ m.columns, ∀ name, lower name = lower c.name → m.columnByName? name = some c := by
  constructor
  · constructor
    · rintro ⟨m, hm⟩
      exact exists_accepted (build_eq_ok_iff.1 hm).1
    · rintro ⟨before, key, after, h⟩
      exact ⟨d.assemble, build_eq_ok_iff.2 ⟨h.valid, rfl⟩⟩
  · intro before key after h
    refine ⟨d.assemble, build_eq_ok_iff.2 ⟨h.valid, rfl⟩, rfl, rfl, h.columns_assemble, rfl, ?_, ?_⟩
    · rw [Mapping.primaryKey?, ← List.head?_filter, h.columns_assemble, filter_asKey h.isKey]
      rfl
    · intro c hc name hname
      exact h.valid.columnByName hc hname.symm

end Declaration

/-- Settings, of which the second column is the key by its name, though the first one has a name for
keys too. -/
def settings : Declaration where
  name := "Setting"
  columns := [
    { field := "id", storage := .integer },
    { field := "Key", storage := .text },
    { field := "note", name := "remark", storage := .vector 3, nullable := true }]

theorem build_accepts_settings : ∃ m, settings.build = .ok m ∧ m.table = "Setting" ∧
    m.primaryKey? = some { field := "Key", storage := .text, primaryKey := true } ∧
    (m.columnByName? "kEY").map Column.field = some "Key" := by
  have haccepted : settings.Accepted [{ field := "id", storage := .integer }]
      { field := "Key", storage := .text }
      [{ field := "note", name := "remark", storage := .vector 3, nullable := true }] := by
    refine ⟨rfl, .inr ⟨by decide, ?_, by decide⟩, .inr rfl, rfl, by decide, by decide, by decide⟩
    exact ⟨["Id"], ["ID", "KeyId", "Key_ID", "id"], rfl, by decide⟩
  obtain ⟨m, hm, _, htable, hcolumns, _, hkey, hname⟩ :=
    (Declaration.build_accepts settings).2 _ _ _ haccepted
  refine ⟨m, hm, htable, hkey, ?_⟩
  have hmem : Column.asKey { field := "Key", storage := .text } ∈ m.columns := by
    rw [hcolumns]
    exact .tail _ List.mem_cons_self
  rw [hname _ hmem "kEY" (by decide)]
  rfl

end RecordMapper
