import RecordMapper.Proofs.Migration.Parenthesized
import RecordMapper.Proofs.Migration.Renames
import RecordMapper.Proofs.Migration.Uniqueness
/-!
When a column that is declared unique passes for unique. Either a unique index is over it, or the
engine's indexes are enough for the key and for every column without an index. Of these columns some
are excused: those whose field is the name of a column with an index.
-/

namespace RecordMapper

open Text

namespace LiveTable

/-- The text of some unique index of the table has the name alone in parentheses. -/
def UniqueUnder (live : LiveTable) (table name : String) : Prop :=
  ∃ i ∈ live.indexes, i.belongsTo table = true ∧ i.isUnique = true ∧
    ∃ sql, i.sql = some sql ∧ Parenthesizes sql.toList name.toList

variable {live : LiveTable} {table : String}

theorem hasUniqueIndex_iff_uniqueUnder {names : List String} :
    live.hasUniqueIndex table names = true ↔ ∃ n ∈ names, live.UniqueUnder table n := by
  rw [hasUniqueIndex, List.any_eq_true]
  refine exists_congr fun n => and_congr_right fun _ => ?_
  rw [List.any_eq_true]
  refine exists_congr fun i => and_congr_right fun _ => ?_
  rw [Bool.and_eq_true, Bool.and_eq_true, and_assoc]
  refine and_congr_right fun _ => and_congr_right fun _ => ?_
  cases i.sql <;> simp [namesAlone_iff]

theorem UniqueUnder.congr {a b : String} (h : live.UniqueUnder table a) (he : lower a = lower b) :
    live.UniqueUnder table b := by
  obtain ⟨i, hi, hb, hu, sql, hs, hp⟩ := h
  exact ⟨i, hi, hb, hu, sql, hs, hp.congr he⟩

instance (live : LiveTable) (table name : String) : Decidable (live.UniqueUnder table name) :=
  decidable_of_iff (live.hasUniqueIndex table [name] = true) (by
    rw [hasUniqueIndex_iff_uniqueUnder]
    simp only [List.mem_singleton, exists_eq_left])

end LiveTable

/-- The name of the column, and the one that it is being renamed from. -/
def Column.currentNames (c : Column) (m : Mapping) (live : LiveTable) : List String :=
  c.name :: (Rename.previousName? (Rename.detect m live) c.name).toList

/-- The column has a unique index under one of its current names. -/
def Column.Served (c : Column) (m : Mapping) (live : LiveTable) : Prop :=
  ∃ n ∈ c.currentNames m live, live.UniqueUnder m.table n

instance (c : Column) (m : Mapping) (live : LiveTable) : Decidable (c.Served m live) :=
  inferInstanceAs (Decidable (∃ n ∈ c.currentNames m live, live.UniqueUnder m.table n))

namespace Mapping

/-- The columns outside the key that are declared unique. -/
def uniqueColumns (m : Mapping) : List Column :=
  m.columns.filter fun c => c.unique && !c.primaryKey

/-- Those that need one of the engine's indexes. -/
def lacking (m : Mapping) (live : LiveTable) : List Column :=
  m.uniqueColumns.filter fun c => !decide (c.Served m live)

/-- Those that are not counted all the same, since some index is under the name of their field. -/
def excused (m : Mapping) (live : LiveTable) : List Column :=
  (m.lacking live).filter fun c => decide (live.UniqueUnder m.table c.field)

end Mapping

variable {m : Mapping} {live : LiveTable} {c : Column}

theorem Column.hasUniqueIndex_iff_served : live.hasUniqueIndex m.table
    (c.name :: (Rename.previousName? (Rename.detect m live) c.name).toList) = true ↔
      c.Served m live :=
  LiveTable.hasUniqueIndex_iff_uniqueUnder

/-- A column is only renamed from the name of its field. -/
theorem Mapping.Valid.lower_previousName (hv : m.Valid) (hc : c ∈ m.columns) {name : String}
    (h : Rename.previousName? (Rename.detect m live) c.name = some name) :
    lower name = lower c.field := by
  obtain ⟨r, hr, rfl⟩ := Option.map_eq_some_iff.1 h
  obtain ⟨d, hd, _, _, ht, hs, _⟩ := Rename.mem_detect (List.mem_of_find?_eq_some hr)
  have hname : lower d.name = lower c.name := by
    rw [← ht]
    simpa [sameName_iff] using List.find?_some hr
  rw [hs, hv.names.eq hd hc hname]

/-- A column is left out of the count when it has an index or is excused. -/
theorem Mapping.Valid.hasUniqueIndex_field (hv : m.Valid) (hc : c ∈ m.columns) :
    live.hasUniqueIndex m.table [c.name, c.field] = true ↔
      c.Served m live ∨ live.UniqueUnder m.table c.field := by
  rw [LiveTable.hasUniqueIndex_iff_uniqueUnder]
  simp only [Column.Served, Column.currentNames, List.mem_cons, List.not_mem_nil, or_false,
    Option.mem_toList, or_and_right, exists_or, exists_eq_left]
  constructor
  · rintro (hname | hfield)
    · exact .inl (.inl hname)
    · exact .inr hfield
  · rintro ((hname | ⟨n, hn, hprevious⟩) | hfield)
    · exact .inl hname
    · exact .inr (hprevious.congr (hv.lower_previousName hc hn))
    · exact .inr hfield

theorem Mapping.Valid.unservedCount_add (hv : m.Valid) (live : LiveTable) :
    live.unservedCount m + (m.excused live).length = (m.lacking live).length := by
  have hcounted : live.unservedCount m =
      ((m.lacking live).filter fun c => !decide (live.UniqueUnder m.table c.field)).length := by
    rw [LiveTable.unservedCount, List.countP_eq_length_filter, lacking, uniqueColumns,
      List.filter_filter, List.filter_filter]
    congr 1
    refine List.filter_congr fun c hc => ?_
    have hindex : live.hasUniqueIndex m.table [c.name, c.field] = true ↔
        c.Served m live ∨ live.UniqueUnder m.table c.field := hv.hasUniqueIndex_field hc
    by_cases hserved : c.Served m live <;> by_cases hfield : live.UniqueUnder m.table c.field <;>
      simp_all
  rw [hcounted, excused, Nat.add_comm]
  exact (List.length_eq_length_filter_add _).symm

/-- Renamed columns do not change what the indexes say. -/
theorem LiveTable.isUnique_rename (live : LiveTable) (renames : List Rename) (m : Mapping)
    (c : Column) (previous : Option String) :
    (live.rename renames).isUnique m c previous = live.isUnique m c previous := by
  have hunique (names : List String) : (live.rename renames).hasUniqueIndex m.table names =
      live.hasUniqueIndex m.table names := rfl
  have hmade : (live.rename renames).engineIndexCount m.table = live.engineIndexCount m.table := rfl
  have hunserved : (live.rename renames).unservedCount m = live.unservedCount m := rfl
  rw [isUnique, isUnique, hunique, hmade, hunserved, keyIndexCount_rename]

theorem Mapping.Valid.isUnique_iff (hv : m.Valid) (live : LiveTable) (hu : c.unique = true) :
    live.isUnique m c (Rename.previousName? (Rename.detect m live) c.name) = true ↔
      c.Served m live ∨ live.keyIndexCount + (m.lacking live).length ≤
        live.engineIndexCount m.table + (m.excused live).length := by
  have hcount := hv.unservedCount_add live
  rw [← Column.hasUniqueIndex_iff_served, LiveTable.isUnique, hu, Bool.not_true, Bool.or_false]
  cases live.hasUniqueIndex m.table _ with
  | true => simp
  | false =>
    simp only [Bool.false_eq_true, if_false, false_or, decide_eq_true_eq]
    omega

/-- A column declared unique is found unchanged exactly when, apart from its type and its null
constraint, it has a unique index of its own, or the engine's indexes and the excused columns make
up for the key and all columns that lack one. -/
theorem Column.change?_eq_none_iff_counted {d : Declaration} (hm : d.build = .ok m)
    (live : LiveTable) (hu : c.unique = true) (hk : c.primaryKey = false) (l : LiveColumn) :
    c.change? m l (Rename.previousName? (Rename.detect m live) c.name)
        (live.rename (Rename.detect m live)) = none ↔
      (c.typeMatches l = true ∧ l.isKey = false ∧ c.nullable = !l.notNull) ∧
        (c.Served m live ∨ live.keyIndexCount + (m.lacking live).length ≤
          live.engineIndexCount m.table + (m.excused live).length) := by
  rw [Column.change?_eq_none_iff, LiveTable.isUnique_rename, hk, hu, eq_comm (a := true),
    (Mapping.valid_of_build hm).isUnique_iff live hu]
  constructor
  · rintro ⟨htype, hkey, hrest⟩
    obtain ⟨hnull, hcount⟩ := hrest rfl
    exact ⟨⟨htype, hkey.symm, hnull⟩, hcount⟩
  · rintro ⟨⟨htype, hkey, hnull⟩, hcount⟩
    exact ⟨htype, hkey.symm, fun _ => ⟨hnull, hcount⟩⟩

/-- Members with an address to log in under and another to be reached at. -/
def reachableMembers (field : String) : Declaration where
  name := "Member"
  table := some "members"
  columns := [
    { field := "id", storage := .integer, primaryKey := true },
    { field := "login", name := "email", storage := .text, unique := true },
    { field, name := "contact", storage := .text, unique := true }]

/-- Members with a unique index over the first address, and with the engine's indexes. -/
def membersTable (made : List LiveIndex) : LiveTable where
  columns := [
    { name := "id", declaredType := "INTEGER", keyPosition := 1 },
    { name := "email", declaredType := "TEXT", notNull := true },
    { name := "contact", declaredType := "TEXT", notNull := true }]
  indexes := ⟨"members_email", "members", "CREATE UNIQUE INDEX members_email ON members (email)"⟩ ::
    made

def contactColumn (field : String) : Column :=
  { field, name := "contact", storage := .text, unique := true }

def liveContact : LiveColumn := { name := "contact", declaredType := "TEXT", notNull := true }

/-- The one index that the engine made serves the one column that lacks its own. -/
theorem contact_served_by_count :
    (reachableMembers "phone").build = .ok (reachableMembers "phone").assemble ∧
      contactColumn "phone" ∈ (reachableMembers "phone").assemble.columns ∧
      (contactColumn "phone").change? (reachableMembers "phone").assemble liveContact none
        (membersTable [⟨"sqlite_autoindex_members_1", "members", none⟩]) = none := by
  have hm : (reachableMembers "phone").build = .ok (reachableMembers "phone").assemble := rfl
  refine ⟨hm, by decide, ?_⟩
  have h := Column.change?_eq_none_iff_counted (c := contactColumn "phone") hm
    (membersTable [⟨"sqlite_autoindex_members_1", "members", none⟩]) rfl rfl liveContact
  have hdetect : Rename.detect (reachableMembers "phone").assemble
      (membersTable [⟨"sqlite_autoindex_members_1", "members", none⟩]) = [] := by decide +kernel
  rw [hdetect, LiveTable.rename_nil] at h
  exact h.2 ⟨by decide +kernel, .inr (by decide +kernel)⟩

/-- The field of the second address is the name of the first, which has an index. So nothing is
counted, and the second address passes for unique though nothing keeps it so. -/
theorem contact_passes_for_unique :
    (reachableMembers "email").build = .ok (reachableMembers "email").assemble ∧
      contactColumn "email" ∈ (reachableMembers "email").assemble.columns ∧
      (membersTable []).column? "contact" = some liveContact ∧
      (contactColumn "email").change? (reachableMembers "email").assemble liveContact
        (Rename.previousName? (Rename.detect (reachableMembers "email").assemble (membersTable []))
          "contact")
        ((membersTable []).rename
          (Rename.detect (reachableMembers "email").assemble (membersTable []))) = none ∧
      ¬(contactColumn "email").Served (reachableMembers "email").assemble (membersTable []) ∧
      (membersTable []).engineIndexCount "members" <
        (membersTable []).keyIndexCount +
          ((reachableMembers "email").assemble.lacking (membersTable [])).length := by
  refine ⟨rfl, ?_⟩
  decide +kernel

end RecordMapper
