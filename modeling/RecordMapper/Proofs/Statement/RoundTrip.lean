import RecordMapper.Proofs.Traversal
import RecordMapper.Proofs.Wire.Row
import RecordMapper.Statement.Row
/-!
A record that is inserted and loaded again is the same record, with the key that the store gave it.
-/

namespace RecordMapper

open Text Argument
open Sql (Name)

/-- An integer field that a row id fits. -/
def Field.TakesRowId (f : Field) (id : IntOf .i64) : Prop :=
  ∃ kind n, f.type = .int kind ∧ IntOf.ofInt? kind id.val = some n

/-- A record that has a field for every column, each with a value that its column keeps. -/
structure Record.Storable (r : Record) (m : Mapping) (id : IntOf .i64) : Prop where
  fields : ∀ c ∈ m.columns, ∃ f, r.target? c.field = some f ∧ c.Stores f
  key : ∀ c ∈ m.columns, c.isAutoIncrement = true → ∀ f, r.field? c.field = some f →
    f.TakesRowId id

namespace Mapping

/-- The cells of an inserted row, with the row id where the store fills in the key. -/
def storedCells (m : Mapping) (names : List Name) (args : List Argument) (id : IntOf .i64) :
    List (String × WireValue) :=
  (names.zip args).map (fun (n, a) => (n.base, a.toWire)) ++
    (m.columns.filter (·.isAutoIncrement)).map fun c => (c.name, (ofInt id.val).toWire)

end Mapping

def lowerCell (cell : String × WireValue) : String × WireValue := (lower cell.1, cell.2)

/-- The same cells under the same names, in any order and in any ASCII case. -/
def SameCells (row cells : List (String × WireValue)) : Prop :=
  (row.map lowerCell).Perm (cells.map lowerCell)

/-- What the field of a column holds after the way through the store. -/
def Record.Restores (r : Record) (id : IntOf .i64) (c : Column) (f : Field) : Prop :=
  if c.isAutoIncrement then f.value.asInt? = some id.val else r.field? c.field = some f

theorem Value.asInt?_ofInt {kind : IntKind} {n : IntOf kind} {id : IntOf .i64}
    (h : n.val = id.val) :
    (ofInt kind n).asInt? = some id.val := by
  cases kind with
  | u64 => rw [ofInt, asInt?, h, IntOf.ofInt?_val, Option.map_some]
  | _ => exact congrArg some h

theorem Field.decode_rowId {f : Field} {id : IntOf .i64} (h : f.TakesRowId id) :
    ∃ f', f.decode .integer (.integer id) = (f', .written) ∧ f'.value.asInt? = some id.val := by
  obtain ⟨name, type, slot, readOnly⟩ := f
  obtain ⟨kind, n, htype, hn⟩ := h
  cases htype
  let f : Field := ⟨name, .int kind, slot, readOnly⟩
  refine ⟨_, decode_of_decode? (f := f) (x := n) rfl hn, ?_⟩
  rw [value_set f n]
  exact Value.asInt?_ofInt (IntOf.val_of_ofInt? hn)

namespace Record

variable {r blank : Record} {name : String} {f : Field}

theorem field?_fresh (r : Record) (name : String) :
    r.fresh.field? name = (r.field? name).map Field.fresh :=
  List.find?_map

theorem target?_fresh (r : Record) (name : String) :
    r.fresh.target? name = (r.target? name).map Field.fresh := by
  rw [target?, target?, field?_fresh]
  cases r.field? name with
  | none => rfl
  | some f =>
    cases hf : f.readOnly <;> simp [Field.fresh, hf]

/-- Records of one type expose the same fields. -/
theorem exists_target?_of_fresh (hb : blank.fresh = r.fresh) (h : r.target? name = some f) :
    ∃ g, blank.target? name = some g ∧ g.fresh = f.fresh := by
  have hmap : (blank.target? name).map Field.fresh = some f.fresh := by
    rw [← target?_fresh, hb, target?_fresh, h, Option.map_some]
  exact Option.map_eq_some_iff.1 hmap

end Record

namespace Mapping

variable {m : Mapping} {r blank : Record} {id : IntOf .i64} {c : Column}

/-- The argument of a stored field and the field that its cell restores. -/
theorem fills_of_stored (hr : r.Storable m id) (hb : blank.fresh = r.fresh) (hc : c ∈ m.columns)
    (ha : c.isAutoIncrement = false) :
    ∃ v a, m.fieldValue r c = .ok v ∧ ofValue v = .ok a ∧
      Fills (r.Restores id) blank c (c.name, a.toWire) := by
  obtain ⟨f, hf, hs⟩ := hr.fields c hc
  obtain ⟨g, hg, hfresh⟩ := Record.exists_target?_of_fresh hb hf
  obtain ⟨a, hv, hd⟩ := Field.decode_of_stores hfresh hs
  refine ⟨f.value, a, ?_, hv, rfl, g, f, hg, hd, ?_⟩
  · rw [fieldValue, Record.value?, Record.field?_of_target? hf]
    rfl
  · rw [Record.Restores, if_neg (by rw [ha]; decide)]
    exact Record.field?_of_target? hf

theorem fills_rowId (hr : r.Storable m id) (hb : blank.fresh = r.fresh) (hc : c ∈ m.columns)
    (ha : c.isAutoIncrement = true) :
    Fills (r.Restores id) blank c (c.name, (ofInt id.val).toWire) := by
  obtain ⟨f, hf, hs⟩ := hr.fields c hc
  obtain ⟨g, hg, hfresh⟩ := Record.exists_target?_of_fresh hb hf
  have hkey : g.TakesRowId id := by
    obtain ⟨slot, rfl, -⟩ := Field.eq_of_fresh hfresh
    exact hr.key c hc ha f (Record.field?_of_target? hf)
  obtain ⟨f', hd, hid⟩ := Field.decode_rowId hkey
  have hstorage : c.storage = .integer := by
    simp only [Column.isAutoIncrement, StorageClass.isInteger, Bool.and_eq_true, beq_iff_eq] at ha
    exact ha.2
  refine ⟨rfl, g, f', hg, ?_, ?_⟩
  · rw [hstorage, toWire_ofInt]
    exact hd
  · rw [Record.Restores, if_pos ha]
    exact hid

theorem forall₂_named {R : Column → Argument → Prop} {cs : List Column} {args : List Argument}
    (h : List.Forall₂ R cs args) :
    List.Forall₂ (fun c cell => ∃ a, R c a ∧ cell = (c.name, a.toWire)) cs
      (((cs.map fun c => Name.simple c.name).zip args).map fun (n, a) => (n.base, a.toWire)) := by
  induction h with
  | nil => exact .nil
  | cons hr _ ih => exact .cons ⟨_, hr, rfl⟩ ih

/-- An insert binds an argument for every column but an auto-increment key, and the stored row has a
cell for each column. -/
theorem insertStatement_cells {P : Column → String × WireValue → Prop}
    (hbound : ∀ c ∈ m.columns, c.isAutoIncrement = false →
      ∃ v a, m.fieldValue r c = .ok v ∧ ofValue v = .ok a ∧ P c (c.name, a.toWire))
    (hkeys : ∀ c ∈ m.columns, c.isAutoIncrement = true → P c (c.name, (ofInt id.val).toWire)) :
    ∃ names values args, m.insertStatement r = .ok (.insert (.simple m.table) names values) ∧
      values.mapM ofValue = .ok args ∧
      ∃ cs, cs.Perm m.columns ∧ List.Forall₂ P cs (m.storedCells names args id) := by
  let bound := m.columns.filter (!·.isAutoIncrement)
  let keys := m.columns.filter (·.isAutoIncrement)
  have hbound' : ∀ c ∈ bound,
      ∃ v a, m.fieldValue r c = .ok v ∧ ofValue v = .ok a ∧ P c (c.name, a.toWire) := by
    intro c hc
    obtain ⟨hc, ha⟩ := List.mem_filter.1 hc
    exact hbound c hc (by simpa using ha)
  have hkeys' : ∀ c ∈ keys, P c (c.name, (ofInt id.val).toWire) := by
    intro c hc
    obtain ⟨hc, ha⟩ := List.mem_filter.1 hc
    exact hkeys c hc ha
  obtain ⟨values, args, hvalues, hargs, hcells⟩ := exists_mapM_mapM hbound'
  refine ⟨bound.map fun c => .simple c.name, values, args, ?_, hargs, bound ++ keys, ?_, ?_⟩
  · simp only [insertStatement]
    rw [hvalues]
    rfl
  · have hperm := List.filter_append_perm (fun c : Column => c.isAutoIncrement) m.columns
    exact List.perm_append_comm.trans hperm
  · refine List.rel_append ?_ ?_
    · refine (forall₂_named hcells).imp ?_
      rintro c cell ⟨a, ha, rfl⟩
      exact ha
    · rw [List.forall₂_map_right_iff, List.forall₂_same]
      exact hkeys'

/-- Each cell of the stored row restores the field of its column. -/
theorem insertStatement_storedCells (hr : r.Storable m id) (hb : blank.fresh = r.fresh) :
    ∃ names values args, m.insertStatement r = .ok (.insert (.simple m.table) names values) ∧
      values.mapM ofValue = .ok args ∧
      ∃ cs, cs.Perm m.columns ∧
        List.Forall₂ (Fills (r.Restores id) blank) cs (m.storedCells names args id) := by
  apply insertStatement_cells
  · intro c hc ha
    exact fills_of_stored hr hb hc ha
  · intro c hc ha
    exact fills_rowId hr hb hc ha

/-- A row that has the cells in another order and under names in another case has one cell for each
of the same columns. -/
theorem forall₂_of_sameCells {P : Column → Field → Prop} {cs : List Column}
    {row cells : List (String × WireValue)} (h : List.Forall₂ (Fills P blank) cs cells)
    (hs : SameCells row cells) : ∃ cs', cs'.Perm cs ∧ List.Forall₂ (Fills P blank) cs' row := by
  let FillsAs (k : String × WireValue) (c : Column) : Prop :=
    ∀ cell, lowerCell cell = k → Fills P blank c cell
  have hkeys : List.Forall₂ FillsAs (cells.map lowerCell) cs := by
    rw [List.forall₂_map_left_iff]
    refine h.flip.imp fun cell c hfill cell' he => ?_
    obtain ⟨hname, hw⟩ := Prod.mk.inj he
    refine ⟨hfill.name.trans hname.symm, ?_⟩
    rw [hw]
    exact hfill.field
  obtain ⟨cs', hrow, hperm⟩ := List.perm_comp_forall₂ hs hkeys
  rw [List.forall₂_map_left_iff] at hrow
  exact ⟨cs', hperm, hrow.flip.imp fun c cell hfill => hfill cell rfl⟩

/-- What an insert stores comes back in every field, whatever record of its type the row is loaded
into. -/
theorem loadRow_insertStatement {d : Declaration} (hd : d.build = .ok m)
    (hn : (m.columns.map Column.field).Nodup) (hr : r.Storable m id) (hb : blank.fresh = r.fresh) :
    ∃ names values args, m.insertStatement r = .ok (.insert (.simple m.table) names values) ∧
      values.mapM ofValue = .ok args ∧
      ∀ row, SameCells row (m.storedCells names args id) → ∀ notes,
        ∃ r', m.loadRow blank (row.map Prod.fst) (row.map Prod.snd) notes = (notes, .ok r') ∧
          ∀ c ∈ m.columns, ∃ f, r'.field? c.field = some f ∧ r.Restores id c f := by
  obtain ⟨names, values, args, hinsert, hargs, cs, hcs, hfills⟩ :=
    insertStatement_storedCells hr hb
  refine ⟨names, values, args, hinsert, hargs, fun row hrow notes => ?_⟩
  obtain ⟨cs', hcs', hfills'⟩ := forall₂_of_sameCells hfills hrow
  have hperm : cs'.Perm m.columns := hcs'.trans hcs
  have hnodup : (cs'.map Column.field).Nodup := (hperm.map Column.field).nodup_iff.2 hn
  obtain ⟨s', hrun, hnotes, hfilled, -⟩ :=
    decodeCells_of_fills (valid_of_build hd) hfills' (fun c hc => hperm.mem_iff.1 hc) hnodup
      (s := { record := blank, notes }) fun c _ => ⟨List.not_mem_nil, rfl⟩
  refine ⟨s'.record, ?_, fun c hc => hfilled c (hperm.mem_iff.2 hc)⟩
  have hzip : (row.map Prod.fst).zip (row.map Prod.snd) = row := by simp [List.zip_map']
  rw [loadRow, decodeRow, if_pos (by simp), hzip, hrun]
  exact congrArg (fun n : RowNotes => (n, Except.ok s'.record)) hnotes

end Mapping

/-- Readings of a sensor, with a key that the store fills in. -/
def readings : Declaration where
  name := "Reading"
  table := some "readings"
  columns := [
    { field := "id", storage := .integer, primaryKey := true },
    { field := "taken", name := "taken_at", storage := .integer },
    { field := "level", storage := .real },
    { field := "remark", storage := .text, nullable := true },
    { field := "trace", storage := .vector 2 }]

def reading : Record := [
  ⟨"id", .int .u32, .required .zero, false⟩,
  ⟨"taken", .timestamp, .required ⟨5000000000, by decide, by decide⟩, false⟩,
  ⟨"level", .f32, .required ⟨0x3fc00000⟩, false⟩,
  ⟨"remark", .string, .optional none, false⟩,
  ⟨"trace", .vector, .required [⟨0x3f800000⟩, ⟨0xbf800000⟩], false⟩]

theorem reading_storable (id : IntOf .i64) (h : 0 ≤ id.val ∧ id.val ≤ 4294967295) :
    reading.Storable readings.assemble id := by
  have hcolumns : readings.assemble.columns = readings.columns := rfl
  constructor
  · intro c hc
    rw [hcolumns] at hc
    simp only [readings, List.mem_cons, List.not_mem_nil, or_false] at hc
    rcases hc with rfl | rfl | rfl | rfl | rfl
    · have hzero : (0 : Int) ≤ IntKind.i64.greatest := by decide
      exact ⟨_, rfl, rfl, fun x hx => Option.some.inj hx ▸ hzero⟩
    · have hseconds : (1000000000 : Int) ∣ 5000000000 := by decide
      exact ⟨_, rfl, rfl, fun x hx => Option.some.inj hx ▸ hseconds⟩
    · have hfinite : (Binary32.mk 0x3fc00000).datum.isFinite = true := by decide +kernel
      exact ⟨_, rfl, rfl, fun x hx => Option.some.inj hx ▸ hfinite⟩
    · refine ⟨_, rfl, rfl, fun x hx => ?_⟩
      cases hx
    · refine ⟨_, rfl, ⟨2, rfl⟩, fun x hx => ?_⟩
      cases hx
      refine ⟨fun size hs => ?_, by decide⟩
      cases hs
      rfl
  · intro c hc ha f hf
    rw [hcolumns] at hc
    simp only [readings, List.mem_cons, List.not_mem_nil, or_false] at hc
    rcases hc with rfl | rfl | rfl | rfl | rfl
    · cases hf
      exact ⟨.u32, ⟨id.val, h.1, h.2⟩, rfl, dif_pos h⟩
    all_goals cases ha

/-- The stored reading, in another order and with one name in another case. -/
def readingRow : List (String × WireValue) := [
  ("id", .integer ⟨41, by decide, by decide⟩),
  ("trace", .bytes [0, 0, 128, 63, 0, 0, 128, 191]),
  ("remark", .null),
  ("level", .float ⟨0x3ff8000000000000⟩),
  ("Taken_At", .integer ⟨5, by decide, by decide⟩)]

theorem sameCells_readingRow :
    SameCells readingRow (readings.assemble.storedCells
      [.simple "taken_at", .simple "level", .simple "remark", .simple "trace"]
      [ofInt 5, float (Binary32.mk 0x3fc00000).widen, null,
        ofBytes (FloatVector.toBytes [⟨0x3f800000⟩, ⟨0xbf800000⟩])]
      ⟨41, by decide, by decide⟩) := by
  have htaken : (ofInt 5).toWire = .integer ⟨5, by decide, by decide⟩ := toWire_ofInt ⟨5, _, _⟩
  have hwide : (Binary32.mk 0x3fc00000).widen = ⟨0x3ff8000000000000⟩ := by decide +kernel
  have htrace : (ofBytes (FloatVector.toBytes [⟨0x3f800000⟩, ⟨0xbf800000⟩])).toWire =
      .bytes [0, 0, 128, 63, 0, 0, 128, 191] := toWire_ofBytes _
  have hid : (ofInt 41).toWire = .integer ⟨41, by decide, by decide⟩ := toWire_ofInt ⟨41, _, _⟩
  have hcase : lower "Taken_At" = lower "taken_at" := by decide +kernel
  change SameCells readingRow
    [("taken_at", (ofInt 5).toWire), ("level", .float (Binary32.mk 0x3fc00000).widen),
      ("remark", .null),
      ("trace", (ofBytes (FloatVector.toBytes [⟨0x3f800000⟩, ⟨0xbf800000⟩])).toWire),
      ("id", (ofInt 41).toWire)]
  rw [htaken, hwide, htrace, hid]
  simp only [SameCells, readingRow, List.map_cons, List.map_nil, lowerCell, hcase]
  exact (List.reverse_perm [_, _, _, _, _]).symm

theorem loadRow_reading :
    ∃ r', readings.assemble.loadRow reading.fresh (readingRow.map Prod.fst)
        (readingRow.map Prod.snd) {} = ({}, .ok r') ∧
      ∀ c ∈ readings.assemble.columns, ∃ f, r'.field? c.field = some f ∧
        reading.Restores ⟨41, by decide, by decide⟩ c f := by
  obtain ⟨names, values, args, hinsert, hargs, hload⟩ :=
    Mapping.loadRow_insertStatement (d := readings) rfl (by decide)
      (reading_storable ⟨41, by decide, by decide⟩ (by decide))
      (rfl : reading.fresh.fresh = reading.fresh)
  cases hinsert
  cases Except.ok.inj hargs
  exact hload readingRow sameCells_readingRow {}

end RecordMapper
