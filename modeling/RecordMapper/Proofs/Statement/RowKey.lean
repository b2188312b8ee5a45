import RecordMapper.Proofs.Statement.RoundTrip
import RecordMapper.Wire.RowId
/-!
The key of a record after its insert and the key of the row that the insert stored. An insert leaves
an integer key to the store whatever it holds, and the row id is only written to a key that holds
nothing.
-/

namespace RecordMapper

open Text Argument
open Sql (Name)

/-- The cell that the value of a field is stored as. -/
def Record.cell? (r : Record) (name : String) : Option WireValue :=
  (r.value? name).bind fun v => (ofValue v).toOption.map toWire

/-- The cell of a row under the name of a column. -/
def Column.stored? (c : Column) (cells : List (String × WireValue)) : Option WireValue :=
  (cells.find? fun cell => sameName cell.1 c.name).map Prod.snd

namespace Mapping

/-- What is stored for a column: the row id for a key that the store fills in, else the field. -/
def Holds (r : Record) (id : IntOf .i64) (c : Column) (w : WireValue) : Prop :=
  if c.isAutoIncrement then w = .integer id else r.cell? c.field = some w

/-- The row id is a value of the key's type. A boolean would take in any integer. -/
structure FitsKey (key : Column) (id : IntOf .i64) (f : Field) : Prop where
  written : (writeRowId key id f).2 = .written
  notBool : f.type ≠ .bool

/-- The cell of a row id in the column of a key. -/
def rowIdCell (key : Column) (id : IntOf .i64) : WireValue :=
  if key.storage.isText then .text (Numeral.ofInt id.val) else .integer id

end Mapping

theorem Field.exists_ofValue (f : Field) : ∃ a, ofValue f.value = .ok a := by
  obtain ⟨name, type, slot, readOnly⟩ := f
  rw [value]
  split
  next x hx =>
    cases type with
    | int kind => exact ⟨_, ofValue_ofInt x⟩
    | _ => exact ⟨_, rfl⟩
  next => exact ⟨.null, rfl⟩

theorem Record.cell?_eq {r : Record} {name : String} {f : Field} (hf : r.field? name = some f)
    {a : Argument} (ha : ofValue f.value = .ok a) : r.cell? name = some a.toWire := by
  rw [cell?, value?, hf, Option.map_some, Option.bind_some, ha]
  rfl

namespace Mapping

variable {m : Mapping} {r : Record} {id : IntOf .i64} {key : Column} {f : Field}

/-- The cells of an inserted row, one for each column. -/
theorem insertStatement_holds (hr : ∀ c ∈ m.columns, ∃ f, r.field? c.field = some f)
    (id : IntOf .i64) :
    ∃ names values args, m.insertStatement r = .ok (.insert (.simple m.table) names values) ∧
      values.mapM ofValue = .ok args ∧
      ∃ cs, cs.Perm m.columns ∧
        List.Forall₂ (fun c cell => cell.1 = c.name ∧ Holds r id c cell.2) cs
          (m.storedCells names args id) := by
  apply insertStatement_cells
  · intro c hc ha
    obtain ⟨f, hf⟩ := hr c hc
    obtain ⟨a, hv⟩ := f.exists_ofValue
    refine ⟨f.value, a, ?_, hv, rfl, ?_⟩
    · rw [fieldValue, Record.value?, hf]
      rfl
    · rw [Holds, if_neg (by simpa using ha)]
      exact Record.cell?_eq hf hv
  · intro c hc ha
    refine ⟨rfl, ?_⟩
    rw [Holds, if_pos ha, toWire_ofInt]

/-- Of columns with distinct names each finds its own cell. -/
theorem exists_stored {P : Column → WireValue → Prop} {cs : List Column}
    {cells : List (String × WireValue)}
    (h : List.Forall₂ (fun c cell => cell.1 = c.name ∧ P c cell.2) cs cells)
    (hd : DistinctNames (cs.map Column.name)) {c : Column} (hc : c ∈ cs) :
    ∃ w, c.stored? cells = some w ∧ P c w := by
  induction h with
  | nil => cases hc
  | @cons d cell cs cells hcell hcells ih =>
    obtain ⟨hname, hp⟩ := hcell
    by_cases hs : lower d.name = lower c.name
    · have hdc : d = c := hd.eq List.mem_cons_self hc hs
      refine ⟨cell.2, ?_, hdc ▸ hp⟩
      have hfound : sameName cell.1 c.name = true := sameName_iff.2 (by rw [hname, hs])
      simp only [Column.stored?, List.find?_cons, hfound, Option.map_some]
    · have hne : d ≠ c := fun he => hs (he ▸ rfl)
      have hrest : c ∈ cs := List.mem_of_ne_of_mem (Ne.symm hne) hc
      obtain ⟨w, hw, hp⟩ := ih (List.nodup_cons.1 hd).2 hrest
      refine ⟨w, ?_, hp⟩
      have hskip : sameName cell.1 c.name = false := by
        rw [Bool.eq_false_iff, ne_eq, sameName_iff, hname]
        exact hs
      simp only [Column.stored?, List.find?_cons, hskip]
      exact hw

theorem Valid.storage_of_primaryKey (hv : m.Valid) (hk : m.primaryKey? = some key) :
    key ∈ m.columns ∧ key.primaryKey = true ∧ (key.storage = .integer ∨ key.storage = .text) := by
  have hp : key.primaryKey = true := List.find?_some hk
  have hm : key ∈ m.columns := List.mem_of_find?_eq_some hk
  obtain ⟨k, hfilter, hstorage, _⟩ := hv.key
  have hkey : key ∈ m.columns.filter (·.primaryKey) := List.mem_filter.2 ⟨hm, hp⟩
  rw [hfilter, List.mem_singleton] at hkey
  exact ⟨hm, hp, hkey ▸ hstorage⟩

end Mapping

/-- A cell that is not null is written by what it decodes to. -/
theorem Field.decode_of_written {storage : StorageClass} {w : WireValue} {f : Field}
    (hw : w.isNull = false) (h : (f.decode storage w).2 = .written) :
    ∃ x, storage.decode? f.type w = some x ∧ (f.decode storage w).1.value = .ofNative f.type x := by
  obtain ⟨x, hd⟩ := (written_iff hw).1 h
  refine ⟨x, hd, ?_⟩
  rw [decode_of_decode? hw hd]
  exact value_set f x

theorem Numeral.ofInt_ne_empty (i : Int) : ofInt i ≠ "" := by
  intro h
  have hread := integer?_ofInt i
  rw [h] at hread
  cases hread

/-- A key that no row has is not stored as a text that says something. -/
theorem Value.toWire_ne_text {v : Value} (hu : v.isUnassignedKey = true) {a : Argument}
    (ha : ofValue v = .ok a) {s : String} (hs : s ≠ "") : a.toWire ≠ .text s := by
  cases v with
  | null =>
    cases ha
    exact fun h => by cases h
  | i64 n =>
    cases ha
    rw [toWire_ofInt]
    exact fun h => by cases h
  | u64 n =>
    have hn : n.val = 0 := by simpa [isUnassignedKey] using hu
    have hz : (Argument.ofInt 0).toWire = .integer IntOf.zero := toWire_ofInt IntOf.zero
    cases ha
    rw [hn, hz]
    exact fun h => by cases h
  | text t =>
    have ht : t = "" := by simpa [isUnassignedKey] using hu
    cases ha
    rintro ⟨⟩
    exact hs ht
  | _ => cases hu

namespace StorageClass

variable {type : NativeType} {x : type.Carrier}

theorem ofValue_of_decodeText? {s : String} (h : decodeText? s type = some x) :
    ofValue (.ofNative type x) = .ok (.text s) := by
  cases type with
  | string =>
    cases h
    rfl
  | _ => cases h

theorem ofValue_of_decodeInteger? {n : IntOf .i64} (hb : type ≠ .bool)
    (h : decodeInteger? n type = some x) : ofValue (.ofNative type x) = .ok (ofInt n.val) := by
  cases type with
  | bool => exact absurd rfl hb
  | int kind =>
    rw [← IntOf.val_of_ofInt? h]
    exact ofValue_ofInt x
  | timestamp =>
    rw [← Timestamp.wholeSeconds_of_ofSeconds? h]
    rfl
  | _ => cases h

end StorageClass

namespace Mapping

variable {m : Mapping} {r : Record} {id : IntOf .i64} {key : Column} {f : Field}

theorem name_writeRowId (key : Column) (id : IntOf .i64) (f : Field) :
    (writeRowId key id f).1.name = f.name := by
  rw [writeRowId]
  split
  · exact Field.name_decode _ _ f
  · exact Field.name_decode _ _ f

/-- A key that took the row id in is stored as the row id. -/
theorem FitsKey.cell (h : FitsKey key id f) :
    ∃ a, ofValue (writeRowId key id f).1.value = .ok a ∧ a.toWire = rowIdCell key id := by
  obtain ⟨hw, hb⟩ := h
  rw [writeRowId] at hw ⊢
  rw [rowIdCell]
  split at hw
  next ht =>
    obtain ⟨x, hd, hv⟩ := Field.decode_of_written rfl hw
    rw [if_pos ht, if_pos ht, hv]
    exact ⟨_, StorageClass.ofValue_of_decodeText? hd, rfl⟩
  next ht =>
    obtain ⟨x, hd, hv⟩ := Field.decode_of_written rfl hw
    rw [if_neg ht, if_neg ht, hv]
    exact ⟨_, StorageClass.ofValue_of_decodeInteger? hb hd, toWire_ofInt id⟩

/-- Writing the row id back leaves a key that holds something and makes any other the row id. -/
theorem exists_assignRowId (hk : m.primaryKey? = some key) (hf : r.target? key.field = some f)
    (hfit : FitsKey key id f) :
    ∃ r' outcome, m.assignRowId id r = .ok (r', outcome) ∧
      r'.cell? key.field =
        if f.value.isUnassignedKey then some (rowIdCell key id) else r.cell? key.field := by
  have hfield := Record.field?_of_target? hf
  have hvalue : r.value? key.field = some f.value := by
    rw [Record.value?, hfield, Option.map_some]
  cases hu : f.value.isUnassignedKey with
  | false =>
    refine ⟨r, .alreadyAssigned, ?_, by rw [if_neg (by decide)]⟩
    simp only [assignRowId, hk, hvalue, hu]
    rfl
  | true =>
    obtain ⟨a, ha, hcell⟩ := hfit.cell
    refine ⟨r.put key.field (writeRowId key id f).1, .assigned, ?_, ?_⟩
    · simp only [assignRowId, hk, hvalue, hu, hf, hfit.written]
      rfl
    · have hname : (writeRowId key id f).1.name = key.field := by
        rw [name_writeRowId, Record.name_of_target? hf]
      rw [if_pos rfl, ← hcell]
      exact Record.cell?_eq (Record.field?_put hname hfield) ha

/-- After an insert and the writing back of the row id, a record has the key of its row exactly when
the store gave out the key and the record had none, or neither is so, or the record's integer key
was the row id already. -/
theorem cell_assignRowId_iff {d : Declaration} (hd : d.build = .ok m)
    (hr : ∀ c ∈ m.columns, ∃ f, r.field? c.field = some f) (hk : m.primaryKey? = some key)
    (hf : r.target? key.field = some f) (hfit : FitsKey key id f) :
    ∃ names values args r' outcome w,
      m.insertStatement r = .ok (.insert (.simple m.table) names values) ∧
        values.mapM ofValue = .ok args ∧ m.assignRowId id r = .ok (r', outcome) ∧
        key.stored? (m.storedCells names args id) = some w ∧
        (r'.cell? key.field = some w ↔ key.isAutoIncrement = f.value.isUnassignedKey ∨
          key.isAutoIncrement = true ∧ r.cell? key.field = some (.integer id)) := by
  have hv := valid_of_build hd
  obtain ⟨hmem, hprimary, hstorage⟩ := hv.storage_of_primaryKey hk
  obtain ⟨names, values, args, hinsert, hargs, cs, hcs, hcells⟩ := insertStatement_holds hr id
  have hnames : DistinctNames (cs.map Column.name) := by
    rw [DistinctNames, ((hcs.map Column.name).map lower).nodup_iff]
    exact hv.names
  obtain ⟨w, hw, hholds⟩ := exists_stored hcells hnames (hcs.mem_iff.2 hmem)
  obtain ⟨r', outcome, hassign, hcell⟩ := exists_assignRowId hk hf hfit
  refine ⟨names, values, args, r', outcome, w, hinsert, hargs, hassign, hw, ?_⟩
  rw [hcell]
  rw [Holds] at hholds
  -- The insert goes by the storage class of the key, the write-back by what the key holds.
  rcases hstorage with hs | hs
  · have ha : key.isAutoIncrement = true := by
      rw [Column.isAutoIncrement, hprimary, hs]
      rfl
    rw [if_pos ha] at hholds
    have hid : rowIdCell key id = w := by
      rw [rowIdCell, hs, hholds]
      rfl
    cases hu : f.value.isUnassignedKey with
    | true => simp [ha, hid]
    | false => simp [ha, hholds]
  · have ha : key.isAutoIncrement = false := by
      rw [Column.isAutoIncrement, hprimary, hs]
      rfl
    rw [ha, if_neg (by decide)] at hholds
    have hid : rowIdCell key id = .text (Numeral.ofInt id.val) := by
      rw [rowIdCell, hs]
      rfl
    cases hu : f.value.isUnassignedKey with
    | true =>
      obtain ⟨a, hv⟩ := f.exists_ofValue
      rw [Record.cell?_eq (Record.field?_of_target? hf) hv, Option.some.injEq] at hholds
      have hne := Value.toWire_ne_text hu hv (Numeral.ofInt_ne_empty id.val)
      simp [ha, hid, ← hholds, hne.symm]
    | false => simp [ha, hholds]

end Mapping

/-- Tracks of an album, with a key that the store fills in. -/
def tracks : Declaration where
  name := "Track"
  table := some "tracks"
  columns := [
    { field := "id", storage := .integer, primaryKey := true },
    { field := "title", storage := .text }]

def track (id : IntOf .i64) : Record := [
  ⟨"id", .int .i64, .required id, false⟩,
  ⟨"title", .string, .required "Overture", false⟩]

theorem track_field? (id : IntOf .i64) :
    ∀ c ∈ tracks.assemble.columns, ∃ f, (track id).field? c.field = some f := by
  intro c hc
  have hcolumns : tracks.assemble.columns = tracks.columns := rfl
  rw [hcolumns] at hc
  simp only [tracks, List.mem_cons, List.not_mem_nil, or_false] at hc
  rcases hc with rfl | rfl
  · exact ⟨_, rfl⟩
  · exact ⟨_, rfl⟩

/-- The row id that the store gives out. -/
def nextTrack : IntOf .i64 := ⟨12, by decide, by decide⟩

/-- A track without an id takes over the one of its row. -/
theorem cell_assignRowId_track : ∃ key names values args r' outcome w,
    tracks.assemble.primaryKey? = some key ∧
      tracks.assemble.insertStatement (track .zero) =
        .ok (.insert (.simple "tracks") names values) ∧
      values.mapM ofValue = .ok args ∧
      tracks.assemble.assignRowId nextTrack (track .zero) = .ok (r', outcome) ∧
      key.stored? (tracks.assemble.storedCells names args nextTrack) = some w ∧
      r'.cell? key.field = some w := by
  let key : Column := { field := "id", storage := .integer, primaryKey := true }
  have hfit : Mapping.FitsKey key nextTrack ⟨"id", .int .i64, .required .zero, false⟩ :=
    ⟨by decide +kernel, fun h => by cases h⟩
  have hd : tracks.build = .ok tracks.assemble := rfl
  obtain ⟨names, values, args, r', outcome, w, hinsert, hargs, hassign, hw, hiff⟩ :=
    Mapping.cell_assignRowId_iff hd (track_field? .zero) rfl rfl hfit
  exact ⟨key, names, values, args, r', outcome, w, rfl, hinsert, hargs, hassign, hw,
    hiff.2 (.inl rfl)⟩

/-- A track that comes with an id keeps it, while its row gets another. -/
theorem preset_track_differs : ∃ key names values args r' outcome w,
    tracks.build = .ok tracks.assemble ∧ tracks.assemble.primaryKey? = some key ∧
      tracks.assemble.insertStatement (track ⟨7, by decide, by decide⟩) =
        .ok (.insert (.simple "tracks") names values) ∧
      values.mapM ofValue = .ok args ∧
      tracks.assemble.assignRowId nextTrack (track ⟨7, by decide, by decide⟩) =
        .ok (r', outcome) ∧
      key.stored? (tracks.assemble.storedCells names args nextTrack) = some w ∧
      r'.cell? key.field ≠ some w := by
  refine ⟨{ field := "id", storage := .integer, primaryKey := true }, [.simple "title"],
    [.text "Overture"], [.text "Overture"], track ⟨7, by decide, by decide⟩, .alreadyAssigned,
    .integer nextTrack, rfl, rfl, rfl, rfl, rfl, ?_, ?_⟩
  · have hid : (ofInt 12).toWire = .integer nextTrack := toWire_ofInt nextTrack
    have hcells : tracks.assemble.storedCells [.simple "title"] [.text "Overture"] nextTrack =
        [("title", .text "Overture"), ("id", (ofInt 12).toWire)] := rfl
    rw [hcells, hid]
    rfl
  · intro h
    have hcell : (track ⟨7, by decide, by decide⟩).cell? "id" = some (ofInt 7).toWire := rfl
    have hseven : (ofInt 7).toWire = .integer ⟨7, by decide, by decide⟩ := toWire_ofInt ⟨7, _, _⟩
    rw [hcell, hseven] at h
    cases h

end RecordMapper
