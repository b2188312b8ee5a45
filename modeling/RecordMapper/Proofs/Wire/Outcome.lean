import Mathlib.Data.List.TakeWhile
import RecordMapper.Proofs.Wire.Deciding
/-!
What decoding a row comes to. When every field is exposed each field takes the first cell of its
column, and columns that are joined on change nothing, unless the cell that decides some field stops
the program. When a field is not exposed, the row leaves behind what the cells before it wrote.
-/

namespace RecordMapper

open Text

namespace Mapping

variable {m : Mapping} {r : Record} {s s' : RowState} {cells : List (String × WireValue)}

/-- The cell under the first result column that resolves to the column. -/
def firstCell? (m : Mapping) (cells : List (String × WireValue)) (c : Column) : Option WireValue :=
  (cells.find? fun cell => decide (m.ResolvesTo cell.1 c)).map Prod.snd

/-- The field of a column after the first cell of the column, and what became of the cell. -/
def decided (m : Mapping) (cells : List (String × WireValue)) (c : Column) (f : Field) :
    Field × DecodeOutcome :=
  match m.firstCell? cells c with
  | some w => f.decode c.storage w
  | none => (f, .refused)

/-- When no two columns share a field, the cells of a field are those of its column. -/
theorem Valid.cellOf?_field (hv : m.Valid) (hf : (m.columns.map Column.field).Nodup) {c : Column}
    (hc : c ∈ m.columns) (cell : String × WireValue) :
    m.cellOf? c.field cell = if m.ResolvesTo cell.1 c then some (c, cell.2) else none := by
  rw [cellOf?]
  cases hd : m.resultColumn? cell.1 with
  | none =>
    rw [if_neg fun h => by rw [hv.resultColumn?_eq_some_iff.2 h] at hd; cases hd]
    rfl
  | some d =>
    have hmem := (hv.resultColumn?_eq_some_iff.1 hd).1
    have hiff : m.ResolvesTo cell.1 c ↔ d.field = c.field := by
      rw [← hv.resultColumn?_eq_some_iff, hd, Option.some.injEq]
      exact ⟨congrArg Column.field, List.inj_on_of_nodup_map hf hmem hc⟩
    simp only [Option.bind_some, hiff]
    split
    next he => rw [List.inj_on_of_nodup_map hf hmem hc he]
    next => rfl

theorem Valid.decidingCell?_field (hv : m.Valid) (hf : (m.columns.map Column.field).Nodup)
    {c : Column} (hc : c ∈ m.columns) (cells : List (String × WireValue)) :
    m.decidingCell? cells c.field = (m.firstCell? cells c).map (c, ·) := by
  rw [decidingCell?, firstCell?]
  induction cells with
  | nil => rfl
  | cons cell cells ih =>
    rw [List.findSome?_cons, List.find?_cons, hv.cellOf?_field hf hc]
    by_cases h : m.ResolvesTo cell.1 c
    · simp [h]
    · simp [h, ih]

theorem Valid.settle_field (hv : m.Valid) (hf : (m.columns.map Column.field).Nodup) {c : Column}
    (hc : c ∈ m.columns) {f : Field} (hname : f.name = c.field) :
    m.settle cells f = m.decided cells c f := by
  rw [settle, decided, hname, hv.decidingCell?_field hf hc]
  cases m.firstCell? cells c <;> rfl

theorem decidingCell?_eq_none {name : String} (h : ∀ c ∈ m.columns, c.field ≠ name) :
    m.decidingCell? cells name = none := by
  rw [decidingCell?, List.findSome?_eq_none_iff]
  intro cell _
  rw [cellOf?, Option.bind_eq_none_iff]
  intro c hc
  exact if_neg (h c (mem_of_resultColumn? hc))

theorem Settled.field_of_column (h : m.Settled r cells s) (hv : m.Valid)
    (hf : (m.columns.map Column.field).Nodup) {c : Column} (hc : c ∈ m.columns) {f : Field}
    (hfield : r.field? c.field = some f) :
    s.record.field? c.field = some (m.decided cells c f).1 := by
  rw [h.record, hfield, Option.map_some, hv.settle_field hf hc (Record.name_of_field? hfield)]

theorem Settled.field_of_unmapped (h : m.Settled r cells s) {name : String}
    (hname : ∀ c ∈ m.columns, c.field ≠ name) : s.record.field? name = r.field? name := by
  rw [h.record]
  cases hfield : r.field? name with
  | none => rfl
  | some f =>
    rw [← Record.name_of_field? hfield] at hname
    rw [Option.map_some, settle_of_none (decidingCell?_eq_none hname)]

/-- The fields that were written are the written fields of the columns. -/
theorem Settled.assigned_columns (h : m.Settled r cells s)
    (hf : (m.columns.map Column.field).Nodup) :
    s.assigned = m.columns.countP fun c => m.writes r cells c.field := by
  have hmem : ∀ name, m.writes r cells name = true →
      (name ∈ s.visited ↔ name ∈ m.columns.map Column.field) := by
    intro name hw
    rw [writes, Option.any_eq_true] at hw
    obtain ⟨f, hname, hw⟩ := hw
    have hd : m.decidingCell? cells name ≠ none := by
      intro hd
      rw [settle_of_none (by rw [Record.name_of_field? hname, hd])] at hw
      cases hw
    rw [h.visited, Option.isSome_iff_ne_none, List.mem_map]
    refine ⟨fun _ => ?_, fun _ => hd⟩
    by_contra hno
    exact hd (decidingCell?_eq_none fun c hc he => hno ⟨c, hc, he⟩)
  have hperm : (s.visited.filter (m.writes r cells)).Perm
      ((m.columns.map Column.field).filter (m.writes r cells)) := by
    rw [List.perm_ext_iff_of_nodup (h.nodup.filter _) (hf.filter _)]
    intro name
    rw [List.mem_filter, List.mem_filter]
    exact and_congr_left fun hw => hmem name hw
  rw [h.assigned, List.countP_eq_length_filter, hperm.length_eq, ← List.countP_eq_length_filter,
    List.countP_map]
  rfl

theorem Settled.assigned_decided (h : m.Settled r cells s) (hv : m.Valid)
    (hf : (m.columns.map Column.field).Nodup) :
    s.assigned = m.columns.countP fun c =>
      (r.field? c.field).any fun f => (m.decided cells c f).2 = .written := by
  rw [h.assigned_columns hf]
  refine List.countP_congr fun c hc => ?_
  rw [writes]
  cases hfield : r.field? c.field with
  | none => rfl
  | some f =>
    rw [Option.any_some, Option.any_some, hv.settle_field hf hc (Record.name_of_field? hfield)]

theorem decodeCells_append {cells more : List (String × WireValue)}
    (h : m.decodeCells cells s = (s', none)) :
    m.decodeCells (cells ++ more) s = m.decodeCells more s' := by
  induction cells generalizing s with
  | nil =>
    cases h
    rfl
  | cons cell cells ih =>
    rw [decodeCells] at h
    rw [List.cons_append, decodeCells]
    split at h
    next => exact ih h
    next => cases h

/-- Once the fields of all columns have been visited, nothing but the notes changes. -/
theorem decodeCells_of_visited (h : ∀ c ∈ m.columns, c.field ∈ s.visited)
    (cells : List (String × WireValue)) :
    ∃ notes, m.decodeCells cells s = ({ s with notes }, none) := by
  induction cells generalizing s with
  | nil => exact ⟨s.notes, rfl⟩
  | cons cell cells ih =>
    rw [decodeCells]
    cases hc : m.resultColumn? cell.1 with
    | none =>
      simp only [decodeCell, hc]
      exact ih (s := { s with notes.skipped := s.notes.skipped ++ [cell.1] }) h
    | some c =>
      simp only [decodeCell, hc, h c (mem_of_resultColumn? hc), if_true]
      exact ih h

/-- A column that some result column is named after has been visited. -/
theorem Settled.mem_visited (h : m.Settled r cells s) (hv : m.Valid)
    (hf : (m.columns.map Column.field).Nodup) {c : Column} (hc : c ∈ m.columns)
    {cell : String × WireValue} (hcell : cell ∈ cells) (hname : lower c.name = lower cell.1) :
    c.field ∈ s.visited := by
  have hfirst : (cells.find? fun cell => decide (m.ResolvesTo cell.1 c)).isSome = true :=
    List.find?_isSome.2 ⟨cell, hcell, decide_eq_true ⟨hc, .inl hname⟩⟩
  rw [h.visited, hv.decidingCell?_field hf hc, Option.isSome_map, firstCell?, Option.isSome_map]
  exact hfirst

variable {columns : List String} {values : List WireValue}

theorem decodeRow_of_length (hl : columns.length = values.length) (s : RowState) :
    m.decodeRow columns values s = m.decodeCells (columns.zip values) s :=
  if_pos hl

/-- Only vectors are counted. -/
theorem storage_of_overflow {c : Column} {f : Field} (h : (m.decided cells c f).2 = .overflow) :
    ∃ size, c.storage = .vector size := by
  rw [decided] at h
  split at h
  next =>
    obtain ⟨size, hsize, _⟩ := StorageClass.overflows_iff.1 (Field.overflow_iff.1 h)
    exact ⟨size, hsize⟩
  next => cases h

/-- In terms of columns, a row overflows where the first cell of some column does. -/
theorem Valid.overflows_iff (hv : m.Valid) (hf : (m.columns.map Column.field).Nodup) :
    m.Overflows r cells ↔ ∃ c ∈ m.columns, ∃ f, r.field? c.field = some f ∧
      (m.decided cells c f).2 = .overflow := by
  constructor
  · rintro ⟨name, f, hfield, ho⟩
    have hname := Record.name_of_field? hfield
    by_cases hmapped : ∃ c ∈ m.columns, c.field = name
    · obtain ⟨c, hc, rfl⟩ := hmapped
      rw [hv.settle_field hf hc hname] at ho
      exact ⟨c, hc, f, hfield, ho⟩
    · have hnone : m.decidingCell? cells f.name = none := by
        rw [hname]
        exact decidingCell?_eq_none fun c hc he => hmapped ⟨c, hc, he⟩
      rw [settle_of_none hnone] at ho
      cases ho
  · rintro ⟨c, hc, f, hfield, ho⟩
    rw [← hv.settle_field hf hc (Record.name_of_field? hfield)] at ho
    exact ⟨c.field, f, hfield, ho⟩

theorem exposes_of_targets (hr : ∀ c ∈ m.columns, ∃ f, r.target? c.field = some f)
    (cells : List (String × WireValue)) : ∀ cell ∈ cells, m.exposes r cell = true := by
  intro cell _
  rw [exposes, Option.all_eq_true]
  intro c hc
  obtain ⟨f, hf⟩ := hr c (mem_of_resultColumn? hc)
  rw [hf]
  rfl

/-- A record that exposes its fields takes all cells of a row, unless one stops the program. -/
theorem decodeCells_settled (hr : ∀ c ∈ m.columns, ∃ f, r.target? c.field = some f)
    (hno : ¬m.Overflows r cells) (notes : RowNotes) :
    ∃ s, m.decodeCells cells { record := r, notes } = (s, none) ∧ m.Settled r cells s := by
  have hexposes := exposes_of_targets hr cells
  have hall : cells.takeWhile (m.exposes r) = cells := List.takeWhile_eq_self_iff.2 hexposes
  obtain ⟨s, fault, hrun, hs, hfault⟩ :=
    (Settled.start m r notes).run cells (by rwa [List.nil_append, hall])
  rw [hfault.2 hexposes] at hrun
  rw [List.nil_append, hall] at hs
  exact ⟨s, hrun, hs⟩

theorem decodeCells_of_overflows (hr : ∀ c ∈ m.columns, ∃ f, r.target? c.field = some f)
    (ho : m.Overflows r cells) (notes : RowNotes) :
    ∃ s, m.decodeCells cells { record := r, notes } = (s, some .overflow) := by
  have hall : cells.takeWhile (m.exposes r) = cells :=
    List.takeWhile_eq_self_iff.2 (exposes_of_targets hr cells)
  exact (Settled.start m r notes).run_of_overflows cells (by rwa [List.nil_append, hall])

/-- A row of a record that exposes its fields is decoded into each field from the first cell of the
column, and nothing else is touched. Once all columns have been named, further cells change neither
the record nor the number of fields written. The exception are rows where the cell that decides some
field overflows: these stop the program. -/
theorem decodeRow_decided {d : Declaration} (hd : d.build = .ok m)
    (hf : (m.columns.map Column.field).Nodup)
    (hr : ∀ c ∈ m.columns, ∃ f, r.target? c.field = some f)
    (hl : columns.length = values.length) (notes : RowNotes) :
    ((∀ c ∈ m.columns, ∀ f, r.field? c.field = some f →
        (m.decided (columns.zip values) c f).2 ≠ .overflow) →
      ∃ s, m.decodeRow columns values { record := r, notes } = (s, none) ∧
        (∀ c ∈ m.columns, ∀ f, r.field? c.field = some f →
          s.record.field? c.field = some (m.decided (columns.zip values) c f).1) ∧
        (∀ name, (∀ c ∈ m.columns, c.field ≠ name) → s.record.field? name = r.field? name) ∧
        s.assigned = m.columns.countP (fun c =>
          (r.field? c.field).any fun f => (m.decided (columns.zip values) c f).2 = .written) ∧
        ((∀ c ∈ m.columns, ∃ name ∈ columns, lower c.name = lower name) →
          ∀ (joined : List String) (others : List WireValue), joined.length = others.length →
            ∃ s', m.decodeRow (columns ++ joined) (values ++ others) { record := r, notes } =
                (s', none) ∧ s'.record = s.record ∧ s'.assigned = s.assigned)) ∧
    ((∃ c ∈ m.columns, ∃ f, r.field? c.field = some f ∧
        (m.decided (columns.zip values) c f).2 = .overflow) →
      ∃ s, m.decodeRow columns values { record := r, notes } = (s, some .overflow)) := by
  have hv := valid_of_build hd
  rw [decodeRow_of_length hl, ← hv.overflows_iff hf]
  refine ⟨fun hcalm => ?_, fun ho => decodeCells_of_overflows hr ho notes⟩
  have hno : ¬m.Overflows r (columns.zip values) := by
    rw [hv.overflows_iff hf]
    rintro ⟨c, hc, f, hfield, ho⟩
    exact hcalm c hc f hfield ho
  obtain ⟨s, hrun, hs⟩ := decodeCells_settled hr hno notes
  refine ⟨s, hrun, fun c hc f => hs.field_of_column hv hf hc,
    fun name => hs.field_of_unmapped, hs.assigned_decided hv hf, ?_⟩
  intro hnamed joined others hjoined
  have hvisited : ∀ c ∈ m.columns, c.field ∈ s.visited := by
    intro c hc
    obtain ⟨name, hname, he⟩ := hnamed c hc
    rw [← List.map_fst_zip (Nat.le_of_eq hl)] at hname
    obtain ⟨cell, hcell, rfl⟩ := List.mem_map.1 hname
    exact hs.mem_visited hv hf hc hcell he
  obtain ⟨notes', hrest⟩ := decodeCells_of_visited hvisited (joined.zip others)
  refine ⟨{ s with notes := notes' }, ?_, rfl, rfl⟩
  rw [decodeRow_of_length (by simp [hl, hjoined]), List.zip_append hl, decodeCells_append hrun,
    hrest]

end Mapping

/-- Albums, with a year that may be missing. -/
def albums : Declaration where
  name := "Album"
  table := some "albums"
  columns := [
    { field := "id", storage := .integer, primaryKey := true },
    { field := "title", name := "album_title", storage := .text },
    { field := "year", storage := .integer, nullable := true }]

/-- An album whose title may be a read-only field. -/
def album (locked : Bool) : Record := [
  ⟨"id", .int .i64, .required ⟨6, by decide, by decide⟩, false⟩,
  ⟨"title", .string, .required "", locked⟩,
  ⟨"year", .int .i16, .optional (some ⟨1971, by decide, by decide⟩), false⟩]

theorem album_target? :
    ∀ c ∈ albums.assemble.columns, ∃ f, (album false).target? c.field = some f := by
  intro c hc
  have hcolumns : albums.assemble.columns = albums.columns := rfl
  rw [hcolumns] at hc
  simp only [albums, List.mem_cons, List.not_mem_nil, or_false] at hc
  rcases hc with rfl | rfl | rfl
  all_goals exact ⟨_, rfl⟩

theorem album_calm (cells : List (String × WireValue)) (r : Record) :
    ∀ c ∈ albums.assemble.columns, ∀ f, r.field? c.field = some f →
      (albums.assemble.decided cells c f).2 ≠ .overflow := by
  intro c hc f _ ho
  obtain ⟨size, hsize⟩ := Mapping.storage_of_overflow ho
  have hcolumns : albums.assemble.columns = albums.columns := rfl
  rw [hcolumns] at hc
  simp only [albums, List.mem_cons, List.not_mem_nil, or_false] at hc
  rcases hc with rfl | rfl | rfl
  all_goals cases hsize

/-- The title comes under the name of its field first, the year does not fit its type, and the
label that is joined on has an id of its own. -/
theorem decodeRow_decided_album :
    let columns := ["Title", "ID", "year", "album_title"]
    let values : List WireValue :=
      [.text "Blue", .integer ⟨9, by decide, by decide⟩, .text "40000", .text "Hejira"]
    ∃ s s', albums.assemble.decodeRow columns values { record := album false } = (s, none) ∧
      s.record.field? "title" = some ⟨"title", .string, .required "Blue", false⟩ ∧
      s.record.field? "year" = (album false).field? "year" ∧ s.assigned = 2 ∧
      albums.assemble.decodeRow (columns ++ ["id", "name"])
          (values ++ [.integer ⟨3, by decide, by decide⟩, .text "Reprise"])
          { record := album false } = (s', none) ∧
        s'.record = s.record ∧ s'.assigned = s.assigned := by
  intro columns values
  have hbuild : albums.build = .ok albums.assemble := rfl
  have hlength : columns.length = values.length := rfl
  obtain ⟨s, hrow, hfields, _, hassigned, hjoined⟩ :=
    (Mapping.decodeRow_decided hbuild (by decide) album_target? hlength {}).1 (album_calm _ _)
  obtain ⟨s', hrow', hrecord, hassigned'⟩ := hjoined (by decide +kernel) ["id", "name"]
    [.integer ⟨3, by decide, by decide⟩, .text "Reprise"] rfl
  refine ⟨s, s', hrow, ?_, ?_, ?_, hrow', hrecord, hassigned'⟩
  · exact hfields _ (.tail _ (.head _)) _ rfl
  · exact hfields _ (.tail _ (.tail _ (.head _))) _ rfl
  · rw [hassigned]
    decide +kernel

/-- Traces with a key and a vector of `2 ^ 62` elements. -/
def traces : Declaration where
  name := "Trace"
  columns := [
    { field := "id", storage := .integer, primaryKey := true },
    { field := "trace", storage := .vector 4611686018427387904 }]

def emptyTrace : Record := [
  ⟨"id", .int .i64, .required ⟨1, by decide, by decide⟩, false⟩,
  ⟨"trace", .vector, .required [], false⟩]

/-- A payload of no bytes for the vector does not pass as refused: it stops the program, and no
number of written fields is returned. -/
theorem decodeRow_stopped_trace :
    traces.build = .ok traces.assemble ∧
      (traces.assemble.columns.map Column.field).Nodup ∧
      (∀ c ∈ traces.assemble.columns, (emptyTrace.target? c.field).isSome = true) ∧
      (∃ s, traces.assemble.decodeRow ["trace"] [.bytes []] { record := emptyTrace } =
        (s, some .overflow)) ∧
      ¬∃ s,
        traces.assemble.decodeRow ["trace"] [.bytes []] { record := emptyTrace } = (s, none) := by
  have hrow : traces.assemble.decodeRow ["trace"] [.bytes []] { record := emptyTrace } =
      ({ record := emptyTrace }, some .overflow) := rfl
  refine ⟨rfl, by decide, by decide +kernel, ⟨_, hrow⟩, ?_⟩
  rintro ⟨s, hs⟩
  rw [hrow] at hs
  cases congrArg Prod.snd hs

namespace Mapping

variable {m : Mapping} {r : Record} {s : RowState} {columns : List String} {values : List WireValue}

/-- A row that fails leaves the record alone exactly when it has the wrong width, or when every
field that was decided before the failure was given what it held. -/
theorem decodeRow_unchanged_iff {fault : RecordFault} {notes : RowNotes}
    (h : m.decodeRow columns values { record := r, notes } = (s, some (.fault fault))) :
    (∀ name, s.record.field? name = r.field? name) ↔
      columns.length ≠ values.length ∨ ∀ name f, r.field? name = some f →
        (m.settle ((columns.zip values).takeWhile (m.exposes r)) f).1 = f := by
  by_cases hl : columns.length = values.length
  · rw [decodeRow_of_length hl] at h
    have hno : ¬m.Overflows r ([] ++ (columns.zip values).takeWhile (m.exposes r)) := by
      intro ho
      obtain ⟨s', hrun⟩ := (Settled.start m r notes).run_of_overflows (columns.zip values) ho
      rw [h] at hrun
      cases congrArg Prod.snd hrun
    obtain ⟨s', fault', hrun, hs, _⟩ := (Settled.start m r notes).run (columns.zip values) hno
    rw [List.nil_append] at hs
    rw [h, Prod.mk.injEq] at hrun
    rw [← hrun.1] at hs
    simp only [hl, ne_eq, not_true, false_or, hs.record]
    refine forall_congr' fun name => ?_
    cases r.field? name <;> simp
  · rw [decodeRow, if_neg hl] at h
    cases h
    simp [hl]

end Mapping

/-- The id that a row repeats stands before the title, which is not exposed. -/
theorem decodeRow_unchanged_album :
    ∃ s fault, albums.assemble.decodeRow ["id", "title"]
        [.integer ⟨6, by decide, by decide⟩, .text "Blue"] { record := album true } =
        (s, some (.fault fault)) ∧
      ∀ name, s.record.field? name = (album true).field? name := by
  obtain ⟨s, fault, h⟩ : ∃ s fault, albums.assemble.decodeRow ["id", "title"]
      [.integer ⟨6, by decide, by decide⟩, .text "Blue"] { record := album true } =
      (s, some (.fault fault)) := ⟨_, _, rfl⟩
  refine ⟨s, fault, h, (Mapping.decodeRow_unchanged_iff h).2 (.inr fun name f hf => ?_)⟩
  have hmem : f ∈ album true := List.mem_of_find?_eq_some hf
  simp only [album, List.mem_cons, List.not_mem_nil, or_false] at hmem
  rcases hmem with rfl | rfl | rfl
  all_goals rfl

/-- An id that stands before a title that is not exposed is written, although the row fails. -/
theorem album_changed_by_failed_row :
    ∃ s, albums.build = .ok albums.assemble ∧
      albums.assemble.decodeRow ["id", "title"]
          [.integer ⟨9, by decide, by decide⟩, .text "Blue"] { record := album true } =
        (s, some (.fault (.hiddenField "Album" "title"))) ∧
      s.record.field? "id" ≠ (album true).field? "id" := by
  refine ⟨_, rfl, rfl, fun h => ?_⟩
  have hid : (9 : Int) = 6 := congrArg (fun f => f.elim 0 fun f => f.value.asInt?.getD 0) h
  revert hid
  decide

end RecordMapper
