import RecordMapper.Proofs.Wire.Row
/-!
What a row leaves in a record, field by field. A field takes the first cell of a column that is
mapped from it and no other. The row ends at the first cell of a field that is not exposed, or where
the cell that decides a field stops the program.
-/

namespace RecordMapper

open Text

theorem Field.readOnly_decode (storage : StorageClass) (w : WireValue) (f : Field) :
    (f.decode storage w).1.readOnly = f.readOnly := by
  simp only [decode]
  split
  · rfl
  · split
    · rfl
    · split <;> rfl

/-- A field stays exposed whatever it holds. -/
theorem Record.isSome_target?_of_map {r r' : Record} {name : String} {g : Field → Field}
    (h : r'.field? name = (r.field? name).map g) (hg : ∀ f, (g f).readOnly = f.readOnly) :
    (r'.target? name).isSome = (r.target? name).isSome := by
  rw [target?, target?, h]
  cases r.field? name with
  | none => rfl
  | some f =>
    simp only [Option.map_some, Option.bind_some, hg]
    cases f.readOnly <;> rfl

namespace Mapping

variable {m : Mapping} {r : Record} {s : RowState}

/-- A result column is a column's by its name or, when no column has that name, by its field. -/
def ResolvesTo (m : Mapping) (name : String) (c : Column) : Prop :=
  c ∈ m.columns ∧ (lower c.name = lower name ∨
    (∀ d ∈ m.columns, lower d.name ≠ lower name) ∧
      m.columns.find? (fun d => sameName d.field name) = some c)

instance (m : Mapping) (name : String) (c : Column) : Decidable (m.ResolvesTo name c) :=
  inferInstanceAs (Decidable (_ ∧ _))

theorem mem_of_resultColumn? {name : String} {c : Column} (h : m.resultColumn? name = some c) :
    c ∈ m.columns := by
  rw [resultColumn?] at h
  rcases Option.or_eq_some_iff.1 h with h | ⟨_, h⟩
  · exact List.mem_of_find?_eq_some h
  · exact List.mem_of_find?_eq_some h

theorem Valid.resultColumn?_eq_some_iff (hv : m.Valid) {name : String} {c : Column} :
    m.resultColumn? name = some c ↔ m.ResolvesTo name c := by
  rw [resultColumn?, ResolvesTo]
  cases hn : m.columnByName? name with
  | some d =>
    obtain ⟨hd, hname⟩ := columnByName?_eq_some hn
    rw [Option.some_or, Option.some.injEq]
    constructor
    · rintro rfl
      exact ⟨hd, .inl hname⟩
    · rintro ⟨hc, hs | ⟨hno, _⟩⟩
      · exact hv.names.eq hd hc (hname.trans hs.symm)
      · exact absurd hname (hno d hd)
  | none =>
    have hno : ∀ d ∈ m.columns, lower d.name ≠ lower name := by
      intro d hd hs
      rw [hv.columnByName hd hs] at hn
      cases hn
    rw [Option.none_or]
    constructor
    · exact fun h => ⟨List.mem_of_find?_eq_some h, .inr ⟨hno, h⟩⟩
    · rintro ⟨hc, hs | ⟨_, h⟩⟩
      · exact absurd hs (hno c hc)
      · exact h

/-- A cell leaves its mark on the field that its column is mapped from, and on no other. -/
theorem decodeCell_of_target {name : String} {c : Column} {w : WireValue} {f : Field}
    (h : m.resultColumn? name = some c) (hn : c.field ∉ s.visited)
    (hf : s.record.target? c.field = some f) (ho : (f.decode c.storage w).2 ≠ .overflow) :
    ∃ s', m.decodeCell name w s = .ok s' ∧ s'.visited = s.visited ++ [c.field] ∧
      s'.record.field? c.field = some (f.decode c.storage w).1 ∧
      (∀ other ≠ c.field, s'.record.field? other = s.record.field? other) ∧
      s'.assigned = s.assigned + if (f.decode c.storage w).2 = .written then 1 else 0 := by
  have hfield := Record.field?_of_target? hf
  have hname : (f.decode c.storage w).1.name = c.field := by
    rw [Field.name_decode, Record.name_of_target? hf]
  simp only [decodeCell, h, hn, if_false, hf]
  cases hw : (f.decode c.storage w).2 with
  | written =>
    refine ⟨_, rfl, rfl, Record.field?_put hname hfield, ?_, rfl⟩
    intro other hne
    exact Record.field?_put_ne hname hne s.record
  | refused =>
    refine ⟨_, rfl, rfl, ?_, fun other _ => rfl, rfl⟩
    rw [Field.decode_of_not_written (by rw [hw]; decide)]
    exact hfield
  | overflow => exact absurd hw ho

theorem decodeCell_of_overflow {name : String} {c : Column} {w : WireValue} {f : Field}
    (h : m.resultColumn? name = some c) (hn : c.field ∉ s.visited)
    (hf : s.record.target? c.field = some f) (ho : (f.decode c.storage w).2 = .overflow) :
    m.decodeCell name w s = .error .overflow := by
  simp only [decodeCell, h, hn, if_false, hf, ho]

variable {done cells : List (String × WireValue)} {cell : String × WireValue}

/-- The column of a cell when it is mapped from the field, with the content of the cell. -/
def cellOf? (m : Mapping) (field : String) (cell : String × WireValue) :
    Option (Column × WireValue) :=
  (m.resultColumn? cell.1).bind fun c => if c.field = field then some (c, cell.2) else none

/-- The cell that decides a field, and the column that it belongs to. -/
def decidingCell? (m : Mapping) (cells : List (String × WireValue)) (field : String) :
    Option (Column × WireValue) :=
  cells.findSome? (m.cellOf? field)

/-- A field after the cell that decides it, and what became of the cell. A field that no cell
decides is as one whose cell was refused. -/
def settle (m : Mapping) (cells : List (String × WireValue)) (f : Field) : Field × DecodeOutcome :=
  match m.decidingCell? cells f.name with
  | some (c, w) => f.decode c.storage w
  | none => (f, .refused)

/-- A cell that no field takes or whose field is a destination for decoding. -/
def exposes (m : Mapping) (r : Record) (cell : String × WireValue) : Bool :=
  (m.resultColumn? cell.1).all fun c => (r.target? c.field).isSome

def writes (m : Mapping) (r : Record) (cells : List (String × WireValue)) (field : String) : Bool :=
  (r.field? field).any fun f => (m.settle cells f).2 = .written

/-- A cell that decides a field of the record stops the program. -/
def Overflows (m : Mapping) (r : Record) (cells : List (String × WireValue)) : Prop :=
  ∃ name f, r.field? name = some f ∧ (m.settle cells f).2 = .overflow

/-- The state of a row once these cells have been decoded into `r`. -/
structure Settled (m : Mapping) (r : Record) (cells : List (String × WireValue)) (s : RowState) :
    Prop where
  record : ∀ name, s.record.field? name = (r.field? name).map fun f => (m.settle cells f).1
  visited : ∀ name, name ∈ s.visited ↔ (m.decidingCell? cells name).isSome = true
  exposed : ∀ name ∈ s.visited, (r.target? name).isSome = true
  nodup : s.visited.Nodup
  calm : ¬m.Overflows r cells
  assigned : s.assigned = s.visited.countP (m.writes r cells)

theorem decidingCell?_concat (m : Mapping) (done : List (String × WireValue))
    (cell : String × WireValue) (field : String) :
    m.decidingCell? (done ++ [cell]) field =
      (m.decidingCell? done field).or (m.cellOf? field cell) := by
  rw [decidingCell?, List.findSome?_append, List.findSome?_singleton]
  rfl

theorem settle_of_none {f : Field} (h : m.decidingCell? cells f.name = none) :
    m.settle cells f = (f, .refused) := by
  rw [settle, h]

theorem settle_of_some {f : Field} {c : Column} {w : WireValue}
    (h : m.decidingCell? cells f.name = some (c, w)) :
    m.settle cells f = f.decode c.storage w := by
  rw [settle, h]

theorem settle_congr {f : Field} {cells' : List (String × WireValue)}
    (h : m.decidingCell? cells f.name = m.decidingCell? cells' f.name) :
    m.settle cells f = m.settle cells' f := by
  rw [settle, settle, h]

theorem readOnly_settle (m : Mapping) (cells : List (String × WireValue)) (f : Field) :
    (m.settle cells f).1.readOnly = f.readOnly := by
  rw [settle]
  split
  · exact Field.readOnly_decode _ _ f
  · rfl

theorem writes_congr {name : String} {cells' : List (String × WireValue)}
    (h : m.decidingCell? cells name = m.decidingCell? cells' name) :
    m.writes r cells name = m.writes r cells' name := by
  rw [writes, writes]
  cases hf : r.field? name with
  | none => rfl
  | some f =>
    rw [← Record.name_of_field? hf] at h
    simp only [Option.any_some, settle_congr h]

/-- What decides a field goes on deciding it. -/
theorem Overflows.append (h : m.Overflows r done) (cells : List (String × WireValue)) :
    m.Overflows r (done ++ cells) := by
  obtain ⟨name, f, hf, ho⟩ := h
  refine ⟨name, f, hf, ?_⟩
  cases hd : m.decidingCell? done f.name with
  | none =>
    rw [settle_of_none hd] at ho
    cases ho
  | some cell =>
    have hmore : m.decidingCell? (done ++ cells) f.name = m.decidingCell? done f.name := by
      rw [decidingCell?, List.findSome?_append, ← decidingCell?, hd]
      rfl
    rwa [settle_congr hmore]

theorem Settled.start (m : Mapping) (r : Record) (notes : RowNotes) :
    m.Settled r [] { record := r, notes } where
  record name := by
    cases r.field? name <;> rfl
  visited name := by simp [decidingCell?]
  exposed := by simp
  nodup := List.nodup_nil
  calm := by
    rintro ⟨name, f, _, ho⟩
    cases ho
  assigned := rfl

namespace Settled

variable (h : m.Settled r done s)

include h

theorem isSome_target? (name : String) :
    (s.record.target? name).isSome = (r.target? name).isSome :=
  Record.isSome_target?_of_map (h.record name) (m.readOnly_settle done)

/-- A cell that decides no field leaves the state of the row as it was. -/
theorem pass (hc : ∀ field, m.decidingCell? (done ++ [cell]) field = m.decidingCell? done field)
    (notes : RowNotes) : m.Settled r (done ++ [cell]) { s with notes } where
  record name := by
    simp only [h.record name, settle_congr (hc _)]
  visited name := by rw [hc, h.visited]
  exposed := h.exposed
  nodup := h.nodup
  calm := by
    rintro ⟨name, f, hf, ho⟩
    rw [settle_congr (hc _)] at ho
    exact h.calm ⟨name, f, hf, ho⟩
  assigned := h.assigned.trans (List.countP_congr fun name _ => by rw [writes_congr (hc name)])

section

variable {c : Column} {f : Field} (hc : m.resultColumn? cell.1 = some c)
  (hn : c.field ∉ s.visited) (hf : s.record.target? c.field = some f)

include hn in
theorem decidingCell?_of_open : m.decidingCell? done c.field = none := by
  rw [h.visited] at hn
  simpa using hn

include hn hf in
/-- Nothing has touched a field that is still open, so it is as it is in `r`. -/
theorem field_of_open : r.field? c.field = some f := by
  have hs := (h.record c.field).symm.trans (Record.field?_of_target? hf)
  obtain ⟨g, hg, hgf⟩ := Option.map_eq_some_iff.1 hs
  rw [settle_of_none (by rw [Record.name_of_field? hg, h.decidingCell?_of_open hn])] at hgf
  rw [hg, ← hgf]

include hc hn in
theorem decidingCell?_open :
    m.decidingCell? (done ++ [cell]) c.field = some (c, cell.2) := by
  rw [decidingCell?_concat, h.decidingCell?_of_open hn, cellOf?, hc, Option.bind_some, if_pos rfl,
    Option.none_or]

include hc hn hf in
theorem settle_open : m.settle (done ++ [cell]) f = f.decode c.storage cell.2 :=
  settle_of_some (by
    rw [Record.name_of_field? (h.field_of_open hn hf), h.decidingCell?_open hc hn])

include hc hn hf in
/-- A cell decides the field of its column when no cell before it has. -/
theorem take (ho : (f.decode c.storage cell.2).2 ≠ .overflow) {s' : RowState}
    (hv : s'.visited = s.visited ++ [c.field])
    (hfield : s'.record.field? c.field = some (f.decode c.storage cell.2).1)
    (hother : ∀ other ≠ c.field, s'.record.field? other = s.record.field? other)
    (ha : s'.assigned = s.assigned + if (f.decode c.storage cell.2).2 = .written then 1 else 0) :
    m.Settled r (done ++ [cell]) s' := by
  have hr := h.field_of_open hn hf
  have hsettle := h.settle_open hc hn hf
  have hsame {name : String} (hne : name ≠ c.field) :
      m.decidingCell? (done ++ [cell]) name = m.decidingCell? done name := by
    rw [decidingCell?_concat, cellOf?, hc, Option.bind_some, if_neg (Ne.symm hne), Option.or_none]
  refine ⟨fun name => ?_, fun name => ?_, fun name hname => ?_, ?_, ?_, ?_⟩
  · by_cases hne : name = c.field
    · rw [hne, hfield, hr, Option.map_some, hsettle]
    · rw [hother name hne, h.record name]
      cases hg : r.field? name with
      | none => rfl
      | some g =>
        rw [← Record.name_of_field? hg] at hne
        rw [Option.map_some, Option.map_some, settle_congr (hsame hne)]
  · rw [hv, List.mem_append, List.mem_singleton]
    by_cases hne : name = c.field
    · simp [hne, h.decidingCell?_open hc hn]
    · rw [hsame hne, h.visited]
      simp [hne]
  · rw [hv, List.mem_append, List.mem_singleton] at hname
    rcases hname with hname | rfl
    · exact h.exposed name hname
    · rw [← h.isSome_target?, hf]
      rfl
  · rw [hv, List.nodup_append]
    refine ⟨h.nodup, List.nodup_singleton _, fun a ha b hb he => hn ?_⟩
    rw [← List.mem_singleton.1 hb, ← he]
    exact ha
  · rintro ⟨name, g, hg, hover⟩
    by_cases hne : name = c.field
    · rw [hne, hr, Option.some.injEq] at hg
      rw [← hg, hsettle] at hover
      exact ho hover
    · rw [← Record.name_of_field? hg] at hne
      rw [settle_congr (hsame hne)] at hover
      exact h.calm ⟨name, g, hg, hover⟩
  · have hwrites : m.writes r (done ++ [cell]) c.field =
        decide ((f.decode c.storage cell.2).2 = .written) := by
      rw [writes, hr, Option.any_some, hsettle]
    have hvisited : s.visited.countP (m.writes r (done ++ [cell])) =
        s.visited.countP (m.writes r done) := by
      refine List.countP_congr fun name hname => ?_
      rw [writes_congr (hsame fun he => hn (he ▸ hname))]
    rw [ha, hv, List.countP_append, hvisited, ← h.assigned, List.countP_singleton, hwrites]
    simp only [decide_eq_true_eq]

end

/-- A cell that is exposed is decoded, and settles the field that is still open, if any. -/
theorem step (he : m.exposes r cell = true) (hno : ¬m.Overflows r (done ++ [cell])) :
    ∃ s', m.decodeCell cell.1 cell.2 s = .ok s' ∧ m.Settled r (done ++ [cell]) s' := by
  cases hc : m.resultColumn? cell.1 with
  | none =>
    refine ⟨_, by rw [decodeCell, hc], h.pass (fun field => ?_) _⟩
    rw [decidingCell?_concat, cellOf?, hc, Option.bind_none, Option.or_none]
  | some c =>
    by_cases hn : c.field ∈ s.visited
    · refine ⟨s, by simp only [decodeCell, hc, hn, if_true], h.pass (fun field => ?_) s.notes⟩
      rw [decidingCell?_concat, cellOf?, hc, Option.bind_some]
      by_cases hfield : c.field = field
      · rw [hfield, h.visited] at hn
        obtain ⟨d, hd⟩ := Option.isSome_iff_exists.1 hn
        rw [hd, Option.some_or]
      · rw [if_neg hfield, Option.or_none]
    · rw [exposes, hc, Option.all_some, ← h.isSome_target?] at he
      obtain ⟨f, hf⟩ := Option.isSome_iff_exists.1 he
      have ho : (f.decode c.storage cell.2).2 ≠ .overflow := by
        intro ho
        rw [← h.settle_open hc hn hf] at ho
        exact hno ⟨c.field, f, h.field_of_open hn hf, ho⟩
      obtain ⟨s', hs', hv, hfield, hother, ha⟩ := decodeCell_of_target hc hn hf ho
      exact ⟨s', hs', h.take hc hn hf ho hv hfield hother ha⟩

/-- The cell that stops the program is the one that decides the field. -/
theorem burst (he : m.exposes r cell = true) (ho : m.Overflows r (done ++ [cell])) :
    m.decodeCell cell.1 cell.2 s = .error .overflow := by
  obtain ⟨name, f, hf, hover⟩ := ho
  have hname := Record.name_of_field? hf
  cases hd : m.decidingCell? done f.name with
  | some d =>
    refine absurd ?_ h.calm
    have hsame : m.decidingCell? (done ++ [cell]) f.name = m.decidingCell? done f.name := by
      rw [decidingCell?_concat, hd, Option.some_or]
    rw [settle_congr hsame] at hover
    exact ⟨name, f, hf, hover⟩
  | none =>
    cases hcell : m.cellOf? f.name cell with
    | none =>
      rw [settle_of_none (by rw [decidingCell?_concat, hd, hcell]; rfl)] at hover
      cases hover
    | some d =>
      obtain ⟨c, hc, hfield⟩ := Option.bind_eq_some_iff.1 hcell
      rw [Option.ite_none_right_eq_some, Option.some.injEq] at hfield
      obtain ⟨hfield, rfl⟩ := hfield
      have hn : c.field ∉ s.visited := by
        rw [h.visited, hfield, hd]
        nofun
      have hopen := he
      rw [exposes, hc, Option.all_some, ← h.isSome_target?] at hopen
      obtain ⟨g, hg⟩ := Option.isSome_iff_exists.1 hopen
      have hr := h.field_of_open hn hg
      rw [hfield, hname, hf, Option.some.injEq] at hr
      subst hr
      rw [h.settle_open hc hn hg] at hover
      exact decodeCell_of_overflow hc hn hg hover

/-- A cell whose field is not exposed is refused: no cell before it can have decided the field. -/
theorem stop (he : m.exposes r cell = false) :
    ∃ c, m.resultColumn? cell.1 = some c ∧
      m.decodeCell cell.1 cell.2 s = .error (.fault (.hiddenField m.name c.field)) := by
  cases hc : m.resultColumn? cell.1 with
  | none =>
    rw [exposes, hc] at he
    cases he
  | some c =>
    rw [exposes, hc, Option.all_some] at he
    have hn : c.field ∉ s.visited := by
      intro hn
      rw [h.exposed c.field hn] at he
      cases he
    rw [← h.isSome_target?, Option.isSome_eq_false_iff, Option.isNone_iff_eq_none] at he
    refine ⟨c, rfl, ?_⟩
    simp only [decodeCell, hc, hn, if_false, he]

end Settled

/-- A row settles the fields of the cells before the first that is not exposed, when none of these
stops the program. -/
theorem Settled.run (h : m.Settled r done s) (cells : List (String × WireValue))
    (hno : ¬m.Overflows r (done ++ cells.takeWhile (m.exposes r))) :
    ∃ s' fault, m.decodeCells cells s = (s', Option.map .fault fault) ∧
      m.Settled r (done ++ cells.takeWhile (m.exposes r)) s' ∧
      (fault = none ↔ ∀ cell ∈ cells, m.exposes r cell = true) := by
  induction cells generalizing done s with
  | nil =>
    refine ⟨s, none, rfl, ?_, by simp⟩
    rwa [List.takeWhile_nil, List.append_nil]
  | cons cell cells ih =>
    cases he : m.exposes r cell with
    | true =>
      rw [List.takeWhile_cons_of_pos he, List.append_cons] at hno ⊢
      obtain ⟨s₁, h₁, hsettled⟩ := h.step he fun ho => hno (ho.append _)
      obtain ⟨s', fault, hrun, hs', hfault⟩ := ih hsettled hno
      refine ⟨s', fault, ?_, hs', ?_⟩
      · rw [decodeCells, h₁]
        exact hrun
      · rw [hfault, List.forall_mem_cons, he]
        simp
    | false =>
      obtain ⟨c, _, hstop⟩ := h.stop he
      refine ⟨s, some (.hiddenField m.name c.field), by rw [decodeCells, hstop]; rfl, ?_, ?_⟩
      · rw [List.takeWhile_cons_of_neg (by simp [he]), List.append_nil]
        exact h
      · rw [List.forall_mem_cons, he]
        simp

/-- When one of them does, the row goes no further. -/
theorem Settled.run_of_overflows (h : m.Settled r done s) (cells : List (String × WireValue))
    (ho : m.Overflows r (done ++ cells.takeWhile (m.exposes r))) :
    ∃ s', m.decodeCells cells s = (s', some .overflow) := by
  induction cells generalizing done s with
  | nil =>
    rw [List.takeWhile_nil, List.append_nil] at ho
    exact absurd ho h.calm
  | cons cell cells ih =>
    cases he : m.exposes r cell with
    | true =>
      rw [List.takeWhile_cons_of_pos he, List.append_cons] at ho
      by_cases hcell : m.Overflows r (done ++ [cell])
      · exact ⟨s, by rw [decodeCells, h.burst he hcell]⟩
      · obtain ⟨s₁, h₁, hsettled⟩ := h.step he hcell
        obtain ⟨s', hrun⟩ := ih hsettled ho
        exact ⟨s', by rw [decodeCells, h₁]; exact hrun⟩
    | false =>
      rw [List.takeWhile_cons_of_neg (by simp [he]), List.append_nil] at ho
      exact absurd ho h.calm

end Mapping

end RecordMapper
