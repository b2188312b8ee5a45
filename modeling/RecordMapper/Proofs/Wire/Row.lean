import RecordMapper.Proofs.Schema.Validity
import RecordMapper.Proofs.Wire.Cell
import RecordMapper.Wire.Row
/-!
Decoding a row that has one cell for each of some columns.
-/

namespace RecordMapper

open Text Argument

/-- A field and the column that it is stored in. -/
structure Column.Stores (c : Column) (f : Field) : Prop where
  storage : c.storage.IsClassOf f.type
  content : ∀ x, f.slot.get? = some x → c.storage.Keeps f.type x

namespace Slot

variable {α : Type} {s t : Slot α}

theorem set_of_get? {x : α} (ho : s.isOptional = t.isOptional) (h : t.get? = some x) :
    s.set x = t := by
  cases t with
  | required y =>
    cases s with
    | required => exact congrArg required (Option.some.inj h).symm
    | optional => cases ho
  | optional y =>
    cases s with
    | required => cases ho
    | optional => exact congrArg optional h.symm

theorem clear_of_get? (ho : s.isOptional = t.isOptional) (h : t.get? = none) :
    s.clear = t ∧ s.isOptional = true := by
  cases t with
  | required y => cases h
  | optional y =>
    cases s with
    | required => cases ho
    | optional => exact ⟨congrArg optional h.symm, rfl⟩

end Slot

namespace StorageClass

variable {storage : StorageClass} {type : NativeType} {w : WireValue}

/-- What decodes has had its bytes counted. -/
theorem overflows_of_decode? {x : type.Carrier} (h : storage.decode? type w = some x) :
    storage.overflows type w = false := by
  cases storage with
  | vector size =>
    cases type with
    | vector =>
      obtain ⟨data, _, hdata⟩ := Option.bind_eq_some_iff.1 h
      have hcount := (Option.ite_none_right_eq_some.1 hdata).1
      simp [overflows, hcount]
    | _ => rfl
  | _ => rfl

/-- The bytes of a vector of `2 ^ 62` elements or more are too many to be counted. -/
theorem overflows_iff : storage.overflows type w = true ↔
    ∃ size, storage = .vector size ∧ type = .vector ∧ w.payload?.isSome = true ∧
      2 ^ 62 ≤ size.toNat := by
  have hcount (size : UInt64) : (byteCount? size).isNone = true ↔ 2 ^ 62 ≤ size.toNat := by
    rw [Option.isNone_iff_eq_none, Option.eq_none_iff_forall_ne_some]
    simp only [ne_eq, byteCount?_eq_some_iff, not_and, not_lt, forall_eq]
  cases storage with
  | vector size =>
    cases type with
    | vector => simp [overflows, hcount]
    | _ => simp [overflows]
  | _ => simp [overflows]

theorem isNull_of_overflows (h : storage.overflows type w = true) : w.isNull = false := by
  obtain ⟨_, _, _, hw, _⟩ := overflows_iff.1 h
  rw [WireValue.isNull_eq_false_iff]
  constructor
  · rintro rfl
    cases hw
  · rintro rfl
    cases hw

end StorageClass

namespace Field

variable {f g : Field} {storage : StorageClass}

/-- Fields of one record type differ in what they hold and in nothing else. -/
theorem eq_of_fresh (h : g.fresh = f.fresh) :
    ∃ slot : Slot f.type.Carrier, g = { f with slot } ∧ slot.isOptional = f.slot.isOptional := by
  obtain ⟨name, type, slot, readOnly⟩ := f
  obtain ⟨name', type', slot', readOnly'⟩ := g
  simp only [fresh, Field.mk.injEq] at h
  obtain ⟨rfl, rfl, hs, rfl⟩ := h
  refine ⟨slot', rfl, ?_⟩
  cases slot <;> cases slot' <;> simp [Slot.isOptional] at hs ⊢

theorem decode_of_decode? {w : WireValue} {x : f.type.Carrier} (hw : w.isNull = false)
    (hd : storage.decode? f.type w = some x) :
    f.decode storage w = ({ f with slot := f.slot.set x }, .written) := by
  simp only [decode, hw, StorageClass.overflows_of_decode? hd, Bool.false_eq_true, if_false, hd]

theorem decode_of_decode?_none {w : WireValue} (hw : w.isNull = false)
    (ho : storage.overflows f.type w = false) (hd : storage.decode? f.type w = none) :
    f.decode storage w = (f, .refused) := by
  simp only [decode, hw, ho, Bool.false_eq_true, if_false, hd]

theorem decode_of_overflows {w : WireValue} (ho : storage.overflows f.type w = true) :
    f.decode storage w = (f, .overflow) := by
  simp only [decode, StorageClass.isNull_of_overflows ho, ho, Bool.false_eq_true, if_false, if_true]

/-- What becomes of a cell that is not null is up to what it decodes to. -/
theorem written_iff {w : WireValue} (hw : w.isNull = false) :
    (f.decode storage w).2 = .written ↔ ∃ x, storage.decode? f.type w = some x := by
  cases hd : storage.decode? f.type w with
  | none =>
    cases ho : storage.overflows f.type w with
    | false => simp [decode_of_decode?_none hw ho hd]
    | true => simp [decode_of_overflows ho]
  | some x => simp [decode_of_decode? hw hd]

theorem overflow_iff {w : WireValue} :
    (f.decode storage w).2 = .overflow ↔ storage.overflows f.type w = true := by
  cases ho : storage.overflows f.type w with
  | true => simp [decode_of_overflows ho]
  | false =>
    cases hw : w.isNull with
    | true =>
      simp only [decode, hw, if_true]
      split <;> simp
    | false =>
      cases hd : storage.decode? f.type w with
      | none => simp [decode_of_decode?_none hw ho hd]
      | some x => simp [decode_of_decode? hw hd]

theorem value_set (f : Field) (x : f.type.Carrier) :
    value { f with slot := f.slot.set x } = .ofNative f.type x := by
  rw [value, Slot.get?_set]

theorem decode_some {w : WireValue} {x : f.type.Carrier} (hg : g.fresh = f.fresh)
    (hf : f.slot.get? = some x) (hw : w.isNull = false) (hd : storage.decode? f.type w = some x) :
    g.decode storage w = (f, .written) := by
  obtain ⟨slot, rfl, ho⟩ := eq_of_fresh hg
  have hset : slot.set x = f.slot := Slot.set_of_get? ho hf
  rw [decode_of_decode? (f := { f with slot }) hw hd, hset]

theorem decode_null (hg : g.fresh = f.fresh) (hf : f.slot.get? = none) :
    g.decode storage .null = (f, .written) := by
  obtain ⟨slot, rfl, ho⟩ := eq_of_fresh hg
  obtain ⟨hc, hopt⟩ := Slot.clear_of_get? ho hf
  simp only [decode, WireValue.isNull, if_true, hc, hopt]

/-- The cell of a stored field fills the field in again. -/
theorem decode_of_stores {c : Column} (hg : g.fresh = f.fresh) (h : c.Stores f) :
    ∃ a, ofValue f.value = .ok a ∧ g.decode c.storage a.toWire = (f, .written) := by
  cases hf : f.slot.get? with
  | none =>
    refine ⟨.null, ?_, decode_null hg hf⟩
    rw [value, hf]
    rfl
  | some x =>
    obtain ⟨a, ha, hn, hd⟩ := StorageClass.readsBack_of_keeps h.storage (h.content x hf)
    refine ⟨a, ?_, decode_some hg hf hn hd⟩
    rw [value, hf]
    exact ha

end Field

namespace Record

variable {r : Record} {name : String} {f : Field}

theorem field?_of_target? (h : r.target? name = some f) : r.field? name = some f := by
  obtain ⟨g, hg, h⟩ := Option.bind_eq_some_iff.1 h
  rw [Option.ite_none_left_eq_some] at h
  rw [hg, h.2]

theorem name_of_field? (h : r.field? name = some f) : f.name = name := by
  have hf : List.find? (·.name == name) r = some f := h
  simpa using List.find?_some hf

theorem name_of_target? (h : r.target? name = some f) : f.name = name :=
  name_of_field? (field?_of_target? h)

end Record

namespace Mapping

variable {m : Mapping} {P : Column → Field → Prop} {r : Record}

/-- A cell that goes by the name of a column and fills the field in as `P` says. -/
structure Fills (P : Column → Field → Prop) (r : Record) (c : Column) (cell : String × WireValue) :
    Prop where
  name : lower c.name = lower cell.1
  field : ∃ g f, r.target? c.field = some g ∧ g.decode c.storage cell.2 = (f, .written) ∧ P c f

theorem decodeCell_of_fills {c : Column} {cell : String × WireValue} {s : RowState} (hv : m.Valid)
    (hc : c ∈ m.columns) (hn : c.field ∉ s.visited)
    (hr : s.record.field? c.field = r.field? c.field) (h : Fills P r c cell) :
    ∃ f, P c f ∧ f.name = c.field ∧ (s.record.field? c.field).isSome = true ∧
      m.decodeCell cell.1 cell.2 s = .ok { s with
        record := s.record.put c.field f
        visited := s.visited ++ [c.field]
        assigned := s.assigned + 1 } := by
  obtain ⟨g, f, hg, hd, hp⟩ := h.field
  have hcolumn : m.resultColumn? cell.1 = some c := by
    rw [resultColumn?, hv.columnByName hc h.name]
    rfl
  have htarget : s.record.target? c.field = some g := by
    rw [Record.target?, hr]
    exact hg
  have hname : f.name = c.field := by
    have hdecode := Field.name_decode c.storage cell.2 g
    rw [hd] at hdecode
    rw [hdecode, Record.name_of_target? hg]
  refine ⟨f, hp, hname, ?_, ?_⟩
  · rw [Record.field?_of_target? htarget]
    rfl
  · simp only [decodeCell, hcolumn, hn, if_false, htarget, hd]

/-- Cells for different columns fill in the fields of all of them and leave the others alone. -/
theorem decodeCells_of_fills {cs : List Column} {cells : List (String × WireValue)} (hv : m.Valid)
    (h : List.Forall₂ (Fills P r) cs cells) (hc : ∀ c ∈ cs, c ∈ m.columns)
    (hd : (cs.map Column.field).Nodup) {s : RowState}
    (hs : ∀ c ∈ cs, c.field ∉ s.visited ∧ s.record.field? c.field = r.field? c.field) :
    ∃ s', m.decodeCells cells s = (s', none) ∧ s'.notes = s.notes ∧
      (∀ c ∈ cs, ∃ f, s'.record.field? c.field = some f ∧ P c f) ∧
      ∀ name ∉ cs.map Column.field, s'.record.field? name = s.record.field? name := by
  induction h generalizing s with
  | nil => exact ⟨s, rfl, rfl, by simp, fun _ _ => rfl⟩
  | @cons c cell cs cells hcell hcells ih =>
    obtain ⟨hn, hr⟩ := hs c List.mem_cons_self
    obtain ⟨f, hp, hname, hsome, hdecode⟩ :=
      decodeCell_of_fills hv (hc c List.mem_cons_self) hn hr hcell
    obtain ⟨hcs, hd⟩ := List.nodup_cons.1 hd
    have hother : ∀ c' ∈ cs, c'.field ≠ c.field := fun c' hc' he =>
      hcs (he ▸ List.mem_map_of_mem hc')
    obtain ⟨g, hg⟩ := Option.isSome_iff_exists.1 hsome
    -- The cells that follow belong to other fields, which `put` has left as they were.
    obtain ⟨s', hrun, hnotes, hfilled, hleft⟩ := ih (fun c' hc' => hc c' (.tail _ hc')) hd
      (s := { s with
        record := s.record.put c.field f
        visited := s.visited ++ [c.field]
        assigned := s.assigned + 1 })
      (by
        intro c' hc'
        obtain ⟨hn', hr'⟩ := hs c' (.tail _ hc')
        refine ⟨?_, (Record.field?_put_ne hname (hother c' hc') s.record).trans hr'⟩
        simp [hn', hother c' hc'])
    refine ⟨s', ?_, hnotes, ?_, ?_⟩
    · rw [decodeCells, hdecode]
      exact hrun
    · intro c' hc'
      rcases List.mem_cons.1 hc' with rfl | hc'
      · exact ⟨f, (hleft _ hcs).trans (Record.field?_put hname hg), hp⟩
      · exact hfilled c' hc'
    · intro name hne
      rw [List.map_cons, List.mem_cons, not_or] at hne
      rw [hleft name hne.2]
      exact Record.field?_put_ne hname hne.1 s.record

end Mapping

end RecordMapper
