import RecordMapper.Proofs.Wire.Row
/-!
Cells decoded into one field, one after the other. In the end the field holds what the last accepted
cell puts into an empty one. Cells that were refused leave no trace, nor does what was held before.
-/

namespace RecordMapper

namespace Slot

variable {α : Type} {s t : Slot α}

theorem set_congr (h : s.isOptional = t.isOptional) (x : α) : s.set x = t.set x := by
  apply set_of_get?
  · rw [isOptional_set, h]
  · exact get?_set x t

theorem clear_of_isOptional (h : s.isOptional = true) : s.clear = optional none := by
  cases s with
  | required => cases h
  | optional => rfl

end Slot

namespace Field

variable {storage : StorageClass} {f g : Field} {w : WireValue}

/-- Decodes cells one after the other, up to one that stops the program. Tells the last one that
was accepted. -/
def decodeAll (storage : StorageClass) : List WireValue → Field → Field × Option WireValue
  | [], f => (f, none)
  | w :: rest, f =>
    match f.decode storage w with
    | (g, .written) =>
      let (last, later) := g.decodeAll storage rest
      (last, later.or (some w))
    | (g, .refused) => g.decodeAll storage rest
    | (g, .overflow) => (g, none)

theorem decode_of_isNull (h : w.isNull = true) :
    f.decode storage w =
      ({ f with slot := f.slot.clear }, if f.slot.isOptional then .written else .refused) := by
  rw [decode, if_pos h]

theorem written_of_isNull (h : w.isNull = true) :
    (f.decode storage w).2 = .written ↔ f.slot.isOptional = true := by
  rw [decode_of_isNull h]
  cases f.slot.isOptional <;> simp

/-- What becomes of a cell is not up to what the field holds. -/
theorem outcome_congr (ht : g.type = f.type) (ho : g.slot.isOptional = f.slot.isOptional)
    (w : WireValue) : (g.decode storage w).2 = (f.decode storage w).2 := by
  have hoverflow : (g.decode storage w).2 = .overflow ↔ (f.decode storage w).2 = .overflow := by
    rw [overflow_iff, overflow_iff, ht]
  have hwritten : (g.decode storage w).2 = .written ↔ (f.decode storage w).2 = .written := by
    cases hw : w.isNull with
    | true => rw [written_of_isNull hw, written_of_isNull hw, ho]
    | false => rw [written_iff hw, written_iff hw, ht]
  cases hg : (g.decode storage w).2 with
  | written => exact (hwritten.1 hg).symm
  | overflow => exact (hoverflow.1 hg).symm
  | refused =>
    rw [hg] at hwritten hoverflow
    cases hf : (f.decode storage w).2 with
    | written => exact hwritten.2 hf
    | refused => rfl
    | overflow => exact hoverflow.2 hf

theorem fresh_decode (storage : StorageClass) (w : WireValue) (f : Field) :
    (f.decode storage w).1.fresh = f.fresh := by
  obtain ⟨name, type, slot, readOnly⟩ := f
  simp only [decode]
  split
  · cases slot <;> rfl
  · split
    · rfl
    · split
      · cases slot <;> rfl
      · rfl

/-- An accepted cell leaves nothing of what the field held. -/
theorem decode_of_fresh (h : g.fresh = f.fresh) (hw : (f.decode storage w).2 = .written) :
    g.decode storage w = f.decode storage w := by
  obtain ⟨slot, rfl, ho⟩ := eq_of_fresh h
  cases hn : w.isNull with
  | true =>
    rw [written_of_isNull hn] at hw
    have hg : slot.clear = f.slot.clear := by
      rw [Slot.clear_of_isOptional hw, Slot.clear_of_isOptional (ho.trans hw)]
    rw [decode_of_isNull (f := { f with slot }) hn, decode_of_isNull hn, hg, ho]
  | false =>
    obtain ⟨x, hd⟩ := (written_iff hn).1 hw
    rw [decode_of_decode? (f := { f with slot }) hn hd, decode_of_decode? hn hd, Slot.set_congr ho]

/-- The cells that a field of the record type of `f` comes to decode: those before the first that
stops the program. -/
def reached (storage : StorageClass) (f : Field) (ws : List WireValue) : List WireValue :=
  ws.takeWhile fun w => (f.decode storage w).2 ≠ .overflow

/-- Of these the ones that it accepts. -/
def accepted (storage : StorageClass) (f : Field) (ws : List WireValue) : List WireValue :=
  (f.reached storage ws).filter fun w => (f.decode storage w).2 = .written

section

variable {ws : List WireValue}

theorem accepted_of_written (h : (f.decode storage w).2 = .written) :
    f.accepted storage (w :: ws) = w :: f.accepted storage ws := by
  simp [accepted, reached, h]

theorem accepted_of_refused (h : (f.decode storage w).2 = .refused) :
    f.accepted storage (w :: ws) = f.accepted storage ws := by
  simp [accepted, reached, h]

theorem accepted_of_overflow (h : (f.decode storage w).2 = .overflow) :
    f.accepted storage (w :: ws) = [] := by
  simp [accepted, reached, h]

end

/-- What cells leave in a field of the record type of `f`, if they are decoded one after the other:
the last one that `f` would accept decides. -/
theorem decodeAll_of_fresh (h : g.fresh = f.fresh) (ws : List WireValue) :
    g.decodeAll storage ws =
      match (f.accepted storage ws).getLast? with
      | none => (g, none)
      | some w => ((f.decode storage w).1, some w) := by
  induction ws generalizing g with
  | nil => rfl
  | cons w ws ih =>
    have hnext : (g.decode storage w).1.fresh = f.fresh := (fresh_decode storage w g).trans h
    have houtcome : (g.decode storage w).2 = (f.decode storage w).2 := by
      obtain ⟨slot, rfl, ho⟩ := eq_of_fresh h
      exact outcome_congr (g := { f with slot }) (f := f) rfl ho w
    rw [decodeAll]
    cases hw : (f.decode storage w).2 with
    | written =>
      have hstep : g.decode storage w = ((f.decode storage w).1, .written) := by
        rw [decode_of_fresh h hw, ← hw]
      rw [hstep] at hnext ⊢
      simp only [ih hnext, accepted_of_written hw, List.getLast?_cons]
      cases (f.accepted storage ws).getLast? <;> rfl
    | refused =>
      have hstep : g.decode storage w = (g, .refused) := by
        rw [← hw, ← houtcome, Prod.ext_iff]
        exact ⟨decode_of_not_written (by rw [houtcome, hw]; nofun), rfl⟩
      simp only [hstep, ih h, accepted_of_refused hw]
    | overflow =>
      have hstep : g.decode storage w = (g, .overflow) := by
        rw [← hw, ← houtcome, Prod.ext_iff]
        exact ⟨decode_of_not_written (by rw [houtcome, hw]; nofun), rfl⟩
      simp only [hstep, accepted_of_overflow hw, List.getLast?_nil]

/-- Of a sequence of cells the last accepted one decides what a field holds, as if it had come alone
and the field had been empty. What becomes of a cell is not up to what the field holds, and a null
is accepted by optional fields, which it empties. -/
theorem decodeAll_traceless (storage : StorageClass) (f : Field) (ws : List WireValue) :
    (f.decodeAll storage ws).1 =
        (match (f.decodeAll storage ws).2 with
        | none => f
        | some w => (f.fresh.decode storage w).1) ∧
      (f.decodeAll storage ws).2 = (f.fresh.accepted storage ws).getLast? ∧
      (∀ (g : Field) (w : WireValue), g.type = f.type → g.slot.isOptional = f.slot.isOptional →
        (g.decode storage w).2 = (f.decode storage w).2) ∧
      ∀ w : WireValue, w = .null ∨ w = .json .null →
        ((f.decode storage w).2 = .written ↔ f.slot.isOptional = true) ∧
          ((f.decode storage w).2 = .written → (f.decode storage w).1.slot.get? = none) := by
  have hself : f.fresh = f.fresh.fresh := by
    obtain ⟨name, type, slot, readOnly⟩ := f
    cases slot <;> rfl
  have hrun : f.decodeAll storage ws =
      match (f.fresh.accepted storage ws).getLast? with
      | none => (f, none)
      | some w => ((f.fresh.decode storage w).1, some w) := decodeAll_of_fresh hself ws
  refine ⟨?_, ?_, ?_, ?_⟩
  · rw [hrun]
    cases (f.fresh.accepted storage ws).getLast? <;> rfl
  · rw [hrun]
    cases (f.fresh.accepted storage ws).getLast? <;> rfl
  · intro g w ht ho
    exact outcome_congr ht ho w
  · intro w hw
    have hn : w.isNull = true := by
      rcases hw with rfl | rfl <;> rfl
    refine ⟨written_of_isNull hn, fun ho => ?_⟩
    rw [written_of_isNull hn] at ho
    rw [decode_of_isNull hn, Slot.clear_of_isOptional ho]
    rfl

end Field

/-- A year that takes in the second of four cells: a text that is no number, and floats too large or
with a fraction, are refused. -/
theorem decodeAll_traceless_year :
    let year (n : IntOf .i16) : Field := ⟨"year", .int .i16, .optional (some n), false⟩
    let volume : Field := ⟨"volume", .int .i16, .optional none, false⟩
    let cells : List WireValue := [.text "soon", .integer ⟨1984, by decide, by decide⟩,
      .float ⟨0x40f86a0000000000⟩, .json (.float ⟨0x409f020000000000⟩)]
    (year ⟨1971, by decide, by decide⟩).decodeAll .integer cells =
        (year ⟨1984, by decide, by decide⟩, some (.integer ⟨1984, by decide, by decide⟩)) ∧
      (volume.decode .integer (.text "soon")).2 = .refused ∧
      ((year ⟨1971, by decide, by decide⟩).decode .integer (.json .null)).1.slot.get? = none := by
  intro year volume cells
  obtain ⟨hcontent, hlast, hsame, hnull⟩ :=
    Field.decodeAll_traceless .integer (year ⟨1971, by decide, by decide⟩) cells
  have hcell : ((year ⟨1971, by decide, by decide⟩).decodeAll .integer cells).2 =
      some (.integer ⟨1984, by decide, by decide⟩) := hlast.trans rfl
  rw [hcell] at hcontent
  refine ⟨Prod.ext hcontent hcell, ?_, ?_⟩
  · rw [hsame volume (.text "soon") rfl rfl]
    rfl
  · obtain ⟨haccepted, hempty⟩ := hnull (.json .null) (.inr rfl)
    exact hempty (haccepted.2 rfl)

end RecordMapper
