import RecordMapper.Proofs.Statement.RowKey
import RecordMapper.Proofs.Wire.Deciding
/-!
Row ids written back to one record, call after call. The key takes in one of them at most, the first
that it has room for, and only while it is empty.
-/

namespace RecordMapper

open Text

theorem countP_le_one_of_pairwise {α : Type} {p : α → Bool} {l : List α}
    (h : l.Pairwise fun a b => p a = true → p b = false) : l.countP p ≤ 1 := by
  induction h with
  | nil => exact Nat.zero_le 1
  | @cons a l ha _ ih =>
    rw [List.countP_cons]
    cases hp : p a with
    | true =>
      have hnone : l.countP p = 0 :=
        List.countP_eq_zero.2 fun b hb => Bool.eq_false_iff.1 (ha b hb hp)
      rw [hnone]
      rfl
    | false => exact ih

namespace Value

/-- Null, zero or the empty text. -/
def IsEmptyKey (v : Value) : Prop :=
  v = .null ∨ v = .i64 .zero ∨ v = .u64 .zero ∨ v = .text ""

/-- The row id as a key holds it: in decimal in a column of texts. -/
def IsRowId (key : Column) (id : IntOf .i64) (v : Value) : Prop :=
  if key.storage.isText then v = .text (Numeral.ofInt id.val) else v.asInt? = some id.val

variable {v : Value}

theorem isUnassignedKey_iff : v.isUnassignedKey = true ↔ v.IsEmptyKey := by
  have hzero {kind : IntKind} (n : IntOf kind) : n.val = 0 ↔ n = .zero :=
    ⟨fun h => IntOf.ext h, fun h => h ▸ rfl⟩
  cases v with
  | i64 n | u64 n => simp [isUnassignedKey, IsEmptyKey, hzero]
  | text s => simp [isUnassignedKey, IsEmptyKey]
  | _ => simp [isUnassignedKey, IsEmptyKey]

theorem not_isEmptyKey_of_isRowId {key : Column} {id : IntOf .i64} (hid : id.val ≠ 0)
    (h : v.IsRowId key id) : ¬v.IsEmptyKey := by
  intro he
  rw [IsRowId] at h
  split at h
  next =>
    subst h
    simp [IsEmptyKey, Numeral.ofInt_ne_empty] at he
  next =>
    rcases he with rfl | rfl | rfl | rfl
    · cases h
    · exact hid (Option.some.inj h).symm
    · exact hid (Option.some.inj h).symm
    · cases h

end Value

namespace NativeType

def IsKeyType (type : NativeType) : Prop := (∃ kind, type = .int kind) ∨ type = .string

end NativeType

/-- The key has room for the row id. -/
def Column.Admits (key : Column) (id : IntOf .i64) : NativeType → Prop
  | .int kind => key.storage = .integer ∧ kind.least ≤ id.val ∧ id.val ≤ kind.greatest
  | .string => key.storage = .text
  | _ => False

namespace Record

/-- The key of the record holds nothing. -/
def KeyEmpty (r : Record) (key : Column) : Prop := ∃ v ∈ r.value? key.field, v.IsEmptyKey

/-- The key of the record is the row id. -/
def KeyIs (r : Record) (key : Column) (id : IntOf .i64) : Prop :=
  ∃ v ∈ r.value? key.field, v.IsRowId key id

variable {r : Record} {name : String} {f g : Field} {key : Column} {id : IntOf .i64}

theorem not_keyEmpty_of_keyIs (hid : id.val ≠ 0) (h : r.KeyIs key id) : ¬r.KeyEmpty key := by
  obtain ⟨v, hv, h⟩ := h
  rintro ⟨u, hu, he⟩
  obtain rfl := Option.mem_unique hu hv
  exact Value.not_isEmptyKey_of_isRowId hid h he

theorem value?_of_target? (h : r.target? name = some f) : r.value? name = some f.value := by
  rw [value?, field?_of_target? h, Option.map_some]

theorem target?_put (hn : g.name = name) (hr : g.readOnly = f.readOnly)
    (h : r.target? name = some f) : (r.put name g).target? name = some g := by
  have hf := field?_of_target? h
  rw [target?, hf, Option.bind_some, Option.ite_none_left_eq_some] at h
  rw [target?, field?_put hn hf, Option.bind_some, hr, if_neg h.1]

theorem eraseP_put (hn : g.name = name) (r : Record) :
    (r.put name g).eraseP (·.name == name) = r.eraseP (·.name == name) := by
  induction r with
  | nil => rfl
  | cons f r ih =>
    rw [put]
    split
    next hf => simp [hn, hf]
    next hf => simp [hf, ih]

end Record

theorem Field.type_decode (storage : StorageClass) (w : WireValue) (f : Field) :
    (f.decode storage w).1.type = f.type := by
  simp only [decode]
  split
  · rfl
  · split
    · rfl
    · split <;> rfl

/-- A call that writes the row id of an insert back. -/
structure RowIdCall where
  before : Record
  id : IntOf .i64
  after : Record
  outcome : RowIdOutcome

/-- What one call does to a record whose key has the type. -/
structure RowIdCall.Sound (key : Column) (type : NativeType) (call : RowIdCall) : Prop where
  assigned_iff : call.outcome = .assigned ↔ call.before.KeyEmpty key ∧ key.Admits call.id type
  written : call.outcome = .assigned → call.after.KeyIs key call.id
  unchanged : call.outcome ≠ .assigned → call.after = call.before
  others : call.after.eraseP (·.name == key.field) = call.before.eraseP (·.name == key.field)

namespace RowIdCall

/-- Each call starts from the record that the one before it left. -/
def Linked (r : Record) : List RowIdCall → Prop
  | [] => True
  | call :: calls => call.before = r ∧ Linked call.after calls

variable {key : Column} {type : NativeType} {r : Record} {calls : List RowIdCall} {id : IntOf .i64}

theorem Linked.keeps (hl : Linked r calls) (hs : ∀ call ∈ calls, call.Sound key type)
    (hid : id.val ≠ 0) (hr : r.KeyIs key id) :
    ∀ call ∈ calls, call.outcome ≠ .assigned ∧ call.after.KeyIs key id := by
  induction calls generalizing r with
  | nil => exact List.forall_mem_nil _
  | cons call calls ih =>
    obtain ⟨rfl, hl⟩ := hl
    obtain ⟨hcall, hs⟩ := List.forall_mem_cons.1 hs
    have hne : call.outcome ≠ .assigned := by
      intro ha
      exact Record.not_keyEmpty_of_keyIs hid hr (hcall.assigned_iff.1 ha).1
    have hafter : call.after.KeyIs key id := by
      rw [hcall.unchanged hne]
      exact hr
    exact List.forall_mem_cons.2 ⟨⟨hne, hafter⟩, ih hl hs hafter⟩

theorem Linked.keyEmpty (hl : Linked r calls) (hs : ∀ call ∈ calls, call.Sound key type)
    {call : RowIdCall} (hc : call ∈ calls) (ha : call.outcome = .assigned) : r.KeyEmpty key := by
  induction calls generalizing r with
  | nil => cases hc
  | cons first calls ih =>
    obtain ⟨rfl, hl⟩ := hl
    obtain ⟨hfirst, hs⟩ := List.forall_mem_cons.1 hs
    by_cases hf : first.outcome = .assigned
    · exact (hfirst.assigned_iff.1 hf).1
    · rcases List.mem_cons.1 hc with rfl | hc
      · exact absurd ha hf
      · rw [← hfirst.unchanged hf]
        exact ih hl hs hc

/-- Of two calls, the key is empty before the later one writes, and is what the earlier one
wrote. -/
theorem Linked.pairwise (hl : Linked r calls) (hs : ∀ call ∈ calls, call.Sound key type)
    (hids : ∀ call ∈ calls, call.id.val ≠ 0) :
    calls.Pairwise fun earlier later =>
      (later.outcome = .assigned → earlier.before.KeyEmpty key) ∧
        (earlier.outcome = .assigned →
          later.outcome ≠ .assigned ∧ later.after.KeyIs key earlier.id) := by
  induction calls generalizing r with
  | nil => exact .nil
  | cons first calls ih =>
    obtain ⟨hfirst, hrest⟩ := List.forall_mem_cons.1 hs
    obtain ⟨hid, hids⟩ := List.forall_mem_cons.1 hids
    apply List.Pairwise.cons _ (ih hl.2 hrest hids)
    intro later hlater
    constructor
    · intro ha
      rw [hl.1]
      exact hl.keyEmpty hs (.tail _ hlater) ha
    · intro ha
      exact hl.2.keeps hrest hid (hfirst.written ha) later hlater

end RowIdCall

namespace Mapping

variable {m : Mapping} {r : Record} {id : IntOf .i64} {key : Column} {f : Field}

/-- Calls one after the other on the same record. -/
def assignRowIds (m : Mapping) :
    List (IntOf .i64) → Record → Except (Stop RecordFault) (List RowIdCall)
  | [], _ => .ok []
  | id :: ids, r => do
    let (after, outcome) ← m.assignRowId id r
    return ⟨r, id, after, outcome⟩ :: (← m.assignRowIds ids after)

theorem type_writeRowId (key : Column) (id : IntOf .i64) (f : Field) :
    (writeRowId key id f).1.type = f.type := by
  rw [writeRowId]
  split
  · exact Field.type_decode _ _ f
  · exact Field.type_decode _ _ f

theorem readOnly_writeRowId (key : Column) (id : IntOf .i64) (f : Field) :
    (writeRowId key id f).1.readOnly = f.readOnly := by
  rw [writeRowId]
  split
  · exact Field.readOnly_decode _ _ f
  · exact Field.readOnly_decode _ _ f

/-- A key that has room for the row id takes it in, and any other refuses it. -/
def TakesIn (key : Column) (id : IntOf .i64) (f : Field) : Prop :=
  (key.Admits id f.type ∧ (writeRowId key id f).2 = .written ∧
      (writeRowId key id f).1.value.IsRowId key id) ∨
    ¬key.Admits id f.type ∧ (writeRowId key id f).2 = .refused

theorem takesIn_of_integer (hs : key.storage = .integer) (ht : f.type.IsKeyType)
    (id : IntOf .i64) : TakesIn key id f := by
  have hw : writeRowId key id f = f.decode .integer (.integer id) := by
    rw [writeRowId, hs]
    rfl
  rw [TakesIn, hw, Value.IsRowId, hs]
  obtain ⟨name, type, slot, readOnly⟩ := f
  let f : Field := ⟨name, type, slot, readOnly⟩
  rcases ht with ⟨kind, rfl⟩ | rfl
  · cases hn : IntOf.ofInt? kind id.val with
    | some n =>
      left
      have hd : StorageClass.decode? .integer f.type (.integer id) = some n := hn
      rw [Field.decode_of_decode? rfl hd, Field.value_set f n]
      have hv := IntOf.val_of_ofInt? hn
      exact ⟨⟨hs, hv ▸ n.least_le, hv ▸ n.le_greatest⟩, rfl, Value.asInt?_ofInt hv⟩
    | none =>
      right
      have hd : StorageClass.decode? .integer f.type (.integer id) = none := hn
      rw [Field.decode_of_decode?_none rfl rfl hd]
      refine ⟨fun h => ?_, rfl⟩
      obtain ⟨_, hlo, hhi⟩ := h
      rcases IntOf.ofInt?_eq_none_iff.1 hn with hn | hn
      · exact absurd hlo (Int.not_le.2 hn)
      · exact absurd hhi (Int.not_le.2 hn)
  · right
    rw [Field.decode_of_decode?_none (f := f) rfl rfl rfl]
    refine ⟨fun h => ?_, rfl⟩
    cases hs.symm.trans h

theorem takesIn_of_text (hs : key.storage = .text) (ht : f.type.IsKeyType) (id : IntOf .i64) :
    TakesIn key id f := by
  have hw : writeRowId key id f = f.decode .text (.text (Numeral.ofInt id.val)) := by
    rw [writeRowId, hs]
    rfl
  rw [TakesIn, hw, Value.IsRowId, hs]
  obtain ⟨name, type, slot, readOnly⟩ := f
  let f : Field := ⟨name, type, slot, readOnly⟩
  rcases ht with ⟨kind, rfl⟩ | rfl
  · right
    rw [Field.decode_of_decode?_none (f := f) rfl rfl rfl]
    refine ⟨fun h => ?_, rfl⟩
    cases hs.symm.trans h.1
  · left
    rw [Field.decode_of_decode? (f := f) (x := Numeral.ofInt id.val) rfl rfl]
    exact ⟨hs, rfl, Field.value_set f (Numeral.ofInt id.val)⟩

/-- A call never fails, and leaves the key a field of the type that it has. -/
theorem assignRowId_sound (hv : m.Valid) (hk : m.primaryKey? = some key)
    (hf : r.target? key.field = some f) (ht : f.type.IsKeyType) (id : IntOf .i64) :
    ∃ after outcome g, m.assignRowId id r = .ok (after, outcome) ∧
      after.target? key.field = some g ∧ g.type = f.type ∧
      RowIdCall.Sound key f.type ⟨r, id, after, outcome⟩ := by
  have hvalue := Record.value?_of_target? hf
  have hempty : r.KeyEmpty key ↔ f.value.isUnassignedKey = true := by
    rw [Value.isUnassignedKey_iff, Record.KeyEmpty, hvalue]
    simp
  cases hu : f.value.isUnassignedKey with
  | false =>
    refine ⟨r, .alreadyAssigned, f, ?_, hf, rfl, ?_, ?_, fun _ => rfl, rfl⟩
    · simp only [assignRowId, hk, hvalue, hu]
      rfl
    · simp [hempty, hu]
    · intro h
      cases h
  | true =>
    have htakes : TakesIn key id f := by
      obtain ⟨_, _, hs | hs⟩ := hv.storage_of_primaryKey hk
      · exact takesIn_of_integer hs ht id
      · exact takesIn_of_text hs ht id
    rcases htakes with ⟨hadmits, hwritten, hid⟩ | ⟨hadmits, hwritten⟩
    · have hname : (writeRowId key id f).1.name = key.field := by
        rw [name_writeRowId, Record.name_of_target? hf]
      have htarget := Record.target?_put hname (readOnly_writeRowId key id f) hf
      refine ⟨r.put key.field (writeRowId key id f).1, .assigned, _, ?_, htarget,
        type_writeRowId key id f, ?_, fun _ => ?_, fun h => absurd rfl h, ?_⟩
      · simp only [assignRowId, hk, hvalue, hu, hf, hwritten]
        rfl
      · simp [hempty, hu, hadmits]
      · exact ⟨_, Record.value?_of_target? htarget, hid⟩
      · exact Record.eraseP_put hname r
    · refine ⟨r, .refused, f, ?_, hf, rfl, ?_, ?_, fun _ => rfl, rfl⟩
      · simp only [assignRowId, hk, hvalue, hu, hf, hwritten]
        rfl
      · simp [hadmits]
      · intro h
        cases h

theorem assignRowIds_linked (hv : m.Valid) (hk : m.primaryKey? = some key)
    (hf : r.target? key.field = some f) (ht : f.type.IsKeyType) (ids : List (IntOf .i64)) :
    ∃ calls, m.assignRowIds ids r = .ok calls ∧ calls.map RowIdCall.id = ids ∧
      RowIdCall.Linked r calls ∧ ∀ call ∈ calls, call.Sound key f.type := by
  induction ids generalizing r f with
  | nil => exact ⟨[], rfl, rfl, trivial, List.forall_mem_nil _⟩
  | cons id ids ih =>
    obtain ⟨after, outcome, g, hcall, hg, htype, hsound⟩ := assignRowId_sound hv hk hf ht id
    obtain ⟨calls, hcalls, hids, hlinked, hs⟩ := ih hg (htype ▸ ht)
    rw [htype] at hs
    refine ⟨⟨r, id, after, outcome⟩ :: calls, ?_, ?_, ⟨rfl, hlinked⟩, ?_⟩
    · rw [assignRowIds, hcall]
      exact bind_pure_eq_ok_iff.2 ⟨calls, hcalls, rfl⟩
    · rw [List.map_cons, hids]
    · exact List.forall_mem_cons.2 ⟨hsound, hs⟩

/-- Of calls with row ids other than zero one at most writes the key. The key is empty until then
and that row id ever after, and all else of the record stays as it was. -/
theorem assignRowIds_once {d : Declaration} (hd : d.build = .ok m)
    (hk : m.primaryKey? = some key) (hf : r.target? key.field = some f)
    (ht : f.type.IsKeyType) {ids : List (IntOf .i64)} (hids : ∀ id ∈ ids, id.val ≠ 0) :
    ∃ calls, m.assignRowIds ids r = .ok calls ∧ calls.map RowIdCall.id = ids ∧
      RowIdCall.Linked r calls ∧ (∀ call ∈ calls, call.Sound key f.type) ∧
      calls.countP (·.outcome = .assigned) ≤ 1 ∧
      calls.Pairwise fun earlier later =>
        (later.outcome = .assigned → earlier.before.KeyEmpty key) ∧
          (earlier.outcome = .assigned → later.after.KeyIs key earlier.id) := by
  obtain ⟨calls, hcalls, hmap, hlinked, hs⟩ := assignRowIds_linked (valid_of_build hd) hk hf ht ids
  have hpairs := hlinked.pairwise hs (by simpa [← hmap] using hids)
  refine ⟨calls, hcalls, hmap, hlinked, hs, ?_, ?_⟩
  · apply countP_le_one_of_pairwise
    apply hpairs.imp
    intro earlier later h ha
    exact decide_eq_false (h.2 (of_decide_eq_true ha)).1
  · apply hpairs.imp
    intro earlier later h
    exact ⟨h.1, fun ha => (h.2 ha).2⟩

end Mapping

/-- A track with a key of one byte. -/
def shortTrack (key : Option (IntOf .i8)) : Record := [
  ⟨"id", .int .i8, .optional key, false⟩,
  ⟨"title", .string, .required "Overture", false⟩]

/-- The first row id is too large for a byte, the second one is taken in, and the third comes too
late. -/
theorem assignRowIds_once_tracks :
    let thirteen : IntOf .i64 := ⟨13, by decide, by decide⟩
    let large : IntOf .i64 := ⟨300, by decide, by decide⟩
    ∃ key first second third, tracks.assemble.primaryKey? = some key ∧
      tracks.assemble.assignRowIds [large, nextTrack, thirteen] (shortTrack none) =
        .ok [first, second, third] ∧
      first.outcome = .refused ∧ first.before.KeyEmpty key ∧
      second.outcome = .assigned ∧ second.after.KeyIs key nextTrack ∧
      third.outcome = .alreadyAssigned ∧ third.after.KeyIs key nextTrack := by
  intro thirteen large
  have hd : tracks.build = .ok tracks.assemble := rfl
  have hids : ∀ id ∈ [large, nextTrack, thirteen], id.val ≠ 0 := by decide
  let track := shortTrack (some ⟨12, by decide, by decide⟩)
  have hrun : tracks.assemble.assignRowIds [large, nextTrack, thirteen] (shortTrack none) =
      .ok [⟨shortTrack none, large, shortTrack none, .refused⟩,
        ⟨shortTrack none, nextTrack, track, .assigned⟩,
        ⟨track, thirteen, track, .alreadyAssigned⟩] := rfl
  obtain ⟨calls, hcalls, _, _, hs, _, hpairs⟩ :=
    Mapping.assignRowIds_once (r := shortTrack none) hd rfl rfl (.inl ⟨.i8, rfl⟩) hids
  obtain rfl := Except.ok.inj (hrun.symm.trans hcalls)
  obtain ⟨hfirst, hsecond⟩ := List.pairwise_cons.1 hpairs
  refine ⟨_, _, _, _, rfl, hrun, rfl, ?_, rfl, ?_, rfl, ?_⟩
  · exact (hfirst _ List.mem_cons_self).1 rfl
  · exact (hs _ (.tail _ List.mem_cons_self)).written rfl
  · exact ((List.pairwise_cons.1 hsecond).1 _ List.mem_cons_self).2 rfl

end RecordMapper
