import RecordMapper.Proofs.Derive.ItemName
import RecordMapper.Proofs.Derive.Meaning
import RecordMapper.Proofs.Schema.DefaultKey
import RecordMapper.Proofs.Schema.Validity
import RecordMapper.Proofs.Traversal
/-!
The checks of an item and those of the mapping that it expands to. What the first accept, the second
refuse only for what depends on types: the key and the vectors without a size.
-/

namespace RecordMapper

open Text

namespace Derive

/-- What every step keeps holds after the steps, those refused left out. -/
theorem gather_preserves {σ α ε : Type} {step : σ → α → Except ε σ} {p : σ → Prop}
    (hstep : ∀ s a s', p s → step s a = .ok s' → p s') {state : σ} (h : p state) (l : List α) :
    p (gather step state l).1 := by
  induction l generalizing state with
  | nil => exact h
  | cons a l ih =>
    rw [gather]
    split
    next next hok => exact ih (hstep _ _ _ h hok)
    next => exact ih h

theorem named_eq_ok {fault : ItemFault} {literal found : TextLiteral}
    (h : named fault literal = .ok found) : isBlankText found.value = false := by
  rw [named] at h
  split at h
  next => cases h
  next hblank =>
    cases h
    exact Bool.eq_false_iff.2 hblank

theorem tableName_eq_ok {a : Attribute} {found : TextLiteral} (h : tableName a = .ok found) :
    isBlankText found.value = false := by
  unfold tableName at h
  split at h
  next =>
    obtain ⟨_, _, h⟩ := bind_eq_ok_iff.1 h
    exact named_eq_ok h
  next => exact named_eq_ok h
  next => cases h
  next => cases h

theorem vectorSize_eq_ok {a : Attribute} {found : IntegerLiteral} (h : vectorSize a = .ok found) :
    found.value ≠ 0 ∧ found.value < UInt64.size := by
  obtain ⟨_, _, h⟩ := bind_eq_ok_iff.1 h
  split at h
  next =>
    split at h
    next => cases h
    next hsize =>
      split at h
      next => cases h
      next hzero =>
        cases h
        exact ⟨hzero, Nat.lt_of_not_le hsize⟩
  next => cases h

/-- Sizes of vectors are machine words other than zero. -/
def FieldMarks.Sized (m : FieldMarks) : Prop :=
  ∀ size ∈ m.vector, size.value ≠ 0 ∧ size.value < UInt64.size

theorem FieldMarks.vector_add {m m' : FieldMarks} {a : Attribute} (h : m.add a = .ok m') :
    m'.vector = m.vector ∨ ∃ size, vectorSize a = .ok size ∧ m'.vector = some size := by
  unfold add at h
  split at h
  case h_5 =>
    split at h
    next => cases h
    next =>
      obtain ⟨size, hsize, rfl⟩ := bind_pure_eq_ok_iff.1 h
      exact .inr ⟨size, hsize, rfl⟩
  case h_1 | h_3 | h_6 =>
    split at h
    next => cases h
    next =>
      cases h
      exact .inl rfl
  case h_2 =>
    split at h
    next => cases h
    next =>
      obtain ⟨_, _, h⟩ := bind_eq_ok_iff.1 h
      obtain ⟨_, _, rfl⟩ := bind_pure_eq_ok_iff.1 h
      exact .inl rfl
  case h_4 =>
    split at h
    next => cases h
    next =>
      obtain ⟨_, _, rfl⟩ := bind_pure_eq_ok_iff.1 h
      exact .inl rfl
  case h_7 =>
    cases h
    exact .inl rfl

theorem FieldMarks.sized_add {m m' : FieldMarks} {a : Attribute} (hm : m.Sized)
    (h : m.add a = .ok m') : m'.Sized := by
  rcases vector_add h with he | ⟨size, hsize, he⟩
  · rwa [Sized, he]
  · rw [Sized, he]
    intro found hf
    obtain rfl := Option.mem_some_iff.1 hf
    exact vectorSize_eq_ok hsize

theorem FieldSpec.sized_ofField {field : ItemField} {f : FieldSpec}
    (h : FieldSpec.ofField field = .ok f) : f.marks.Sized := by
  unfold FieldSpec.ofField at h
  dsimp only at h
  split at h
  next =>
    cases h
    refine gather_preserves (p := FieldMarks.Sized) (fun _ _ _ => FieldMarks.sized_add) ?_ _
    exact fun _ hnone => nomatch hnone
  next => cases h

theorem sized_readFields (written : List ItemField) :
    ∀ f ∈ (readFields written).1, f.marks.Sized := by
  induction written with
  | nil => exact List.forall_mem_nil _
  | cons field rest ih =>
    rw [readFields]
    split
    next fields faults hrest =>
      rw [hrest] at ih
      split
      next hok => exact List.forall_mem_cons.2 ⟨FieldSpec.sized_ofField hok, ih⟩
      next => exact ih

theorem RecordMarks.table_add {m m' : RecordMarks} {a : Attribute} (h : m.add a = .ok m') :
    m'.table = m.table ∨ ∃ table, tableName a = .ok table ∧ m'.table = some table := by
  unfold add at h
  split at h
  next =>
    split at h
    next => cases h
    next =>
      obtain ⟨table, htable, rfl⟩ := bind_pure_eq_ok_iff.1 h
      exact .inr ⟨table, htable, rfl⟩
  next =>
    obtain ⟨_, _, rfl⟩ := bind_pure_eq_ok_iff.1 h
    exact .inl rfl
  next =>
    cases h
    exact .inl rfl

/-- The name given for the table is not blank. -/
def RecordMarks.TableNamed (m : RecordMarks) : Prop :=
  ∀ table ∈ m.table, isBlankText table.value = false

theorem RecordMarks.tableNamed_add {m m' : RecordMarks} {a : Attribute} (hm : m.TableNamed)
    (h : m.add a = .ok m') : m'.TableNamed := by
  rcases table_add h with he | ⟨table, htable, he⟩
  · rwa [TableNamed, he]
  · rw [TableNamed, he]
    intro found hf
    obtain rfl := Option.mem_some_iff.1 hf
    exact tableName_eq_ok htable

namespace RecordSpec

theorem distinct_of_columnFaults {seen : List String} {fields : List FieldSpec}
    (h : columnFaults seen fields = []) :
    DistinctNames (fields.map FieldSpec.columnName) ∧
      ∀ f ∈ fields, lower f.columnName ∉ seen := by
  induction fields generalizing seen with
  | nil => exact ⟨List.nodup_nil, List.forall_mem_nil _⟩
  | cons f fields ih =>
    rw [columnFaults] at h
    split at h
    next => cases h
    next hf =>
      obtain ⟨hd, hseen⟩ := ih h
      refine ⟨List.nodup_cons.2 ⟨fun hm => ?_, hd⟩, List.forall_mem_cons.2 ⟨hf, fun g hg hs => ?_⟩⟩
      · rw [List.map_map] at hm
        obtain ⟨g, hg, he⟩ := List.mem_map.1 hm
        exact hseen g hg (he ▸ List.mem_cons_self)
      · exact hseen g hg (.tail _ hs)

/-- What the checks of an item ensure of the record that it describes. -/
structure Checked (r : RecordSpec) : Prop where
  named : isBlankText r.name = false
  tableNamed : ∀ table ∈ r.table, isBlankText table.value = false
  sized : ∀ f ∈ r.fields, f.marks.Sized
  keys : (r.fields.filter (·.marks.key)).length ≤ 1
  columns : DistinctNames (r.mapped.map FieldSpec.columnName)

theorem checked_ofItem {item : Item} {r : RecordSpec} (hn : isBlankText item.name = false)
    (h : ofItem item = .ok r) : r.Checked := by
  unfold ofItem at h
  split at h
  next => cases h
  next written _ =>
    split at h
    next => cases h
    next =>
      dsimp only at h
      split at h
      next hnone =>
        cases h
        simp only [List.append_eq_nil_iff] at hnone
        obtain ⟨⟨⟨_, hkeys⟩, hcolumns⟩, _⟩ := hnone
        refine ⟨hn, ?_, sized_readFields written, ?_, (distinct_of_columnFaults hcolumns).1⟩
        · refine gather_preserves (p := RecordMarks.TableNamed)
            (fun _ _ _ => RecordMarks.tableNamed_add) ?_ _
          exact fun _ hnone => nomatch hnone
        · rw [keyFaults] at hkeys
          by_contra hmore
          rw [if_neg hmore] at hkeys
          cases hkeys
      next => cases h

theorem checked_of_recordSpec {source : String} {r : RecordSpec}
    (h : recordSpec source = .ok r) : r.Checked := by
  unfold recordSpec at h
  split at h
  next => cases h
  next tokens htokens =>
    split at h
    next => cases h
    next item hitem =>
      cases hr : ofItem item with
      | error => rw [hr] at h; cases h
      | ok =>
        rw [hr] at h
        cases h
        exact checked_ofItem (named_tokens htokens _ (Item.name_mem hitem)) hr

end RecordSpec

end Derive

/-! ### What the mapping is checked for -/

namespace Derive

variable {facts : TypeFacts}

/-- The type is a vector of unknown size, and nothing else is asked for. -/
def FieldSpec.lacksSize (facts : TypeFacts) (f : FieldSpec) : Bool :=
  f.marks.vector.isNone && f.marks.storage?.isNone && facts.native f.type == .vector

theorem FieldSpec.storageClass_eq_unsized {f : FieldSpec} (h : f.marks.Sized) :
    (f.storageClass facts == .vector 0) = f.lacksSize facts := by
  unfold FieldSpec.storageClass FieldSpec.lacksSize
  cases hv : f.marks.vector with
  | some size =>
    obtain ⟨hzero, hsize⟩ := h size (Option.mem_def.2 hv)
    have hne : size.value.toUInt64 ≠ 0 := by
      intro he
      have hnat := congrArg UInt64.toNat he
      rw [UInt64.toNat_ofNat_of_lt' hsize] at hnat
      exact hzero hnat
    simp [hne]
  | none =>
    cases f.marks.storage? with
    | some storage => cases storage <;> rfl
    | none => cases facts.native f.type <;> rfl

namespace RecordSpec

variable {r : RecordSpec}

/-- The field of the key: the marked one, or else the first one of the most wanted name. -/
def keyField? (r : RecordSpec) : Option FieldSpec :=
  (r.mapped.find? (·.marks.key)).or
    (Declaration.defaultKeys.findSome? fun name => r.mapped.find? (·.name == name))

/-- What only the types decide, and what is wrong with it: whether there is a key, a key's type, and
the sizes of vectors for which none is declared. -/
def typeFault? (facts : TypeFacts) (r : RecordSpec) : Option MappingFault :=
  match r.keyField? with
  | none => some (.noKey r.name)
  | some key =>
    if key.storageClass facts ≠ .integer ∧ key.storageClass facts ≠ .text then
      some (.keyStorage r.name key.name)
    else if facts.nullable key.type = true then some (.nullableKey r.name key.name)
    else (r.mapped.find? (·.lacksSize facts)).map fun f => .unsizedVector r.name f.name

namespace Checked

variable (h : r.Checked)

include h

theorem keys_mapped : (r.mapped.filter (·.marks.key)).length ≤ 1 :=
  Nat.le_trans (List.filter_sublist.filter _).length_le h.keys

/-- A field marked as key is the only one. -/
theorem filter_marks {f : FieldSpec} (hk : r.mapped.find? (·.marks.key) = some f) :
    r.mapped.filter (·.marks.key) = [f] := by
  have hhead : (r.mapped.filter (·.marks.key)).head? = some f := by
    rw [List.head?_filter, hk]
  obtain ⟨rest, he⟩ := List.head?_eq_some_iff.1 hhead
  have hlength := h.keys_mapped
  rw [he, List.length_cons] at hlength
  rw [he, List.eq_nil_of_length_eq_zero (Nat.le_zero.1 (Nat.le_of_succ_le_succ hlength))]

/-- The key of the mapping is the column of the key field. -/
theorem filter_key (facts : TypeFacts) :
    (r.declaration facts).assemble.columns.filter (·.primaryKey) =
      (r.keyField?.map fun f => { f.column facts with primaryKey := true }).toList := by
  have hcolumns : (r.declaration facts).assemble.columns =
      Declaration.withDefaultKey (r.mapped.map (·.column facts)) := rfl
  rw [hcolumns, Declaration.withDefaultKey, keyField?]
  cases hk : r.mapped.find? (·.marks.key) with
  | some f =>
    have hf : f.marks.key = true := by simpa using List.find?_some hk
    have hany : (r.mapped.map (·.column facts)).any (·.primaryKey) = true := by
      rw [List.any_map]
      exact List.any_eq_true.2 ⟨f, List.mem_of_find?_eq_some hk, hf⟩
    have hkey : ((·.primaryKey) ∘ fun f : FieldSpec => f.column facts) = (·.marks.key) := rfl
    have hself : { f.column facts with primaryKey := true } = f.column facts := by
      simp only [FieldSpec.column, hf]
    rw [if_pos hany, List.filter_map, hkey, h.filter_marks hk, Option.some_or, Option.map_some,
      hself]
    rfl
  | none =>
    have hno : ∀ c ∈ r.mapped.map (·.column facts), c.primaryKey = false :=
      List.forall_mem_map.2 fun f hf => Bool.eq_false_iff.2 (List.find?_eq_none.1 hk f hf)
    have hany : ¬(r.mapped.map (·.column facts)).any (·.primaryKey) = true := by
      rw [List.any_eq_true]
      rintro ⟨c, hc, hp⟩
      exact Bool.eq_false_iff.1 (hno c hc) hp
    have hfind : (fun key => (r.mapped.map (·.column facts)).any (·.field == key)) =
        fun key => r.mapped.any (·.name == key) := by
      funext key
      exact List.any_map
    rw [if_neg hany, Option.none_or, findSome?_find?, hfind]
    cases Declaration.defaultKeys.find? fun key => r.mapped.any (·.name == key) with
    | none =>
      exact List.filter_eq_nil_iff.2 fun c hc => Bool.eq_false_iff.1 (hno c hc)
    | some key =>
      rw [Declaration.filter_markKey key hno, List.find?_map, Option.map_map]
      rfl

theorem checkTable (facts : TypeFacts) : (r.declaration facts).assemble.checkTable = .ok () := by
  have htable : isBlankText (r.declaration facts).assemble.table = false := by
    cases ht : r.table with
    | none => simpa [Declaration.assemble, declaration, ht] using h.named
    | some table => simpa [Declaration.assemble, declaration, ht] using h.tableNamed table ht
  rw [Mapping.checkTable, htable]
  rfl

theorem checkColumnNames (facts : TypeFacts) :
    (r.declaration facts).assemble.checkColumnNames = .ok () := by
  have hnames : (r.declaration facts).assemble.columns.map Column.name =
      r.mapped.map FieldSpec.columnName :=
    (Declaration.map_withDefaultKey (fun _ => rfl) _).trans (List.map_map ..)
  have hd : DistinctNames ((r.declaration facts).assemble.columns.map Column.name) :=
    hnames ▸ h.columns
  rw [Mapping.checkColumnNames,
    Mapping.firstDuplicate_of_distinct hd fun _ _ => List.not_mem_nil]

theorem checkKey (facts : TypeFacts) : (r.declaration facts).assemble.checkKey =
    match r.keyField? with
    | none => .error (.noKey r.name)
    | some key =>
      if key.storageClass facts ≠ .integer ∧ key.storageClass facts ≠ .text then
        .error (.keyStorage r.name key.name)
      else if facts.nullable key.type = true then .error (.nullableKey r.name key.name)
      else .ok () := by
  rw [Mapping.checkKey, h.filter_key]
  cases r.keyField? with
  | none => rfl
  | some key =>
    have hkey : ((!(key.storageClass facts).isInteger && !(key.storageClass facts).isText) = true) ↔
        key.storageClass facts ≠ .integer ∧ key.storageClass facts ≠ .text := by
      simp [StorageClass.isInteger, StorageClass.isText]
    exact if_congr hkey rfl rfl

theorem checkVectors (facts : TypeFacts) : (r.declaration facts).assemble.checkVectors =
    match r.mapped.find? (·.lacksSize facts) with
    | some f => .error (.unsizedVector r.name f.name)
    | none => .ok () := by
  have hfind : ((r.declaration facts).assemble.columns.find? (·.storage == .vector 0)).map
      Column.field = (r.mapped.find? (·.lacksSize facts)).map FieldSpec.name := by
    have hmap := Declaration.map_withDefaultKey
      (g := fun c => (c.field, c.storage == .vector 0)) (fun _ => rfl)
      (r.mapped.map (·.column facts))
    have hsize : (r.mapped.map (·.column facts)).map (fun c => (c.field, c.storage == .vector 0)) =
        r.mapped.map fun f => (f.name, f.lacksSize facts) := by
      rw [List.map_map]
      refine List.map_congr_left fun f hf => ?_
      exact congrArg (f.name, ·)
        (FieldSpec.storageClass_eq_unsized (h.sized f (List.mem_of_mem_filter hf)))
    rw [map_find? _ Column.field, map_find? _ FieldSpec.name, ← hsize, ← hmap]
    rfl
  rw [Mapping.checkVectors]
  cases hf : r.mapped.find? (·.lacksSize facts) with
  | some f =>
    rw [hf, Option.map_some, Option.map_eq_some_iff] at hfind
    obtain ⟨c, hc, he⟩ := hfind
    rw [hc]
    exact congrArg (fun name => Except.error (MappingFault.unsizedVector r.name name)) he
  | none =>
    rw [hf, Option.map_none, Option.map_eq_none_iff] at hfind
    rw [hfind]

end Checked

end RecordSpec

theorem RecordSpec.Checked.build_declaration {r : RecordSpec} (h : r.Checked)
    (facts : TypeFacts) :
    (r.declaration facts).build =
      match r.typeFault? facts with
      | some fault => .error fault
      | none => .ok (r.declaration facts).assemble := by
  rw [Declaration.build, Mapping.check, h.checkTable, h.checkKey, h.checkColumnNames,
    h.checkVectors, RecordSpec.typeFault?]
  cases r.keyField? with
  | none => rfl
  | some key =>
    dsimp only
    split
    next => rfl
    next =>
      split
      next => rfl
      next => cases r.mapped.find? (·.lacksSize facts) <;> rfl

/-- An accepted item expands to a mapping that is declared call by call, as the item describes it.
Of what the mapping is checked for when it is built, only what types decide can fail. -/
theorem build_expansion {source : String} {tokens : List Token} (h : expand source = .ok tokens)
    (facts : TypeFacts) :
    ∃ r body, recordSpec source = .ok r ∧ mappingBody? tokens = some body ∧
      Declaration.ofTokens? facts body = some (r.declaration facts) ∧
      (r.declaration facts).build =
        match r.typeFault? facts with
        | some fault => .error fault
        | none => .ok (r.declaration facts).assemble := by
  obtain ⟨r, hr, rfl⟩ := map_eq_ok_iff.1 h
  exact ⟨r, r.mappingTokens, hr, r.mappingBody?_expansion, r.ofTokens?_mappingTokens,
    (RecordSpec.checked_of_recordSpec hr).build_declaration facts⟩

/-- Notes with a default key, a raw name, a storage class, a vector with a size and one without. -/
def notes : String :=
  "struct Note \x7b id: i64, r#type: String, #[column(\"heading\", text)] title: Code, " ++
    "#[vector(3)] place: Vector, #[skip] draft: Code, sketch: Vector \x7d"

def noteFacts : TypeFacts where
  native
    | [.word "i64"] => .int .i64
    | [.word "String"] => .string
    | [.word "Vector"] => .vector
    | _ => .bytes
  nullable _ := false
  record _ := ⟨"", 0⟩

/-- The mapping of notes is refused for the vector without a size, and for that only. -/
theorem build_expansion_notes : ∃ tokens body d, expand notes = .ok tokens ∧
    mappingBody? tokens = some body ∧ Declaration.ofTokens? noteFacts body = some d ∧
    d.columns.map Column.name = ["id", "type", "heading", "place", "sketch"] ∧
    d.build = .error (.unsizedVector "Note" "sketch") := by
  have hread : (recordSpec notes).toOption.map (fun r =>
      ((r.declaration noteFacts).columns.map Column.name, r.typeFault? noteFacts)) =
      some (["id", "type", "heading", "place", "sketch"],
        some (.unsizedVector "Note" "sketch")) := by decide +kernel
  cases h : recordSpec notes with
  | error =>
    rw [h] at hread
    cases hread
  | ok r =>
    rw [h, Except.toOption, Option.map_some, Option.some.injEq, Prod.mk.injEq] at hread
    have hexpand : expand notes = .ok r.expansion := by
      rw [expand, h]
      rfl
    obtain ⟨r', body, hr, hbody, hd, hbuild⟩ := build_expansion hexpand noteFacts
    cases h.symm.trans hr
    rw [hread.2] at hbuild
    exact ⟨r.expansion, body, _, hexpand, hbody, hd, hread.1, hbuild⟩

end Derive

end RecordMapper
