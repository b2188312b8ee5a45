import RecordMapper.Proofs.Derive.Arrangement
/-!
The fields that joins refer to. A join that refers to no field, or to a skipped one, is reported. As
fields with a fault of their own count as absent, a join that refers to one of them is reported too:
the reports are right exactly when every join that refers to a field refers to one that is in order.
-/

namespace RecordMapper.Derive

/-! ### Faults of attributes -/

/-- The faults between the fields of an item, which no attribute has by itself. -/
@[simp]
def ItemFault.isBetweenFields : ItemFault → Bool
  | .twoKeys | .columnTaken | .unknownJoinField => true
  | _ => false

/-- A reading that is refused for what it reads, if at all. -/
def Local {α : Type} (x : Except ItemFault α) : Prop :=
  ∀ fault, x = .error fault → fault.isBetweenFields = false

section Local

variable {α β : Type} {x : Except ItemFault α}

@[simp]
theorem local_ok (a : α) : Local (.ok a : Except ItemFault α) := fun _ h => nomatch h

@[simp]
theorem local_error_iff {fault : ItemFault} :
    Local (.error fault : Except ItemFault α) ↔ fault.isBetweenFields = false := by
  constructor
  · exact fun h => h fault rfl
  · rintro h _ ⟨⟩
    exact h

theorem Local.bind {f : α → Except ItemFault β} (hx : Local x) (hf : ∀ a, Local (f a)) :
    Local (x >>= f) := by
  cases x with
  | ok a => exact hf a
  | error fault => exact local_error_iff.2 (local_error_iff.1 hx)

@[simp]
theorem local_map_iff {f : α → β} : Local (x.map f) ↔ Local x := by
  cases x <;> simp [Except.map]

theorem Local.bind_pure (hx : Local x) (f : α → β) : Local (x >>= fun a => pure (f a)) :=
  hx.bind fun a => local_ok (f a)

end Local

theorem local_arguments (a : Attribute) : Local a.arguments := by
  unfold Attribute.arguments
  split <;> simp

theorem local_soleText (tokens : List Token) : Local (soleText tokens) := by
  unfold soleText
  split <;> simp

theorem local_named {fault : ItemFault} (h : fault.isBetweenFields = false)
    (literal : TextLiteral) : Local (named fault literal) := by
  unfold named
  split
  · exact local_error_iff.2 h
  · exact local_ok literal

theorem local_tableName (a : Attribute) : Local (tableName a) := by
  unfold tableName
  split
  case h_1 => exact (local_soleText _).bind (local_named rfl)
  case h_2 => exact local_named rfl _
  case h_3 | h_4 => simp

theorem local_indexName (a : Attribute) : Local (indexName a) := by
  unfold indexName
  split
  case h_2 => exact local_map_iff.2 ((local_soleText _).bind (local_named rfl))
  case h_1 | h_3 => simp

theorem local_vectorSize (a : Attribute) : Local (vectorSize a) := by
  refine (local_arguments a).bind fun tokens => ?_
  split
  · split_ifs <;> simp
  · simp

namespace ColumnArguments

@[simp]
theorem local_withName (c : ColumnArguments) (literal : TextLiteral) :
    Local (c.withName literal) := by
  unfold withName
  split
  · exact local_error_iff.2 rfl
  · exact local_map_iff.2 (local_named rfl literal)

@[simp]
theorem local_withStorage (c : ColumnArguments) (storage : PlainStorage) :
    Local (c.withStorage storage) := by
  unfold withStorage
  split <;> simp

theorem local_next (c : ColumnArguments) (tokens : List Token) : Local (c.next tokens) := by
  unfold next
  split
  case h_1 => simp
  case h_2 =>
    split
    · split
      · simp
      · split <;> simp
    · split <;> simp
  case h_3 => simp

theorem local_readUpTo (bound : Nat) (c : ColumnArguments) (tokens : List Token) :
    Local (readUpTo bound c tokens) := by
  induction bound generalizing c tokens with
  | zero => simp [readUpTo]
  | succ bound ih =>
    refine (local_next c tokens).bind fun found => ?_
    dsimp only
    split
    · simp
    · exact ih _ _
    · simp

end ColumnArguments

namespace JoinArguments

@[simp]
theorem local_nextField (j : JoinArguments) (side : Side) (tokens : List Token) :
    Local (j.nextField side tokens) := by
  unfold nextField
  split
  · split
    · simp
    · split
      · split <;> simp
      · simp
  · simp

theorem local_next (j : JoinArguments) (tokens : List Token) : Local (j.next tokens) := by
  unfold next
  split
  · split_ifs <;> simp
  · simp

theorem local_readUpTo (bound : Nat) (j : JoinArguments) (tokens : List Token) :
    Local (readUpTo bound j tokens) := by
  induction bound generalizing j tokens with
  | zero => simp [readUpTo]
  | succ bound ih =>
    unfold readUpTo
    split
    case h_1 h => cases h
    case h_4 h =>
      cases h
      exact (local_next _ _).bind fun found => ih _ _
    case h_2 | h_3 | h_5 => simp

end JoinArguments

theorem JoinSpec.local_ofAttribute (a : Attribute) : Local (ofAttribute a) := by
  refine (local_arguments a).bind fun tokens => ?_
  split
  · simp
  · refine (JoinArguments.local_readUpTo _ _ _).bind fun found => ?_
    split <;> simp

theorem FieldMarks.local_add (m : FieldMarks) (a : Attribute) : Local (m.add a) := by
  unfold add
  split
  case h_2 =>
    split
    · simp
    · exact (local_arguments a).bind fun tokens =>
        (ColumnArguments.local_readUpTo _ _ _).bind_pure _
  case h_4 =>
    split
    · simp
    · exact (local_indexName a).bind_pure _
  case h_5 =>
    split
    · simp
    · exact (local_vectorSize a).bind_pure _
  case h_1 | h_3 | h_6 => split <;> simp
  case h_7 => simp

theorem RecordMarks.local_add (m : RecordMarks) (a : Attribute) : Local (m.add a) := by
  unfold add
  split
  case h_1 =>
    split
    · simp
    · exact (local_tableName a).bind_pure _
  case h_2 => exact (JoinSpec.local_ofAttribute a).bind_pure _
  case h_3 => simp

/-- A fault on the way is the fault of one of the steps. -/
theorem exists_of_mem_gather {σ α ε : Type} {step : σ → α → Except ε σ} {state : σ} {l : List α}
    {fault : ε} (h : fault ∈ (gather step state l).2) : ∃ s, ∃ a ∈ l, step s a = .error fault := by
  induction l generalizing state with
  | nil => cases h
  | cons a l ih =>
    rw [gather] at h
    split at h
    next =>
      obtain ⟨s, b, hb, he⟩ := ih h
      exact ⟨s, b, .tail _ hb, he⟩
    next own he =>
      rcases List.mem_cons.1 h with rfl | h
      · exact ⟨state, a, List.mem_cons_self, he⟩
      · obtain ⟨s, b, hb, he⟩ := ih h
        exact ⟨s, b, .tail _ hb, he⟩

theorem FieldMarks.isBetweenFields_of_mem_conflicts {m : FieldMarks} {fault : ItemFault}
    (h : fault ∈ m.conflicts) : fault.isBetweenFields = false := by
  unfold conflicts at h
  rcases List.mem_append.1 h with h | h
  all_goals
    split at h
    next =>
      cases List.mem_singleton.1 h
      rfl
    next => cases h

theorem FieldSpec.isBetweenFields_of_ofField {field : ItemField} {faults : List ItemFault}
    (h : ofField field = .error faults) : ∀ fault ∈ faults, fault.isBetweenFields = false := by
  intro fault hmem
  unfold ofField at h
  dsimp only at h
  split at h
  next => cases h
  next =>
    cases h
    rcases List.mem_append.1 hmem with hmem | hmem
    · obtain ⟨m, a, _, he⟩ := exists_of_mem_gather hmem
      exact FieldMarks.local_add m a fault he
    · exact FieldMarks.isBetweenFields_of_mem_conflicts hmem

theorem isBetweenFields_of_mem_readFields {written : List ItemField} {fault : ItemFault}
    (h : fault ∈ (readFields written).2) : fault.isBetweenFields = false := by
  induction written with
  | nil => cases h
  | cons field rest ih =>
    rw [readFields] at h
    dsimp only at h
    split at h
    next => exact ih h
    next own hown =>
      rcases List.mem_append.1 h with h | h
      · exact FieldSpec.isBetweenFields_of_ofField hown fault h
      · exact ih h

/-! ### Skipped fields -/

def Attribute.isSkip (a : Attribute) : Bool := a.name == some "skip"

theorem FieldMarks.skip_of_add {m m' : FieldMarks} {a : Attribute} (h : m.add a = .ok m') :
    m'.skip = (m.skip || a.isSkip) := by
  unfold add at h
  unfold Attribute.isSkip
  split at h
  case h_1 hname | h_3 hname | h_6 hname =>
    obtain ⟨_, h⟩ := ite_error_eq_ok_iff.1 h
    cases h
    simp [hname]
  case h_2 hname =>
    obtain ⟨_, h⟩ := ite_error_eq_ok_iff.1 h
    obtain ⟨_, _, h⟩ := bind_eq_ok_iff.1 h
    obtain ⟨_, _, rfl⟩ := bind_pure_eq_ok_iff.1 h
    simp [hname]
  case h_4 hname | h_5 hname =>
    obtain ⟨_, h⟩ := ite_error_eq_ok_iff.1 h
    obtain ⟨_, _, rfl⟩ := bind_pure_eq_ok_iff.1 h
    simp [hname]
  case h_7 hskip =>
    cases h
    simpa using fun hname => (hskip hname).elim

theorem FieldMarks.skip_of_gather {m m' : FieldMarks} {l : List Attribute}
    (h : gather add m l = (m', [])) : m'.skip = (m.skip || l.any Attribute.isSkip) := by
  induction l generalizing m with
  | nil =>
    cases h
    simp
  | cons a l ih =>
    rw [gather] at h
    split at h
    next hadd => rw [ih h, skip_of_add hadd, List.any_cons, Bool.or_assoc]
    next => cases h

namespace ItemField

def skipped (field : ItemField) : Bool := field.attributes.any Attribute.isSkip

/-- Nothing is wrong with the field's own attributes. -/
def InOrder (field : ItemField) : Prop := (FieldSpec.ofField field).isOk = true

/-- The join can refer to the field: it has the name that is asked for, and it is not skipped. -/
def Answers (field : ItemField) (join : JoinSpec) : Prop :=
  unraw field.name = join.left ∧ field.skipped = false

instance (field : ItemField) : Decidable field.InOrder := inferInstanceAs (Decidable (_ = true))

instance (field : ItemField) (join : JoinSpec) : Decidable (field.Answers join) :=
  inferInstanceAs (Decidable (_ ∧ _))

variable {field : ItemField}

theorem inOrder_iff : field.InOrder ↔ ∃ spec, FieldSpec.ofField field = .ok spec := by
  unfold InOrder
  cases FieldSpec.ofField field <;> simp [Except.isOk, Except.toBool]

theorem answers_iff_of_ofField {spec : FieldSpec} (h : FieldSpec.ofField field = .ok spec)
    (join : JoinSpec) : field.Answers join ↔ spec.name = join.left ∧ spec.marks.skip = false := by
  obtain ⟨marks, hmarks, _, rfl⟩ := FieldSpec.ofField_eq_ok_iff.1 h
  have hskip : marks.skip = field.skipped := FieldMarks.skip_of_gather hmarks
  rw [Answers, ← hskip]
  rfl

end ItemField

/-- The fields that are read are those in order. -/
theorem mem_readFields_iff {written : List ItemField} {spec : FieldSpec} :
    spec ∈ (readFields written).1 ↔ ∃ field ∈ written, FieldSpec.ofField field = .ok spec := by
  induction written with
  | nil => simp [readFields]
  | cons field rest ih =>
    rw [readFields]
    cases h : FieldSpec.ofField field with
    | ok own => simp [ih, h, eq_comm]
    | error own => simp [ih, h]

/-- A join finds its field when one that it can refer to is in order. -/
theorem any_mappedFields_iff {written : List ItemField} {join : JoinSpec} :
    (mappedFields (readFields written).1).any (·.name == join.left) = true ↔
      ∃ field ∈ written, field.Answers join ∧ field.InOrder := by
  simp only [List.any_eq_true, mappedFields, List.mem_filter, mem_readFields_iff,
    ItemField.inOrder_iff, beq_iff_eq, Bool.not_eq_true']
  constructor
  · rintro ⟨spec, ⟨⟨field, hmem, hspec⟩, hskip⟩, hname⟩
    exact ⟨field, hmem, (ItemField.answers_iff_of_ofField hspec join).2 ⟨hname, hskip⟩, spec, hspec⟩
  · rintro ⟨field, hmem, hanswers, spec, hspec⟩
    obtain ⟨hname, hskip⟩ := (ItemField.answers_iff_of_ofField hspec join).1 hanswers
    exact ⟨spec, ⟨⟨field, hmem, hspec⟩, hskip⟩, hname⟩

/-! ### Joins -/

/-- The join that an attribute asks for, if it is one and has the form of one. -/
def Attribute.join? (a : Attribute) : Option JoinSpec :=
  if a.isJoin then (JoinSpec.ofAttribute a).toOption else none

namespace RecordMarks

variable {m : RecordMarks} {a : Attribute}

theorem joins_of_add {m' : RecordMarks} (h : m.add a = .ok m') :
    m'.joins = m.joins ++ a.join?.toList := by
  unfold add at h
  unfold Attribute.join? Attribute.isJoin
  split at h
  next hname =>
    obtain ⟨_, h⟩ := ite_error_eq_ok_iff.1 h
    obtain ⟨_, _, rfl⟩ := bind_pure_eq_ok_iff.1 h
    simp [hname]
  next hname =>
    obtain ⟨_, hjoin, rfl⟩ := bind_pure_eq_ok_iff.1 h
    simp [hname, hjoin, Except.toOption]
  next hjoin =>
    cases h
    simpa using fun hname => (hjoin hname).elim

theorem join?_of_add {fault : ItemFault} (h : m.add a = .error fault) : a.join? = none := by
  unfold add at h
  unfold Attribute.join? Attribute.isJoin
  split at h
  next hname => simp [hname]
  next hname =>
    cases hjoin : JoinSpec.ofAttribute a with
    | ok =>
      rw [hjoin] at h
      cases h
    | error => simp [Except.toOption]
  next => cases h

/-- The joins are those of the attributes, whatever else is wrong with these. -/
theorem joins_gather (m : RecordMarks) (l : List Attribute) :
    (gather add m l).1.joins = m.joins ++ l.filterMap Attribute.join? := by
  induction l generalizing m with
  | nil => simp [gather]
  | cons a l ih =>
    rw [gather, List.filterMap_cons]
    split
    next hadd =>
      rw [ih, joins_of_add hadd]
      cases a.join? <;> simp
    next hadd =>
      rw [join?_of_add hadd]
      exact ih m

end RecordMarks

/-! ### Reports -/

def ItemFields.all : ItemFields → List ItemField
  | .named fields => fields
  | .unnamed => []

namespace Item

def joins (item : Item) : List JoinSpec := item.attributes.filterMap Attribute.join?

/-- There is a field that the join refers to: one of the name that is not skipped. -/
def Resolves (item : Item) (join : JoinSpec) : Prop :=
  ∃ field ∈ item.fields.all, field.Answers join

/-- The same, with a field in order. -/
def ResolvesInOrder (item : Item) (join : JoinSpec) : Prop :=
  ∃ field ∈ item.fields.all, field.Answers join ∧ field.InOrder

/-- The joins that are reported, in order. Nothing is said of them when the fields have no names, or
when the item has parameters. -/
def unknownJoins (item : Item) : List JoinSpec :=
  match item.fields with
  | .unnamed => []
  | .named written =>
    if item.generic then []
    else
      item.joins.filter fun join =>
        !(mappedFields (readFields written).1).any (·.name == join.left)

instance (item : Item) (join : JoinSpec) : Decidable (item.Resolves join) :=
  inferInstanceAs (Decidable (∃ field ∈ item.fields.all, _))

instance (item : Item) (join : JoinSpec) : Decidable (item.ResolvesInOrder join) :=
  inferInstanceAs (Decidable (∃ field ∈ item.fields.all, _))

variable {item : Item} {join : JoinSpec}

theorem mem_unknownJoins_iff {written : List ItemField} (hfields : item.fields = .named written)
    (hgeneric : item.generic = false) :
    join ∈ item.unknownJoins ↔ join ∈ item.joins ∧ ¬item.ResolvesInOrder join := by
  rw [unknownJoins, hfields, hgeneric, ResolvesInOrder, hfields]
  simp only [Bool.false_eq_true, ↓reduceIte, List.mem_filter, Bool.not_eq_true',
    ← Bool.not_eq_true, any_mappedFields_iff, ItemFields.all]

end Item

namespace RecordSpec

theorem eq_of_mem_keyFaults {fields : List FieldSpec} {fault : ItemFault}
    (h : fault ∈ keyFaults fields) : fault = .twoKeys := by
  unfold keyFaults at h
  split at h
  next => cases h
  next => exact List.mem_singleton.1 h

theorem eq_of_mem_columnFaults {seen : List String} {fields : List FieldSpec} {fault : ItemFault}
    (h : fault ∈ columnFaults seen fields) : fault = .columnTaken := by
  induction fields generalizing seen with
  | nil => cases h
  | cons field rest ih =>
    rw [columnFaults] at h
    split at h
    next =>
      rcases List.mem_cons.1 h with rfl | h
      · rfl
      · exact ih h
    next => exact ih h

/-- Joins are not reported among the faults of attributes, keys and columns. -/
theorem unknownJoinField_not_mem (attributes : List Attribute) (written : List ItemField) :
    .unknownJoinField ∉ (gather RecordMarks.add {} attributes).2 ++ (readFields written).2 ++
      keyFaults (readFields written).1 ++
        columnFaults [] (mappedFields (readFields written).1) := by
  intro h
  simp only [List.mem_append] at h
  rcases h with ((h | h) | h) | h
  · obtain ⟨m, a, _, he⟩ := exists_of_mem_gather h
    cases RecordMarks.local_add m a _ he
  · cases isBetweenFields_of_mem_readFields h
  · cases eq_of_mem_keyFaults h
  · cases eq_of_mem_columnFaults h

end RecordSpec

/-- What is reported for a source: nothing when it expands. -/
def faultsOf (source : String) : List ItemFault :=
  match expand source with
  | .ok _ | .error .notTokens => []
  | .error (.refused faults) => faults

variable {source : String} {item : Item}

theorem faultsOf_eq (h : Item.ofSource? source = some item) :
    faultsOf source = match RecordSpec.ofItem item with
      | .ok _ => []
      | .error faults => faults := by
  obtain ⟨tokens, htokens, hitem⟩ := Option.bind_eq_some_iff.1 h
  have hspec : recordSpec source = (RecordSpec.ofItem item).mapError .refused := by
    rw [recordSpec, htokens]
    dsimp only
    rw [hitem]
  rw [faultsOf, expand, hspec]
  cases RecordSpec.ofItem item <;> rfl

/-- Behind all other faults, there is one for each unknown join. -/
theorem exists_faultsOf_eq_append (h : Item.ofSource? source = some item) :
    ∃ others, faultsOf source = others ++ item.unknownJoins.map (fun _ => .unknownJoinField) ∧
      .unknownJoinField ∉ others := by
  rw [faultsOf_eq h, RecordSpec.ofItem, Item.unknownJoins]
  cases item.fields with
  | unnamed => exact ⟨[.unnamedFields], rfl, by decide⟩
  | named written =>
    cases item.generic with
    | true => exact ⟨[.generic], rfl, by decide⟩
    | false =>
      obtain ⟨marks, own, hmarks⟩ :
          ∃ m f, gather RecordMarks.add {} item.attributes = (m, f) := ⟨_, _, rfl⟩
      obtain ⟨fields, inFields, hread⟩ : ∃ s f, readFields written = (s, f) := ⟨_, _, rfl⟩
      have hjoins : marks.joins = item.joins := by
        have hgather := RecordMarks.joins_gather {} item.attributes
        rwa [hmarks] at hgather
      simp only [Bool.false_eq_true, ↓reduceIte, hmarks, hread, hjoins]
      have hothers := RecordSpec.unknownJoinField_not_mem item.attributes written
      rw [hmarks, hread] at hothers
      refine ⟨_, ?_, hothers⟩
      -- refused or not, the faults are the whole list
      change _ = _ ++ RecordSpec.joinFaults (mappedFields fields) item.joins
      generalize _ ++ RecordSpec.joinFaults (mappedFields fields) item.joins = faults
      cases faults <;> rfl

/-- Of the joins of a source, the unknown ones are reported, each once and behind all other faults.
The reports are right, each about a join that refers to no field or to a skipped one, exactly when
every join that refers to a field refers to one whose own attributes are in order. -/
theorem joinReports_genuine_iff (h : Item.ofSource? source = some item) :
    (∃ others, faultsOf source = others ++ item.unknownJoins.map (fun _ => .unknownJoinField) ∧
        .unknownJoinField ∉ others) ∧
      ((∀ join ∈ item.unknownJoins, ¬item.Resolves join) ↔
        (item.generic = false →
          ∀ join ∈ item.joins, item.Resolves join → item.ResolvesInOrder join)) := by
  refine ⟨exists_faultsOf_eq_append h, ?_⟩
  -- joins are looked up only where fields have names and the item has no parameters
  cases hfields : item.fields with
  | unnamed =>
    have hnone (join : JoinSpec) : ¬item.Resolves join := by
      rintro ⟨_, hmem, _⟩
      rw [hfields] at hmem
      cases hmem
    exact iff_of_true (fun join _ => hnone join) fun _ join _ h => absurd h (hnone join)
  | named written =>
    cases hgeneric : item.generic with
    | true => simp [Item.unknownJoins, hfields, hgeneric]
    | false =>
      have hunknown (join : JoinSpec) : join ∈ item.unknownJoins ↔
          join ∈ item.joins ∧ ¬item.ResolvesInOrder join :=
        Item.mem_unknownJoins_iff hfields hgeneric
      simp only [hunknown, forall_const]
      constructor
      · intro hgenuine join hmem hresolves
        by_contra hfaulty
        exact hgenuine join ⟨hmem, hfaulty⟩ hresolves
      · rintro hinOrder join ⟨hmem, hfaulty⟩ hresolves
        exact hfaulty (hinOrder join hmem hresolves)

/-- A join of a record's field `left` to the `id` of the target. -/
def joinMark (target left : String) : Attribute :=
  ⟨some "join", .arguments [.word target, .mark ',' false, .word "left", .mark '=' false,
    .word left, .mark ',' false, .word "right", .mark '=' false, .word "id"]⟩

/-- Articles with an author, and what the text says of that field. -/
def article (own : List Attribute) : Item where
  attributes := [joinMark "Draft" "id", joinMark "Author" "author"]
  visibility := []
  name := "Article"
  generic := false
  fields := .named [⟨[], [], "id", [.word "Code"]⟩, ⟨own, [], "author", [.word "Code"]⟩]

def skipMark : Attribute := ⟨some "skip", .nothing⟩

def columnMark (name : String) : Attribute := ⟨some "column", .arguments [.ofText name]⟩

def articleSource (own : String) : String :=
  "#[join(Draft, left = id, right = id)] #[join(Author, left = author, right = id)] " ++
    "struct Article \x7b id: Code, " ++ own ++ " author: Code \x7d"

/-- The author is skipped twice, which is a fault, and the join that refers to it is reported with
right. The join that refers to the other field is not reported. -/
theorem joinReports_genuine_skipped :
    Item.ofSource? (articleSource "#[skip] #[skip]") = some (article [skipMark, skipMark]) ∧
      faultsOf (articleSource "#[skip] #[skip]") = [.duplicateMark .skip, .unknownJoinField] ∧
        ∀ join ∈ (article [skipMark, skipMark]).unknownJoins,
          ¬(article [skipMark, skipMark]).Resolves join := by
  have hsource : Item.ofSource? (articleSource "#[skip] #[skip]") =
      some (article [skipMark, skipMark]) := by decide +kernel
  refine ⟨hsource, ?_, (joinReports_genuine_iff hsource).2.2 fun _ => by decide +kernel⟩
  rw [faultsOf_eq hsource]
  decide +kernel

/-- A blank column name is all that is wrong with the author, who is not skipped, and the join that
refers to it is reported all the same. -/
theorem blank_author_reported :
    Item.ofSource? (articleSource "#[column(\"\")]") = some (article [columnMark ""]) ∧
      faultsOf (articleSource "#[column(\"\")]") = [.emptyColumnName, .unknownJoinField] ∧
        ∃ join ∈ (article [columnMark ""]).unknownJoins,
          (article [columnMark ""]).Resolves join := by
  have hsource : Item.ofSource? (articleSource "#[column(\"\")]") =
      some (article [columnMark ""]) := by decide +kernel
  refine ⟨hsource, ?_, by decide +kernel⟩
  rw [faultsOf_eq hsource]
  decide +kernel

end RecordMapper.Derive
