import RecordMapper.Derive.Expansion
import RecordMapper.Proofs.Derive.Arguments
/-!
Items whose attributes are arranged in another way. What an item expands to does not depend on the
order of the attributes of a field, nor on that of the arguments of an attribute. Of the record's
own attributes only the joins have an order that matters.
-/

namespace RecordMapper.Derive

deriving instance DecidableEq for Attribute.Content, Attribute, ItemField, ItemFields, Item, Reading

/-- The same attribute, with its arguments in another order. The target of a join stays before
them. -/
inductive Attribute.Rearranged : Attribute → Attribute → Prop
  | same (a : Attribute) : Rearranged a a
  | column {body body' : List Token} (h : (pieces body).Perm (pieces body')) :
      Rearranged ⟨some "column", .arguments body⟩ ⟨some "column", .arguments body'⟩
  | join {body body' : List Token}
      (h : Option.Rel (fun target target' => target.written = target'.written ∧
        Derive.Rearranged (pieces target.rest) (pieces target'.rest))
        (typePath body) (typePath body')) :
      Rearranged ⟨some "join", .arguments body⟩ ⟨some "join", .arguments body'⟩

def Attribute.isJoin (a : Attribute) : Bool := a.name == some "join"

/-! ### The attributes of a field -/

namespace FieldMarks

variable {m : FieldMarks}

/-- No mark is given twice. -/
@[mk_iff]
structure Merges (m d u : FieldMarks) : Prop where
  key : OneOf false m.key d.key u.key
  column : OneOf none m.column d.column u.column
  unique : OneOf false m.unique d.unique u.unique
  index : OneOf none m.index d.index u.index
  vector : OneOf none m.vector d.vector u.vector
  skip : OneOf false m.skip d.skip u.skip

theorem Merges.swaps : Swaps Merges := by
  intro m d e u t h h'
  obtain ⟨key, hkey, hkey'⟩ := OneOf.swaps _ h.key h'.key
  obtain ⟨column, hcolumn, hcolumn'⟩ := OneOf.swaps _ h.column h'.column
  obtain ⟨unique, hunique, hunique'⟩ := OneOf.swaps _ h.unique h'.unique
  obtain ⟨index, hindex, hindex'⟩ := OneOf.swaps _ h.index h'.index
  obtain ⟨vector, hvector, hvector'⟩ := OneOf.swaps _ h.vector h'.vector
  obtain ⟨skip, hskip, hskip'⟩ := OneOf.swaps _ h.skip h'.skip
  exact ⟨⟨key, column, unique, index, vector, skip⟩,
    ⟨hkey, hcolumn, hunique, hindex, hvector, hskip⟩,
    ⟨hkey', hcolumn', hunique', hindex', hvector', hskip'⟩⟩

/-- What one attribute gives. -/
def Gives (a : Attribute) (d : FieldMarks) : Prop := add {} a = .ok d

theorem add_eq_ok_iff (m : FieldMarks) (a : Attribute) (u : FieldMarks) :
    m.add a = .ok u ↔ ∃ d, Gives a d ∧ m.Merges d u := by
  obtain ⟨mkey, mcolumn, munique, mindex, mvector, mskip⟩ := m
  obtain ⟨ukey, ucolumn, uunique, uindex, uvector, uskip⟩ := u
  unfold Gives add
  split
  all_goals
    simp only [ite_error_eq_ok_iff, bind_eq_ok_iff, pure_eq_ok_iff, merges_iff, Except.ok.injEq,
      mk.injEq, Option.isSome_eq_false_iff, Option.isNone_iff_eq_none]
  case h_7 => simp
  all_goals grind

theorem gives_congr (a a' : Attribute) (d : FieldMarks) (h : a.Rearranged a') :
    Gives a d ↔ Gives a' d := by
  cases h with
  | same => rfl
  | column h =>
    have hread {c : ColumnArguments} := ColumnArguments.read_perm (c := c) h
    simp only [Gives, add, Attribute.arguments, Option.isSome_none, Bool.false_eq_true,
      ↓reduceIte, bind_eq_ok_iff, pure_eq_ok_iff, Except.ok.injEq, exists_eq_left', hread]
  | join => simp [Gives, add]

theorem gather_rearranged {attributes mid attributes' : List Attribute}
    (hperm : mid.Perm attributes) (h : List.Forall₂ Attribute.Rearranged mid attributes') :
    gather add {} attributes = (m, []) ↔ gather add {} attributes' = (m, []) := by
  have hgather (l : List Attribute) : gather add {} l = (m, []) ↔ Gathers Gives Merges {} l m :=
    gather_eq_iff add_eq_ok_iff
  rw [hgather, hgather, ← gathers_congr gives_congr h]
  exact ⟨.perm Merges.swaps hperm.symm, .perm Merges.swaps hperm⟩

end FieldMarks

/-! ### The record's own attributes -/

theorem JoinSpec.ofAttribute_rearranged {name : Option String} {body body' : List Token}
    (h : Option.Rel (fun target target' => target.written = target'.written ∧
      Derive.Rearranged (pieces target.rest) (pieces target'.rest))
      (typePath body) (typePath body')) {j : JoinSpec} :
    ofAttribute ⟨name, .arguments body⟩ = .ok j ↔ ofAttribute ⟨name, .arguments body'⟩ = .ok j := by
  simp only [ofAttribute, Attribute.arguments, bind_eq_ok_iff, Except.ok.injEq, exists_eq_left']
  generalize typePath body = target, typePath body' = target' at h
  cases h with
  | none => rfl
  | some h =>
    obtain ⟨hwritten, hrest⟩ := h
    have hread {k : JoinArguments} := JoinArguments.read_rearranged (u := k) hrest
    simp only [bind_eq_ok_iff, hread, hwritten]

namespace RecordMarks

variable {m d : RecordMarks} {a : Attribute}

/-- The table is not given twice. Joins keep their order. -/
@[mk_iff]
structure Merges (m d u : RecordMarks) : Prop where
  table : OneOf none m.table d.table u.table
  joins : u.joins = m.joins ++ d.joins

def Gives (a : Attribute) (d : RecordMarks) : Prop := add {} a = .ok d

theorem add_eq_ok_iff (m : RecordMarks) (a : Attribute) (u : RecordMarks) :
    m.add a = .ok u ↔ ∃ d, Gives a d ∧ m.Merges d u := by
  obtain ⟨mtable, mjoins⟩ := m
  obtain ⟨utable, ujoins⟩ := u
  unfold Gives add
  split
  all_goals
    simp only [ite_error_eq_ok_iff, bind_eq_ok_iff, pure_eq_ok_iff, merges_iff, Except.ok.injEq,
      mk.injEq, Option.isSome_eq_false_iff, Option.isNone_iff_eq_none]
  case h_1 => grind
  case h_2 =>
    constructor
    · rintro ⟨join, hjoin, htable, hjoins⟩
      exact ⟨_, ⟨join, hjoin, rfl⟩, oneOf_none_iff.2 htable, hjoins.symm⟩
    · rintro ⟨_, ⟨join, hjoin, rfl⟩, htable, hjoins⟩
      exact ⟨join, hjoin, oneOf_none_iff.1 htable, hjoins.symm⟩
  case h_3 => simp [eq_comm]

theorem Gives.joins (h : Gives a d) (ha : a.isJoin = false) : d.joins = [] := by
  unfold Gives add at h
  split at h
  next =>
    obtain ⟨_, h⟩ := ite_error_eq_ok_iff.1 h
    obtain ⟨_, _, rfl⟩ := bind_pure_eq_ok_iff.1 h
    rfl
  next hname =>
    rw [Attribute.isJoin, hname] at ha
    cases ha
  next =>
    cases h
    rfl

theorem independent {a b : Attribute} (h : a.isJoin = false ∨ b.isJoin = false) :
    Independent Gives Merges a b := by
  intro m d e u t hd he hu ht
  obtain ⟨table, htable, htable'⟩ := OneOf.swaps _ hu.table ht.table
  refine ⟨⟨table, m.joins ++ e.joins⟩, ⟨htable, rfl⟩, ⟨htable', ?_⟩⟩
  rw [ht.joins, hu.joins]
  rcases h with h | h
  · rw [hd.joins h, List.append_nil, List.append_nil]
  · rw [he.joins h, List.append_nil, List.append_nil]

theorem gives_congr (a a' : Attribute) (d : RecordMarks) (h : a.Rearranged a') :
    Gives a d ↔ Gives a' d := by
  cases h with
  | same => rfl
  | column => simp [Gives, add]
  | @join body body' h =>
    have hjoin (j : JoinSpec) : JoinSpec.ofAttribute ⟨some "join", .arguments body⟩ = .ok j ↔
        JoinSpec.ofAttribute ⟨some "join", .arguments body'⟩ = .ok j :=
      JoinSpec.ofAttribute_rearranged h
    simp only [Gives, add, bind_pure_eq_ok_iff, hjoin]

theorem gather_rearranged {attributes mid attributes' : List Attribute}
    (hperm : mid.Perm attributes)
    (hjoins : mid.filter Attribute.isJoin = attributes.filter Attribute.isJoin)
    (h : List.Forall₂ Attribute.Rearranged mid attributes') :
    gather add {} attributes = (m, []) ↔ gather add {} attributes' = (m, []) := by
  have hgather (l : List Attribute) : gather add {} l = (m, []) ↔ Gathers Gives Merges {} l m :=
    gather_eq_iff add_eq_ok_iff
  have hind (a b : Attribute) : a.isJoin = false ∨ b.isJoin = false →
      Independent Gives Merges a b := independent
  rw [hgather, hgather, ← gathers_congr gives_congr h]
  exact ⟨.perm_filter hind hperm.symm hjoins.symm, .perm_filter hind hperm hjoins⟩

end RecordMarks

/-! ### Fields and items -/

namespace FieldSpec

variable {field field' : ItemField} {spec : FieldSpec}

theorem ofField_eq_ok_iff : ofField field = .ok spec ↔
    ∃ marks, gather FieldMarks.add {} field.attributes = (marks, []) ∧ marks.conflicts = [] ∧
      ⟨field.name, field.type, marks⟩ = spec := by
  unfold ofField
  obtain ⟨marks, faults⟩ := gather FieldMarks.add {} field.attributes
  dsimp only
  split
  next hnone =>
    obtain ⟨rfl, hconflicts⟩ := List.append_eq_nil_iff.1 hnone
    constructor
    · intro h
      exact ⟨marks, rfl, hconflicts, Except.ok.inj h⟩
    · rintro ⟨_, hmarks, _, rfl⟩
      cases hmarks
      rfl
  next hsome =>
    constructor
    · intro h
      cases h
    · rintro ⟨_, hmarks, hconflicts, _⟩
      cases hmarks
      exact absurd hconflicts hsome

theorem ofField_ne : ofField field ≠ .error [] := by
  intro h
  unfold ofField at h
  dsimp only at h
  split at h
  next => cases h
  next hsome => exact hsome (Except.error.inj h)

end FieldSpec

/-- The fields are read without a fault when each of them is. -/
theorem readFields_eq_iff {written : List ItemField} {fields : List FieldSpec} :
    readFields written = (fields, []) ↔
      List.Forall₂ (fun field spec => FieldSpec.ofField field = .ok spec) written fields := by
  induction written generalizing fields with
  | nil =>
    constructor
    · rintro ⟨⟩
      exact .nil
    · rintro ⟨⟩
      rfl
  | cons field rest ih =>
    rw [readFields, List.forall₂_cons_left_iff]
    obtain ⟨specs, faults, hread⟩ : ∃ specs faults, readFields rest = (specs, faults) := ⟨_, _, rfl⟩
    rw [hread] at ih ⊢
    dsimp only
    cases h : FieldSpec.ofField field with
    | ok spec =>
      constructor
      · intro he
        cases he
        exact ⟨spec, specs, rfl, ih.1 rfl, rfl⟩
      · rintro ⟨_, _, hspec, hrest, rfl⟩
        cases hspec
        cases ih.2 hrest
        rfl
    | error own =>
      constructor
      · intro he
        obtain ⟨rfl, _⟩ := List.append_eq_nil_iff.1 (congrArg Prod.snd he)
        exact absurd h FieldSpec.ofField_ne
      · rintro ⟨_, _, hspec, _⟩
        cases hspec

namespace RecordSpec

/-- An item is accepted when its attributes and its fields are, and nothing is wrong between
them. -/
theorem ofItem_eq_ok_iff {item : Item} {r : RecordSpec} : ofItem item = .ok r ↔
    ∃ written, item.fields = .named written ∧ item.generic = false ∧
      ∃ marks, gather RecordMarks.add {} item.attributes = (marks, []) ∧
        ∃ fields, readFields written = (fields, []) ∧
          keyFaults fields = [] ∧ columnFaults [] (mappedFields fields) = [] ∧
          joinFaults (mappedFields fields) marks.joins = [] ∧
          ⟨item.visibility, item.name, marks.table, fields, marks.joins⟩ = r := by
  unfold ofItem
  split
  next hfields =>
    rw [hfields]
    constructor
    · intro h
      cases h
    · rintro ⟨_, h, _⟩
      cases h
  next written hfields =>
    rw [hfields, ite_error_eq_ok_iff]
    constructor
    · rintro ⟨hgeneric, h⟩
      obtain ⟨marks, ownFaults, hmarks⟩ :
          ∃ m f, gather RecordMarks.add {} item.attributes = (m, f) := ⟨_, _, rfl⟩
      obtain ⟨fields, fieldFaults, hread⟩ : ∃ s f, readFields written = (s, f) := ⟨_, _, rfl⟩
      simp only [hmarks, hread] at h
      split at h
      next hnone =>
        simp only [List.append_eq_nil_iff] at hnone
        obtain ⟨⟨⟨⟨rfl, rfl⟩, hkeys⟩, hcolumns⟩, hknown⟩ := hnone
        exact ⟨written, rfl, hgeneric, marks, hmarks, fields, hread, hkeys, hcolumns, hknown,
          Except.ok.inj h⟩
      next => cases h
    · rintro ⟨_, hwritten, hgeneric, marks, hmarks, fields, hread, hkeys, hcolumns, hknown, rfl⟩
      cases hwritten
      simp only [hgeneric, hmarks, hread, hkeys, hcolumns, hknown, List.nil_append, and_self]

end RecordSpec

/-! ### Arrangements -/

/-- The same field, with its attributes in another order. -/
structure ItemField.Rearranged (field field' : ItemField) : Prop where
  attributes : ∃ mid, mid.Perm field.attributes ∧
    List.Forall₂ Attribute.Rearranged mid field'.attributes
  visibility : field.visibility = field'.visibility
  name : field.name = field'.name
  type : field.type = field'.type

inductive ItemFields.Rearranged : ItemFields → ItemFields → Prop
  | named {fields fields' : List ItemField} (h : List.Forall₂ ItemField.Rearranged fields fields') :
      Rearranged (.named fields) (.named fields')
  | unnamed : Rearranged .unnamed .unnamed

/-- The same item, with attributes in another order. Its joins keep theirs, and so do its fields. -/
structure Item.Rearranged (item item' : Item) : Prop where
  attributes : ∃ mid, mid.Perm item.attributes ∧
    mid.filter Attribute.isJoin = item.attributes.filter Attribute.isJoin ∧
    List.Forall₂ Attribute.Rearranged mid item'.attributes
  visibility : item.visibility = item'.visibility
  name : item.name = item'.name
  generic : item.generic = item'.generic
  fields : item.fields.Rearranged item'.fields

theorem FieldSpec.ofField_rearranged {field field' : ItemField} (h : field.Rearranged field')
    {spec : FieldSpec} : ofField field = .ok spec ↔ ofField field' = .ok spec := by
  obtain ⟨mid, hperm, hmid⟩ := h.attributes
  simp only [ofField_eq_ok_iff, FieldMarks.gather_rearranged hperm hmid, h.name, h.type]

theorem readFields_rearranged {written written' : List ItemField}
    (h : List.Forall₂ ItemField.Rearranged written written') {fields : List FieldSpec} :
    readFields written = (fields, []) ↔ readFields written' = (fields, []) := by
  rw [readFields_eq_iff, readFields_eq_iff]
  induction h generalizing fields with
  | nil => rfl
  | cons hfield _ ih =>
    simp only [List.forall₂_cons_left_iff, FieldSpec.ofField_rearranged hfield, ih]

theorem RecordSpec.ofItem_rearranged {item item' : Item} (h : item.Rearranged item')
    {r : RecordSpec} : ofItem item = .ok r ↔ ofItem item' = .ok r := by
  obtain ⟨mid, hperm, hjoins, hmid⟩ := h.attributes
  rw [ofItem_eq_ok_iff, ofItem_eq_ok_iff]
  simp only [RecordMarks.gather_rearranged hperm hjoins hmid, h.visibility, h.name, h.generic]
  have hfields := h.fields
  generalize item.fields = fields, item'.fields = fields' at hfields ⊢
  cases hfields with
  | named hfields =>
    simp only [ItemFields.named.injEq, exists_eq_left', readFields_rearranged hfields]
  | unnamed => rfl

/-- The item that a text is read as, if it is one. -/
def Item.ofSource? (source : String) : Option Item := (tokens? source).bind Item.ofTokens?

theorem recordSpec_eq_ok_iff {source : String} {r : RecordSpec} : recordSpec source = .ok r ↔
    ∃ item, Item.ofSource? source = some item ∧ RecordSpec.ofItem item = .ok r := by
  unfold recordSpec Item.ofSource?
  cases tokens? source with
  | none => simp
  | some tokens =>
    rw [Option.bind_some]
    dsimp only
    cases Item.ofTokens? tokens with
    | none => simp
    | some item => simp [mapError_eq_ok_iff]

/-- The order of attributes and of their arguments does not matter: what one arrangement of an item
expands to, every other one does. Only the joins have an order. -/
theorem expand_rearranged {source source' : String}
    (h : Option.Rel Item.Rearranged (Item.ofSource? source) (Item.ofSource? source'))
    (expansion : List Token) : expand source = .ok expansion ↔ expand source' = .ok expansion := by
  have hspec (r : RecordSpec) : recordSpec source = .ok r ↔ recordSpec source' = .ok r := by
    rw [recordSpec_eq_ok_iff, recordSpec_eq_ok_iff]
    generalize Item.ofSource? source = item, Item.ofSource? source' = item' at h
    cases h with
    | none => rfl
    | some h => simp only [Option.some.injEq, exists_eq_left', RecordSpec.ofItem_rearranged h]
  simp only [expand, map_eq_ok_iff, hspec]

def tabled : Attribute := ⟨some "table", .value [.ofText "posts"]⟩

/-- The key of a side as an argument, behind its comma. -/
def keyOf (side : Side) : List Token :=
  [.mark ',' false, .word side.name, .mark '=' false, .word "id"]

def joined (first second : Side) : Attribute :=
  ⟨some "join", .arguments (.word "Author" :: (keyOf first ++ keyOf second))⟩

def keyed : Attribute := ⟨some "key", .nothing⟩

def stored (first second : Token) : Attribute :=
  ⟨some "column", .arguments [first, .mark ',' false, second]⟩

/-- Posts, each with the key of its author. -/
def post (own key : List Attribute) : Item where
  attributes := own
  visibility := []
  name := "Post"
  generic := false
  fields := .named [⟨key, [], "id", [.word "Code"]⟩]

def posts : Item :=
  post [joined .left .right, tabled] [keyed, stored (.ofText "post") (.word "text")]

def rearrangedPosts : Item :=
  post [tabled, joined .right .left] [stored (.word "text") (.ofText "post"), keyed]

theorem rearranged_posts : posts.Rearranged rearrangedPosts := by
  have hcolumn : (stored (.ofText "post") (.word "text")).Rearranged
      (stored (.word "text") (.ofText "post")) := .column (by decide)
  have hjoin : (joined .left .right).Rearranged (joined .right .left) := by
    have htarget : typePath (.word "Author" :: (keyOf .left ++ keyOf .right)) =
        some ⟨(), [.word "Author"], keyOf .left ++ keyOf .right⟩ := by decide +kernel
    have htarget' : typePath (.word "Author" :: (keyOf .right ++ keyOf .left)) =
        some ⟨(), [.word "Author"], keyOf .right ++ keyOf .left⟩ := by decide +kernel
    apply Attribute.Rearranged.join
    rw [htarget, htarget']
    exact .some ⟨rfl, by decide⟩
  have hown : List.Forall₂ Attribute.Rearranged [tabled, joined .left .right]
      rearrangedPosts.attributes := .cons (.same _) (.cons hjoin .nil)
  have hkey : List.Forall₂ Attribute.Rearranged
      [stored (.ofText "post") (.word "text"), keyed]
      [stored (.word "text") (.ofText "post"), keyed] :=
    .cons hcolumn (.cons (.same _) .nil)
  exact ⟨⟨_, .swap .., by decide, hown⟩, rfl, rfl, rfl,
    .named (.cons ⟨⟨_, .swap .., hkey⟩, rfl, rfl, rfl⟩ .nil)⟩

def postSource : String :=
  "#[join(Author, left = id, right = id)] #[table = \"posts\"] struct Post " ++
    "\x7b #[key] #[column(\"post\", text)] id: Code \x7d"

def rearrangedSource : String :=
  "#[table = \"posts\"] #[join(Author, right = id, left = id)] struct Post " ++
    "\x7b #[column(text, \"post\")] #[key] id: Code \x7d"

/-- Both sources are accepted, and they expand to the same. -/
theorem expand_rearranged_posts :
    Option.Rel Item.Rearranged (Item.ofSource? postSource) (Item.ofSource? rearrangedSource) ∧
      ∃ expansion, expand postSource = .ok expansion ∧ expand rearrangedSource = .ok expansion := by
  have hsource : Item.ofSource? postSource = some posts := by decide +kernel
  have hsource' : Item.ofSource? rearrangedSource = some rearrangedPosts := by decide +kernel
  have h : Option.Rel Item.Rearranged (Item.ofSource? postSource)
      (Item.ofSource? rearrangedSource) := by
    rw [hsource, hsource']
    exact .some rearranged_posts
  obtain ⟨r, hr⟩ : ∃ r, RecordSpec.ofItem posts = .ok r := by
    cases hr : RecordSpec.ofItem posts with
    | ok r => exact ⟨r, rfl⟩
    | error =>
      have hok : (RecordSpec.ofItem posts).isOk = true := by decide +kernel
      rw [hr] at hok
      cases hok
  have hexpand : expand postSource = .ok r.expansion :=
    map_eq_ok_iff.2 ⟨r, recordSpec_eq_ok_iff.2 ⟨posts, hsource, hr⟩, rfl⟩
  exact ⟨h, r.expansion, hexpand, (expand_rearranged h _).1 hexpand⟩

end RecordMapper.Derive
