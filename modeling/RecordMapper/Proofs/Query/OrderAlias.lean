import RecordMapper.Proofs.Query.Alias
import RecordMapper.Proofs.Query.Clauses
/-!
The column that a bare name in an order stands for. The engine takes it for an alias in the result
before it looks for a column of that name.
-/

namespace RecordMapper

open Text

namespace Sql

/-- The columns of a select list, each with its alias. -/
def SelectList.items : SelectList → List (String × String)
  | columns items => items
  | star _ | count | sum _ => []

def OrderKey.bareName? : OrderKey → Option String
  | column name => some name
  | vectorDistance .. => none

namespace Select

/-- The terms of the order that are just the name of a column. -/
def orderNames (s : Select) : List String :=
  (if s.list.isAggregate then [] else s.order).filterMap (·.key.bareName?)

/-- The column that an engine orders by at a bare name. -/
def orderColumn (s : Select) (name : String) : String :=
  ((s.list.items.find? fun item => sameName item.2 name).map Prod.fst).getD name

/-- No name in the order is the alias of another column. -/
def Uncaptured (s : Select) : Prop :=
  ∀ name ∈ s.orderNames, ∀ item ∈ s.list.items, lower item.2 = lower name → item.1 = name

theorem Uncaptured.orderColumn_eq {s : Select} (h : s.Uncaptured) {name : String}
    (hn : name ∈ s.orderNames) : s.orderColumn name = name := by
  rw [orderColumn]
  cases hf : s.list.items.find? fun item => sameName item.2 name with
  | none => rfl
  | some item =>
    have hsame := List.find?_some hf
    exact h name hn item (List.mem_of_find?_eq_some hf) (sameName_iff.1 hsame)

theorem Uncaptured.map_orderColumn {s : Select} (h : s.Uncaptured) :
    s.orderNames.map s.orderColumn = s.orderNames :=
  (List.map_congr_left fun _ hn => h.orderColumn_eq hn).trans (List.map_id _)

end Select

end Sql

open Sql

/-- The fields that a projection is made of, each under its label. -/
def Expr.labels (e : Expr) : List (String × String) :=
  match e.stripCasts with
  | field name => [(name, name)]
  | record fields => fields.filterMap fun (label, e) => e.stripCasts.fieldName?.map (label, ·)
  | _ => []

def Listing.labels : Listing → List (String × String)
  | fields projection => projection.labels
  | count | sum _ => []

namespace Query

/-- The fields in the result, each under its label. -/
def labels (q : Query) : List (String × String) := q.clauses.listing.elim [] Listing.labels

/-- The fields that order the result, other than by a distance. -/
def orderFields (q : Query) : List String :=
  q.clauses.order.filterMap fun t => t.1.stripCasts.fieldName?

end Query

variable {m : Mapping} {catalog : Catalog} {capability : Capability} {q : Query} {s : Select}

/-- Columns under aliases, for the labels of the fields that they stand for. -/
abbrev Mapping.Labels (m : Mapping) : List (String × String) → List (String × String) → Prop :=
  List.Forall₂ fun l item => m.columnName l.2 = .ok item.1 ∧ item.2 = l.1

namespace QueryPlan

theorem exists_field_of_projectedColumn {label : String} {e : Expr} {item : String × String}
    (h : projectedColumn m label e = .ok item) :
    ∃ field, e.stripCasts = .field field ∧ m.columnName field = .ok item.1 ∧ item.2 = label := by
  rw [projectedColumn] at h
  split at h
  next field he =>
    obtain ⟨column, hc, rfl⟩ := bind_pure_eq_ok_iff.1 h
    exact ⟨field, he, hc, rfl⟩
  next => cases h

theorem labels_of_items {fs : List (String × Expr)} {items : List (String × String)}
    (h : fs.mapM (fun (label, e) => projectedColumn m label e) = .ok items) :
    m.Labels (fs.filterMap fun (label, e) => e.stripCasts.fieldName?.map (label, ·)) items := by
  induction mapM_eq_ok_iff.1 h with
  | nil => exact .nil
  | cons he hes ih =>
    obtain ⟨field, hfield, hitem⟩ := exists_field_of_projectedColumn he
    simp only [List.filterMap_cons, hfield, Expr.fieldName?, Option.map_some]
    exact .cons hitem (ih (mapM_eq_ok_iff.2 hes))

theorem labels_of_projectedColumns {e : Expr} {items : List (String × String)}
    (h : projectedColumns m e = .ok items) : m.Labels e.labels items := by
  rw [projectedColumns] at h
  split at h
  next field he =>
    obtain ⟨column, hc, rfl⟩ := bind_pure_eq_ok_iff.1 h
    rw [Expr.labels, he]
    exact .cons ⟨hc, rfl⟩ .nil
  next fs he =>
    rw [Expr.labels, he]
    exact labels_of_items h
  next => cases h

/-- A key is a bare name when it is a field. -/
theorem bareName?_of_orderKey {key : Expr} {k : OrderKey}
    (h : orderKey capability m key = .ok k) :
    Option.Rel (fun field name => m.columnName field = .ok name) key.stripCasts.fieldName?
      k.bareName? := by
  rw [orderKey] at h
  split at h
  next field he =>
    obtain ⟨column, hc, rfl⟩ := bind_pure_eq_ok_iff.1 h
    rw [he]
    exact .some hc
  next operand vector he =>
    rw [he]
    split at h
    next => cases h
    next =>
      split at h
      next =>
        split at h
        next =>
          obtain ⟨column, hc, rfl⟩ := bind_pure_eq_ok_iff.1 h
          exact .none
        next => cases h
      next => cases h
  next => cases h

theorem resolves_orderNames {terms : List (Expr × Direction)} {order : List OrderTerm}
    (h : terms.mapM (Clauses.orderTerm capability m) = .ok order) :
    m.Resolves (terms.filterMap fun t => t.1.stripCasts.fieldName?)
      (order.filterMap (·.key.bareName?)) := by
  refine List.rel_filterMap (fun t o ht => ?_) (mapM_eq_ok_iff.1 h)
  obtain ⟨k, hk, rfl⟩ := bind_pure_eq_ok_iff.1 ht
  exact bareName?_of_orderKey hk

end QueryPlan

/-- The items of a select list are the labelled fields of its listing. -/
theorem Clauses.labels_selectList {joins : List JoinClause} {listing : Option Listing}
    {list : SelectList} (h : selectList m joins listing = .ok list) :
    m.Labels (listing.elim [] Listing.labels) list.items := by
  cases listing with
  | none =>
    cases h
    exact .nil
  | some l =>
    cases l with
    | fields e =>
      obtain ⟨items, hi, rfl⟩ := bind_pure_eq_ok_iff.1 h
      exact QueryPlan.labels_of_projectedColumns hi
    | count =>
      cases h
      exact .nil
    | sum e =>
      obtain ⟨_, _, rfl⟩ := bind_pure_eq_ok_iff.1 h
      exact .nil

namespace Query

theorem labels_items (hm : catalog.resolve q.source = .ok m)
    (h : q.toSelect catalog capability = .ok s) : m.Labels q.labels s.list.items := by
  obtain ⟨plan, rfl, hf, _, hs⟩ := follows hm h
  obtain ⟨_, _, rfl⟩ := bind_pure_eq_ok_iff.1 hs
  exact Clauses.labels_selectList hf.list

/-- The bare names in the order are the columns of the fields in it. -/
theorem resolves_orderFields (hm : catalog.resolve q.source = .ok m)
    (h : q.toSelect catalog capability = .ok s) : m.Resolves q.orderFields s.orderNames := by
  obtain ⟨plan, rfl, hf, _, hs⟩ := follows hm h
  obtain ⟨_, _, rfl⟩ := bind_pure_eq_ok_iff.1 hs
  exact QueryPlan.resolves_orderNames hf.order_clauses

/-- The names in the order are captured by no alias exactly when each label that names the column of
a field in the order stands for that column. Then all fields in the order order by their columns. -/
theorem uncaptured_iff {d : Declaration} (hd : d.build = .ok m)
    (hm : catalog.resolve q.source = .ok m) (h : q.toSelect catalog capability = .ok s) :
    (s.Uncaptured ↔ ∀ field ∈ q.orderFields, ∀ c, m.columnByField? field = some c →
      ∀ l ∈ q.labels, lower l.1 = lower c.name → m.columnByField? l.2 = some c) ∧
    (s.Uncaptured → m.Resolves q.orderFields (s.orderNames.map s.orderColumn)) := by
  have hlabels := labels_items hm h
  have horder := resolves_orderFields hm h
  refine ⟨⟨?_, ?_⟩, fun hu => hu.map_orderColumn.symm ▸ horder⟩
  · intro hu field hfield c hc l hl hname
    obtain ⟨name, hn, hcolumn⟩ := exists_mem_of_forall₂ horder.flip hfield
    obtain ⟨item, hitem, hsource, halias⟩ := exists_mem_of_forall₂ hlabels.flip hl
    obtain ⟨c₁, hc₁, rfl⟩ := Mapping.columnName_eq_ok_iff.1 hcolumn
    cases hc.symm.trans hc₁
    obtain ⟨c', hc', hsame⟩ := Mapping.columnName_eq_ok_iff.1 hsource
    -- The label's column has the name of the order's, and names of columns are distinct.
    have heq : c'.name = c.name := hsame.trans (hu _ hn item hitem (halias ▸ hname))
    have hdistinct := (Mapping.valid_of_build hd).names
    rw [hc', hdistinct.eq (List.mem_of_find?_eq_some hc') (List.mem_of_find?_eq_some hc)
      (congrArg lower heq)]
  · intro hall name hn item hitem hname
    obtain ⟨field, hfield, hcolumn⟩ := exists_mem_of_forall₂ horder hn
    obtain ⟨l, hl, hsource, halias⟩ := exists_mem_of_forall₂ hlabels hitem
    obtain ⟨c, hc, rfl⟩ := Mapping.columnName_eq_ok_iff.1 hcolumn
    have hc' := hall field hfield c hc l hl (halias ▸ hname)
    obtain ⟨_, hc'', hsame⟩ := Mapping.columnName_eq_ok_iff.1 hsource
    cases hc'.symm.trans hc''
    exact hsame.symm

end Query

/-- Entries with their titles as labels, in the order of their titles. -/
theorem uncaptured_titles :
    let title : Expr := .field "title"
    let q : Query := ⟨⟨"Entry", 0⟩, [.orderBy title .asc, .select (.record [("label", title)])]⟩
    ∃ s, q.toSelect glossary .full = .ok s ∧ s.Uncaptured ∧
      s.orderNames.map s.orderColumn = ["label"] := by
  intro title q
  obtain ⟨s, h⟩ : ∃ s, q.toSelect glossary .full = .ok s := ⟨_, rfl⟩
  have hd : entries.build = .ok entries.assemble := rfl
  obtain ⟨hiff, horder⟩ := Query.uncaptured_iff hd rfl h
  have hu : s.Uncaptured := by
    refine hiff.2 fun field hfield c hc l hl _ => ?_
    have hl : l ∈ [("label", "title")] := hl
    have hfield : field ∈ ["title"] := hfield
    rw [List.mem_singleton] at hl hfield
    rw [hl, ← hfield, hc]
  refine ⟨s, h, hu, ?_⟩
  rw [hu.map_orderColumn]
  cases h
  rfl

/-- The order by the title of an entry, whose column is named like the field in the result. -/
theorem title_captured_by_label :
    let q : Query := ⟨⟨"Entry", 0⟩, [.select (.field "label"), .orderBy (.field "title") .asc]⟩
    ∃ s, entries.build = .ok entries.assemble ∧
      glossary.resolve q.source = .ok entries.assemble ∧ q.toSelect glossary .full = .ok s ∧
      ¬s.Uncaptured ∧ s.orderNames = ["label"] ∧ s.orderColumn "label" = "note" := by
  refine ⟨_, rfl, rfl, rfl, ?_, rfl, rfl⟩
  intro hu
  have hsame := hu "label" (.head _) ("note", "label") (.head _) rfl
  revert hsame
  decide

end RecordMapper
