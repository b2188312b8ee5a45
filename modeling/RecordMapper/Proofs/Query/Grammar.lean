import RecordMapper.Proofs.Query.Parameters
import RecordMapper.Statement.Basic
/-!
The queries that have a statement. Their root and its joins lead to tables, and each operation is
one that can be written.
-/

namespace RecordMapper

open Sql

/-- A text that a pattern can be made of, or a number, a truth value or a time. -/
def Value.isScalar : Value → Bool
  | .text _ | .bool _ | .i64 _ | .u64 _ | .f32 _ | .f64 _ | .timestamp _ => true
  | .null | .bytes _ | .vector _ | .list _ => false

theorem Value.exists_patternText?_iff {v : Value} :
    (∃ s, v.patternText? = some s) ↔ v.isScalar = true := by
  cases v <;> simp [patternText?, isScalar]

namespace Mapping

/-- Some column is mapped from the field. -/
def Maps (m : Mapping) (field : String) : Prop := ∃ c ∈ m.columns, c.field = field

/-- A mapped field, under any number of casts. -/
def IsField (m : Mapping) (e : Expr) : Prop := ∃ name, e.stripCasts = .field name ∧ m.Maps name

/-- The left field has a column, and so has the right one in a record that has a table. -/
def Reaches (m : Mapping) (catalog : Catalog) (j : Join) : Prop :=
  m.Maps j.leftField ∧
    ∃ right, catalog.resolve j.right = .ok right ∧ right.table ≠ "" ∧ right.Maps j.rightField

variable {m : Mapping} {field : String}

theorem exists_columnByField?_iff : (∃ c, m.columnByField? field = some c) ↔ m.Maps field := by
  rw [← Option.isSome_iff_exists, columnByField?, List.find?_isSome]
  simp [Maps]

theorem exists_columnName_iff : (∃ column, m.columnName field = .ok column) ↔ m.Maps field := by
  rw [← exists_columnByField?_iff, columnName]
  cases m.columnByField? field <;> simp

end Mapping

/-- The predicates over the fields of a mapping that can be written. Function calls, records and
distances are none. -/
inductive Supported (m : Mapping) : Expr → Prop
  | field {name : String} (h : m.Maps name) : Supported m (.field name)
  | constant {v : Value} (h : v.isList = false) : Supported m (.constant v)
  | conj {l r : Expr} (hl : Supported m l) (hr : Supported m r) : Supported m (.conj l r)
  | disj {l r : Expr} (hl : Supported m l) (hr : Supported m r) : Supported m (.disj l r)
  | neg {e : Expr} (h : Supported m e) : Supported m (.neg e)
  | hasValue {e : Expr} (h : Supported m e) : Supported m (.hasValue e)
  | nullTest {negated : Bool} {e : Expr} (h : Supported m e) : Supported m (.nullTest negated e)
  | binary {op : Operator} {l r : Expr} (hop : op ≠ .rem) (hl : Supported m l)
      (hr : Supported m r) : Supported m (.binary op l r)
  | member {e list : Expr} {items : List Value} (h : Supported m e)
      (hs : list.stripCasts = .constant (.list items)) (hi : items ≠ []) :
      Supported m (.member e list)
  | pattern {kind : PatternKind} {e text : Expr} {v : Value} (h : m.IsField e)
      (hs : text.stripCasts = .constant v) (hv : v.isScalar = true) :
      Supported m (.pattern kind e text)
  | cast {e : Expr} {type : NativeType} (h : Supported m e) : Supported m (.cast e type)

namespace Expr

variable (m : Mapping) (e : Expr)

/-- A mapped field, or a record of mapped fields. -/
def Projects : Prop :=
  m.IsField e ∨ ∃ fields, e.stripCasts = .record fields ∧ ∀ f ∈ fields, m.IsField f.2

/-- A mapped field, or the distance between a mapped field and a vector if the engine finds
neighbours. -/
def Orders (capability : Capability) : Prop :=
  m.IsField e ∨ capability.vectorSearch = true ∧ ∃ operand vector items,
    e.stripCasts = .vectorDistance operand vector ∧ m.IsField operand ∧
      vector.stripCasts = .constant (.vector items)

/-- A constant row count. -/
def Counts : Prop :=
  (∃ n : IntOf .i64, e.stripCasts = .constant (.i64 n) ∧ 0 ≤ n.val) ∨
    ∃ n, e.stripCasts = .constant (.u64 n)

end Expr

/-- The operations that can be written. -/
def QueryOp.Admissible (capability : Capability) (m : Mapping) : QueryOp → Prop
  | filter p => Supported m p
  | select e => e.Projects m
  | orderBy key _ | thenBy key _ => key.Orders m capability
  | take n | skip n => n.Counts
  | count p | first p => ∀ e ∈ p, Supported m e
  | sum e => m.IsField e

/-- The root has a table, its joins lead to tables, and every operation can be written. -/
def Query.Admissible (catalog : Catalog) (capability : Capability) (q : Query) : Prop :=
  ∃ m, catalog.resolve q.source = .ok m ∧ m.table ≠ "" ∧ (∀ j ∈ m.joins, m.Reaches catalog j) ∧
    ∀ op ∈ q.ops, op.Admissible capability m

variable {m : Mapping} {catalog : Catalog} {capability : Capability}

/-! ### Predicates -/

theorem supported_cast_iff {e : Expr} {type : NativeType} :
    Supported m (.cast e type) ↔ Supported m e :=
  ⟨fun | .cast h => h, .cast⟩

theorem supported_stripCasts {e : Expr} : Supported m e.stripCasts ↔ Supported m e :=
  iff_of_eq (Expr.apply_stripCasts (fun _ _ => propext supported_cast_iff) e)

theorem supported_of_null {e : Expr} (h : e.stripCasts = .constant .null) : Supported m e := by
  rw [← supported_stripCasts, h]
  exact .constant rfl

theorem supported_of_lowers {e : Expr} {f : Filter} (h : Lowers m e f) : Supported m e := by
  have hcolumn {name column : String} (hc : m.columnName name = .ok column) : m.Maps name :=
    Mapping.exists_columnName_iff.1 ⟨column, hc⟩
  induction h with
  | conj _ _ ihl ihr => exact .conj ihl ihr
  | disj _ _ ihl ihr => exact .disj ihl ihr
  | neg _ ih => exact .neg ih
  | nullRight hs _ ih =>
    obtain ⟨hop, hr⟩ := Expr.testedSide?_spec hs
    exact .binary hop ih (supported_of_null hr)
  | nullLeft hs _ ih =>
    obtain ⟨hop, hl⟩ := Expr.testedSide?_spec hs
    exact .binary hop (supported_of_null hl) ih
  | binary _ hop _ _ ihl ihr => exact .binary hop ihl ihr
  | cast _ ih => exact .cast ih
  | field hc => exact .field (hcolumn hc)
  | hasValue _ ih => exact .hasValue ih
  | nullTest _ ih => exact .nullTest ih
  | member hs hi _ ih => exact .member ih hs hi
  | pattern hs ht hv hc =>
    exact .pattern ⟨_, hs, hcolumn hc⟩ ht (Value.exists_patternText?_iff.1 ⟨_, hv⟩)
  | null => exact .constant rfl
  | bound _ hl => exact .constant hl

theorem exists_lowers_of_supported {e : Expr} (h : Supported m e) : ∃ f, Lowers m e f := by
  induction h with
  | field h =>
    obtain ⟨column, hc⟩ := Mapping.exists_columnName_iff.2 h
    exact ⟨_, .field hc⟩
  | @constant v h =>
    cases v with
    | null => exact ⟨_, .null⟩
    | list => cases h
    | _ => exact ⟨_, .bound rfl rfl⟩
  | conj _ _ ihl ihr =>
    obtain ⟨l', hl⟩ := ihl
    obtain ⟨r', hr⟩ := ihr
    exact ⟨_, .conj hl hr⟩
  | disj _ _ ihl ihr =>
    obtain ⟨l', hl⟩ := ihl
    obtain ⟨r', hr⟩ := ihr
    exact ⟨_, .disj hl hr⟩
  | neg _ ih =>
    obtain ⟨f, hf⟩ := ih
    exact ⟨_, .neg hf⟩
  | hasValue _ ih =>
    obtain ⟨f, hf⟩ := ih
    exact ⟨_, .hasValue hf⟩
  | nullTest _ ih =>
    obtain ⟨f, hf⟩ := ih
    exact ⟨_, .nullTest hf⟩
  | @binary op l r hop _ _ ihl ihr =>
    obtain ⟨l', hl⟩ := ihl
    obtain ⟨r', hr⟩ := ihr
    cases hs : Expr.testedSide? op l r with
    | none => exact ⟨_, .binary hs hop hl hr⟩
    | some side =>
      cases side with
      | left => exact ⟨_, .nullRight hs hl⟩
      | right => exact ⟨_, .nullLeft hs hr⟩
  | member _ hs hi ih =>
    obtain ⟨f, hf⟩ := ih
    exact ⟨_, .member hs hi hf⟩
  | pattern h hs hv =>
    obtain ⟨name, he, hm⟩ := h
    obtain ⟨column, hc⟩ := Mapping.exists_columnName_iff.2 hm
    obtain ⟨s, ht⟩ := Value.exists_patternText?_iff.2 hv
    exact ⟨_, .pattern he hs ht hc⟩
  | cast _ ih =>
    obtain ⟨f, hf⟩ := ih
    exact ⟨f, .cast hf⟩

theorem exists_filter_iff {e : Expr} : (∃ f, e.toFilter m = .ok f) ↔ Supported m e :=
  ⟨fun ⟨_, h⟩ => supported_of_lowers (lowers_of_toFilter h), fun h =>
    (exists_lowers_of_supported h).imp fun _ => toFilter_of_lowers⟩

/-! ### Clauses -/

theorem Mapping.isField_iff {e : Expr} {name : String} (h : e.stripCasts = .field name) :
    m.IsField e ↔ m.Maps name := by
  simp [IsField, h]

theorem Mapping.not_isField {e : Expr} (h : ∀ name, e.stripCasts ≠ .field name) :
    ¬m.IsField e :=
  fun ⟨name, he, _⟩ => h name he

theorem Catalog.exists_joinTarget_iff {j : Join} {right : Mapping} :
    (∃ c, catalog.joinTarget j = .ok (right, c)) ↔
      catalog.resolve j.right = .ok right ∧ right.Maps j.rightField := by
  rw [← Mapping.exists_columnByField?_iff, joinTarget]
  cases catalog.resolve j.right with
  | error cause => simp
  | ok m =>
    dsimp only
    cases hc : m.columnByField? j.rightField with
    | none =>
      simp only [reduceCtorEq, exists_false, Except.ok.injEq, false_iff, not_and]
      rintro rfl ⟨c, h⟩
      cases hc.symm.trans h
    | some c =>
      simp only [Except.ok.injEq, Prod.mk.injEq, exists_and_left, exists_eq', and_true]
      exact ⟨fun h => ⟨h, c, h ▸ hc⟩, And.left⟩

theorem IntOf.exists_unsigned_iff {n : IntOf .i64} :
    (∃ k, IntOf.ofInt? .u64 n.val = some k) ↔ 0 ≤ n.val := by
  have hn := n.le_greatest
  rw [← not_iff_not, not_exists, ← Option.eq_none_iff_forall_ne_some, ofInt?_eq_none_iff]
  simp only [IntKind.least, IntKind.greatest] at hn ⊢
  omega

namespace QueryPlan

theorem planJoin_of_joinTarget {j : Join} {left c : Column} {right : Mapping}
    (hl : m.columnByField? j.leftField = some left) (hj : catalog.joinTarget j = .ok (right, c)) :
    planJoin catalog m j = if right.table.isEmpty then .error (.joinWithoutTable right.name)
      else .ok ⟨right.table, left.name, c.name⟩ := by
  rw [planJoin, hl, hj]
  dsimp only [Except.mapError]
  cases h : right.table.isEmpty with
  | true => simp [h, bind, Except.bind, throw, throwThe, MonadExceptOf.throw]
  | false => simp [h, bind, Except.bind, pure, Except.pure]

theorem exists_planJoin_iff {j : Join} :
    (∃ clause, planJoin catalog m j = .ok clause) ↔ m.Reaches catalog j := by
  rw [Mapping.Reaches, ← Mapping.exists_columnByField?_iff]
  constructor
  · rintro ⟨clause, h⟩
    obtain ⟨left, right, c, hl, hj, _⟩ := planJoin_eq_ok h
    obtain ⟨hr, hmaps⟩ := Catalog.exists_joinTarget_iff.1 ⟨c, hj⟩
    refine ⟨⟨left, hl⟩, right, hr, fun he => ?_, hmaps⟩
    rw [planJoin_of_joinTarget hl hj, he] at h
    cases h
  · rintro ⟨⟨left, hl⟩, right, hr, htable, hmaps⟩
    obtain ⟨c, hj⟩ := Catalog.exists_joinTarget_iff.2 ⟨hr, hmaps⟩
    rw [planJoin_of_joinTarget hl hj, if_neg (by simpa using htable)]
    exact ⟨_, rfl⟩

theorem exists_projectedColumn_iff {label : String} {e : Expr} :
    (∃ item, projectedColumn m label e = .ok item) ↔ m.IsField e := by
  rw [projectedColumn]
  split
  next name h =>
    rw [exists_bind_pure_iff, Mapping.exists_columnName_iff, Mapping.isField_iff h]
  next h => simp [Mapping.not_isField h]

theorem exists_projectedColumns_iff {e : Expr} :
    (∃ items, projectedColumns m e = .ok items) ↔ e.Projects m := by
  rw [projectedColumns, Expr.Projects]
  split
  next name h =>
    rw [exists_bind_pure_iff, Mapping.exists_columnName_iff, Mapping.isField_iff h]
    simp [h]
  next fields h =>
    have hfield : ¬m.IsField e := Mapping.not_isField (by simp [h])
    rw [exists_mapM_iff, or_iff_right hfield]
    simp only [h, Expr.record.injEq, exists_eq_left']
    exact forall₂_congr fun _ _ => exists_projectedColumn_iff
  next hfield hrecord =>
    have hfield : ¬m.IsField e := Mapping.not_isField hfield
    simp only [reduceCtorEq, exists_false, hfield, false_or, false_iff]
    rintro ⟨fields, h, _⟩
    exact hrecord fields h

theorem exists_orderKey_iff {key : Expr} :
    (∃ k, orderKey capability m key = .ok k) ↔ key.Orders m capability := by
  rw [orderKey, Expr.Orders]
  split
  next name h =>
    rw [exists_bind_pure_iff, Mapping.exists_columnName_iff, Mapping.isField_iff h]
    simp [h]
  next operand vector h =>
    have hfield : ¬m.IsField key := Mapping.not_isField (by simp [h])
    rw [or_iff_right hfield]
    simp only [h, Expr.vectorDistance.injEq, and_assoc, exists_and_left, exists_eq_left']
    cases capability.vectorSearch with
    | false => simp
    | true =>
      simp only [Bool.not_true, Bool.false_eq_true, if_false, true_and]
      split
      next name ho =>
        rw [Mapping.isField_iff ho]
        split
        next items hv =>
          rw [exists_bind_pure_iff, Mapping.exists_columnName_iff]
          simp [hv]
        next hv =>
          simp only [reduceCtorEq, exists_false, false_iff, not_and]
          rintro _ ⟨items, h⟩
          exact hv items h
      next ho => simp [Mapping.not_isField ho]
  next hfield hdistance =>
    have hfield : ¬m.IsField key := Mapping.not_isField hfield
    simp only [reduceCtorEq, exists_false, hfield, false_or, false_iff]
    rintro ⟨_, operand, vector, _, h, _⟩
    exact hdistance operand vector h

theorem exists_rowCount_iff {op : PageOp} {count : Expr} :
    (∃ n, rowCount op count = .ok n) ↔ count.Counts := by
  rw [rowCount, Expr.Counts]
  split
  next n h =>
    simp only [h, Expr.constant.injEq, Value.i64.injEq, reduceCtorEq, exists_false, or_false,
      exists_eq_left']
    rw [← IntOf.exists_unsigned_iff]
    cases IntOf.ofInt? .u64 n.val <;> simp
  next n h => simp [h]
  next hi hu =>
    simp only [reduceCtorEq, exists_false, false_iff, not_or, not_exists]
    exact ⟨fun n h => hi n h.1, hu⟩

theorem exists_sumColumn_iff {e : Expr} :
    (∃ column, sumColumn m e = .ok column) ↔ m.IsField e := by
  rw [sumColumn]
  split
  next name h => rw [Mapping.exists_columnName_iff, Mapping.isField_iff h]
  next h => simp [Mapping.not_isField h]

/-! ### Operations -/

theorem mapping_apply {plan plan' : QueryPlan} {op : QueryOp}
    (h : plan.apply capability op = .ok plan') : plan'.mapping = plan.mapping := by
  cases op with
  | filter p | count p | first p =>
    cases h
    rfl
  | select e | orderBy key direction | thenBy key direction | take count | skip count | sum e =>
    obtain ⟨_, _, rfl⟩ := bind_pure_eq_ok_iff.1 h
    rfl

/-- An operation can be written when it can be planned and its predicates become filters. -/
theorem admissible_iff {plan : QueryPlan} {op : QueryOp} :
    op.Admissible capability plan.mapping ↔
      (∃ plan', plan.apply capability op = .ok plan') ∧
        ∀ p ∈ op.predicates, Supported plan.mapping p := by
  cases op with
  | filter p => simp [QueryOp.Admissible, apply, QueryOp.predicates]
  | count p | first p => simp [QueryOp.Admissible, apply, QueryOp.predicates]
  | select e =>
    rw [apply, exists_bind_pure_iff, exists_projectedColumns_iff]
    simp [QueryOp.Admissible, QueryOp.predicates]
  | orderBy key direction | thenBy key direction =>
    rw [apply, exists_bind_pure_iff, exists_orderKey_iff]
    simp [QueryOp.Admissible, QueryOp.predicates]
  | take n | skip n =>
    rw [apply, exists_bind_pure_iff, exists_rowCount_iff]
    simp [QueryOp.Admissible, QueryOp.predicates]
  | sum e =>
    rw [apply, exists_bind_pure_iff, exists_sumColumn_iff]
    simp [QueryOp.Admissible, QueryOp.predicates]

theorem forall_admissible_iff {ops : List QueryOp} {plan : QueryPlan} :
    (∀ op ∈ ops, op.Admissible capability plan.mapping) ↔
      (∃ plan', ops.foldlM (apply capability) plan = .ok plan') ∧
        ∀ p ∈ ops.flatMap QueryOp.predicates, Supported plan.mapping p := by
  induction ops generalizing plan with
  | nil => simp [pure, Except.pure]
  | cons op ops ih =>
    rw [List.forall_mem_cons, List.flatMap_cons, List.forall_mem_append, admissible_iff,
      List.foldlM_cons]
    constructor
    · rintro ⟨⟨⟨plan', h⟩, hp⟩, hops⟩
      rw [← mapping_apply h, ih, mapping_apply h] at hops
      obtain ⟨⟨last, hlast⟩, hps⟩ := hops
      exact ⟨⟨last, bind_eq_ok_iff.2 ⟨plan', h, hlast⟩⟩, hp, hps⟩
    · rintro ⟨⟨last, hlast⟩, hp, hps⟩
      obtain ⟨plan', h, hlast⟩ := bind_eq_ok_iff.1 hlast
      refine ⟨⟨⟨plan', h⟩, hp⟩, ?_⟩
      rw [← mapping_apply h] at hps ⊢
      exact ih.2 ⟨⟨last, hlast⟩, hps⟩

theorem mapping_foldlM {ops : List QueryOp} {plan plan' : QueryPlan}
    (h : ops.foldlM (apply capability) plan = .ok plan') : plan'.mapping = plan.mapping := by
  induction ops generalizing plan with
  | nil =>
    cases pure_eq_ok_iff.1 h
    rfl
  | cons op ops ih =>
    rw [List.foldlM_cons] at h
    obtain ⟨plan₁, h₁, h₂⟩ := bind_eq_ok_iff.1 h
    rw [ih h₂, mapping_apply h₁]

theorem exists_toSelect_iff {plan : QueryPlan} :
    (∃ s, plan.toSelect = .ok s) ↔ ∀ p ∈ plan.filters, Supported plan.mapping p := by
  rw [toSelect, exists_bind_pure_iff, exists_mapM_iff]
  exact forall₂_congr fun _ _ => exists_filter_iff

theorem ofQuery_of_resolve {q : Query} (hm : catalog.resolve q.source = .ok m)
    (ht : m.table ≠ "") :
    ofQuery catalog capability q = m.joins.mapM (planJoin catalog m) >>= fun joins =>
      q.ops.foldlM (apply capability) { mapping := m, joins } := by
  have hempty : ¬m.table.isEmpty = true := by simpa using ht
  rw [ofQuery, hm]
  simp only [pure_bind, hempty, Bool.false_eq_true, if_false]

theorem table_ne_of_ofQuery {q : Query} {plan : QueryPlan} (hm : catalog.resolve q.source = .ok m)
    (h : ofQuery catalog capability q = .ok plan) : m.table ≠ "" := by
  intro ht
  rw [ofQuery, hm] at h
  simp only [pure_bind, ht] at h
  cases h

end QueryPlan

/-- A query has a statement exactly if it is admissible. -/
theorem Query.exists_serialize_iff {q : Query} {given : List Value} :
    (∃ out, (Statement.query q).serialize catalog capability given = .ok out) ↔
      q.Admissible catalog capability := by
  have hselect : (∃ out, (Statement.query q).serialize catalog capability given = .ok out) ↔
      ∃ s, q.toSelect catalog capability = .ok s := by
    rw [Statement.serialize, exists_bind_pure_iff, Statement.fragments]
    cases q.toSelect catalog capability <;> simp
  rw [hselect, Admissible]
  constructor
  · rintro ⟨s, h⟩
    obtain ⟨m, hm⟩ := exists_root_of_toSelect h
    obtain ⟨plan, hp, hs⟩ := bind_eq_ok_iff.1 h
    have ht := QueryPlan.table_ne_of_ofQuery hm hp
    obtain ⟨joins, hj, hops⟩ := exists_joins_of_ofQuery hm hp
    have hreach := exists_mapM_iff.1 ⟨joins, hj⟩
    have hfilters := QueryPlan.exists_toSelect_iff.1 ⟨s, hs⟩
    rw [QueryPlan.filters_foldlM hops, QueryPlan.mapping_foldlM hops, List.nil_append] at hfilters
    refine ⟨m, hm, ht, fun j hj => QueryPlan.exists_planJoin_iff.1 (hreach j hj), ?_⟩
    exact QueryPlan.forall_admissible_iff.2 ⟨⟨plan, hops⟩, hfilters⟩
  · rintro ⟨m, hm, ht, hreach, hops⟩
    have hplanned := fun j hj => QueryPlan.exists_planJoin_iff.2 (hreach j hj)
    obtain ⟨joins, hj⟩ := exists_mapM_iff.2 hplanned
    let start : QueryPlan := { mapping := m, joins }
    have hstart : ∀ op ∈ q.ops, op.Admissible capability start.mapping := hops
    obtain ⟨⟨plan, hplan⟩, hp⟩ := QueryPlan.forall_admissible_iff.1 hstart
    have hfilters : ∀ p ∈ plan.filters, Supported plan.mapping p := by
      rw [QueryPlan.filters_foldlM hplan, QueryPlan.mapping_foldlM hplan]
      exact hp
    obtain ⟨s, hs⟩ := QueryPlan.exists_toSelect_iff.2 hfilters
    refine ⟨s, bind_eq_ok_iff.2 ⟨plan, ?_, hs⟩⟩
    rw [QueryPlan.ofQuery_of_resolve hm ht]
    exact bind_eq_ok_iff.2 ⟨joins, hj, hplan⟩

end RecordMapper
