import Mathlib.Data.List.DropRight
import RecordMapper.Proofs.Query.Grammar
import RecordMapper.Proofs.Sql.Layout
import RecordMapper.Proofs.Statement.Parameters
/-!
The clauses of a query, read off its chain of operations. The statement of a query is made of its
clauses alone, so operations that feed different clauses can change places.
-/

namespace RecordMapper

open Sql

/-- What the rows of a result are, unless they are the rows of the tables. -/
inductive Listing
  | fields (projection : Expr)
  | count
  | sum (selector : Expr)

def Listing.isAggregate : Listing → Bool
  | fields _ => false
  | count | sum _ => true

inductive Clause
  | condition | list | order | limit | offset

def Expr.rowCount? (e : Expr) : Option Int :=
  match e.stripCasts with
  | .constant (.i64 n) => some n.val
  | .constant (.u64 n) => some n.val
  | _ => none

namespace QueryOp

def listing? : QueryOp → Option Listing
  | select e => some (.fields e)
  | count _ => some .count
  | sum e => some (.sum e)
  | _ => none

def startsOrder : QueryOp → Bool
  | orderBy .. => true
  | _ => false

def term? : QueryOp → Option (Expr × Direction)
  | orderBy key direction | thenBy key direction => some (key, direction)
  | _ => none

def limit? : QueryOp → Option Int
  | take n => n.rowCount?
  | first _ => some 1
  | _ => none

def offset? : QueryOp → Option Int
  | skip n => n.rowCount?
  | _ => none

/-- The operation has a part in the clause. A count or a first row feeds two. -/
def feeds : Clause → QueryOp → Bool
  | .condition, op => !op.predicates.isEmpty
  | .list, select _ | .list, count _ | .list, sum _ => true
  | .order, orderBy .. | .order, thenBy .. => true
  | .limit, take _ | .limit, first _ => true
  | .offset, skip _ => true
  | _, _ => false

end QueryOp

/-- The terms of the operation that starts the order last, if one does, and of those after it. -/
def orderTerms (ops : List QueryOp) : List (Expr × Direction) :=
  ((ops.rdropWhile (!·.startsOrder)).getLast?.toList ++
    ops.rtakeWhile (!·.startsOrder)).filterMap QueryOp.term?

structure Clauses where
  predicates : List Expr
  listing : Option Listing
  order : List (Expr × Direction)
  limit : Option Int
  offset : Option Int

/-- All predicates count, and else the last word on each clause. The one row of an aggregate is
neither ordered nor paged, and to skip no row is to skip nothing. -/
def Clauses.ofOps (ops : List QueryOp) : Clauses :=
  let listing := (ops.filterMap QueryOp.listing?).getLast?
  let single := listing.any Listing.isAggregate
  { predicates := ops.flatMap QueryOp.predicates
    listing
    order := if single then [] else orderTerms ops
    limit := if single then none else (ops.filterMap QueryOp.limit?).getLast?
    offset := if single then none else (ops.filterMap QueryOp.offset?).getLast?.filter (0 < ·) }

def Query.clauses (q : Query) : Clauses := .ofOps q.ops

namespace Clauses

/-- The select list of a listing, which is all columns of the tables when there is none. -/
def selectList (m : Mapping) (joins : List JoinClause) :
    Option Listing → Except QueryFault SelectList
  | none => .ok (.star (m.table :: joins.map JoinClause.table))
  | some (.fields e) => do return .columns (← QueryPlan.projectedColumns m e)
  | some .count => .ok .count
  | some (.sum e) => do return .sum (← QueryPlan.sumColumn m e)

def orderTerm (capability : Capability) (m : Mapping) (t : Expr × Direction) :
    Except QueryFault OrderTerm := do
  return ⟨← QueryPlan.orderKey capability m t.1, t.2⟩

/-- An offset alone stands after the limit that means none. -/
def pageText (limit offset : Option Int) : String :=
  (limit.or (offset.map fun _ => -1)).elim "" (" LIMIT " ++ Numeral.ofInt ·) ++
    offset.elim "" (" OFFSET " ++ Numeral.ofInt ·)

def orderText (order : List OrderTerm) : String :=
  if order.isEmpty then "" else " ORDER BY " ++ ", ".intercalate (order.map OrderTerm.text)

def whereText (filters : List Filter) : String :=
  if filters.isEmpty then ""
  else " WHERE " ++ " AND ".intercalate (filters.map fun f => textOf f.fragments)

/-- The statement of the clauses, over the table of a record and those that it is joined to. -/
def serialize (catalog : Catalog) (capability : Capability) (m : Mapping) (given : List Value)
    (c : Clauses) : Except QueryFault Statement.Serialized := do
  let joins ← m.joins.mapM (QueryPlan.planJoin catalog m)
  let list ← selectList m joins c.listing
  let filters ← c.predicates.mapM (Expr.toFilter m)
  let order ← c.order.mapM (orderTerm capability m)
  return {
    text := "SELECT " ++ list.text ++ " FROM " ++ m.table ++
      String.join (joins.map (JoinClause.text m.table)) ++ whereText filters ++ orderText order ++
      pageText c.limit c.offset ++ ";"
    params := given ++ filters.flatMap fun f => paramsOf f.fragments }

end Clauses

variable {m : Mapping} {catalog : Catalog} {capability : Capability} {q : Query}

/-! ### Chains of operations -/

theorem getLast?_filterMap_concat {α β : Type} (f : α → Option β) (l : List α) (a : α) :
    ((l ++ [a]).filterMap f).getLast? = (f a).or (l.filterMap f).getLast? := by
  rw [List.filterMap_append]
  cases h : f a <;> simp [h]

theorem orderTerms_concat_of_starts {op : QueryOp} (h : op.startsOrder = true)
    (ops : List QueryOp) : orderTerms (ops ++ [op]) = op.term?.toList := by
  have hp : ¬(!op.startsOrder) = true := by simp [h]
  rw [orderTerms, List.rdropWhile_concat_neg (!·.startsOrder) ops op hp,
    List.rtakeWhile_concat_neg (!·.startsOrder) ops op hp, List.getLast?_concat]
  cases ht : op.term? <;> simp [ht]

theorem orderTerms_concat {op : QueryOp} (h : op.startsOrder = false) (ops : List QueryOp) :
    orderTerms (ops ++ [op]) = orderTerms ops ++ op.term?.toList := by
  have hp : (!op.startsOrder) = true := by simp [h]
  rw [orderTerms, List.rdropWhile_concat_pos (!·.startsOrder) ops op hp,
    List.rtakeWhile_concat_pos (!·.startsOrder) ops op hp, ← List.append_assoc,
    List.filterMap_append, orderTerms]
  cases ht : op.term? <;> simp [ht]

namespace QueryPlan

/-- The plan has what the operations say about each clause. -/
structure Follows (capability : Capability) (ops : List QueryOp) (plan : QueryPlan) : Prop where
  filters : plan.filters = ops.flatMap QueryOp.predicates
  list : Clauses.selectList plan.mapping plan.joins (ops.filterMap QueryOp.listing?).getLast? =
    .ok plan.selectList
  order : (orderTerms ops).mapM (Clauses.orderTerm capability plan.mapping) = .ok plan.order
  limit : plan.limit.map IntOf.val = (ops.filterMap QueryOp.limit?).getLast?
  offset : plan.offset.map IntOf.val =
    (ops.filterMap QueryOp.offset?).getLast?.filter (0 < ·)

theorem rowCount?_of_rowCount {op : PageOp} {count : Expr} {n : IntOf .u64}
    (h : rowCount op count = .ok n) : count.rowCount? = some n.val := by
  rw [rowCount] at h
  split at h
  next k hk =>
    rw [Expr.rowCount?, hk]
    split at h
    next n' hn =>
      cases h
      exact congrArg some (IntOf.val_of_ofInt? hn).symm
    next => cases h
  next k hk =>
    cases h
    rw [Expr.rowCount?, hk]
  next => cases h

theorem Follows.start (joins : List JoinClause) :
    Follows capability [] { mapping := m, joins } :=
  ⟨rfl, rfl, rfl, rfl, rfl⟩

variable {ops : List QueryOp} {plan plan' : QueryPlan} {op : QueryOp}

theorem list_apply (h : plan.apply capability op = .ok plan')
    (hl : Clauses.selectList plan.mapping plan.joins (ops.filterMap QueryOp.listing?).getLast? =
      .ok plan.selectList) :
    Clauses.selectList plan'.mapping plan'.joins
      ((ops ++ [op]).filterMap QueryOp.listing?).getLast? = .ok plan'.selectList := by
  rw [getLast?_filterMap_concat]
  cases op with
  | filter p | first p =>
    cases h
    exact hl
  | orderBy key direction | thenBy key direction | take n | skip n =>
    obtain ⟨_, _, rfl⟩ := bind_pure_eq_ok_iff.1 h
    exact hl
  | count p =>
    cases h
    rfl
  | select e | sum e =>
    obtain ⟨x, hx, rfl⟩ := bind_pure_eq_ok_iff.1 h
    rw [QueryOp.listing?, Option.some_or, Clauses.selectList, hx]
    rfl

theorem order_apply (h : plan.apply capability op = .ok plan')
    (ho : (orderTerms ops).mapM (Clauses.orderTerm capability plan.mapping) = .ok plan.order) :
    (orderTerms (ops ++ [op])).mapM (Clauses.orderTerm capability plan'.mapping) =
      .ok plan'.order := by
  cases op with
  | filter p | first p | count p =>
    cases h
    rw [orderTerms_concat rfl]
    simpa [QueryOp.term?] using ho
  | select e | sum e | take n | skip n =>
    obtain ⟨_, _, rfl⟩ := bind_pure_eq_ok_iff.1 h
    rw [orderTerms_concat rfl]
    simpa [QueryOp.term?] using ho
  | orderBy key direction =>
    obtain ⟨k, hk, rfl⟩ := bind_pure_eq_ok_iff.1 h
    rw [orderTerms_concat_of_starts rfl]
    exact mapM_eq_ok_iff.2 (.cons (bind_pure_eq_ok_iff.2 ⟨k, hk, rfl⟩) .nil)
  | thenBy key direction =>
    obtain ⟨k, hk, rfl⟩ := bind_pure_eq_ok_iff.1 h
    rw [orderTerms_concat rfl]
    have hterm : List.Forall₂ (fun t o => Clauses.orderTerm capability plan.mapping t = .ok o)
        [(key, direction)] [⟨k, direction⟩] :=
      .cons (bind_pure_eq_ok_iff.2 ⟨k, hk, rfl⟩) .nil
    exact mapM_eq_ok_iff.2 (List.rel_append (mapM_eq_ok_iff.1 ho) hterm)

theorem limit_apply (h : plan.apply capability op = .ok plan')
    (hl : plan.limit.map IntOf.val = (ops.filterMap QueryOp.limit?).getLast?) :
    plan'.limit.map IntOf.val = ((ops ++ [op]).filterMap QueryOp.limit?).getLast? := by
  rw [getLast?_filterMap_concat]
  cases op with
  | filter p | count p =>
    cases h
    exact hl
  | select e | orderBy key direction | thenBy key direction | skip n | sum e =>
    obtain ⟨_, _, rfl⟩ := bind_pure_eq_ok_iff.1 h
    exact hl
  | take n =>
    obtain ⟨k, hk, rfl⟩ := bind_pure_eq_ok_iff.1 h
    rw [QueryOp.limit?, rowCount?_of_rowCount hk]
    rfl
  | first p =>
    cases h
    rfl

theorem offset_apply (h : plan.apply capability op = .ok plan')
    (ho : plan.offset.map IntOf.val = (ops.filterMap QueryOp.offset?).getLast?.filter (0 < ·)) :
    plan'.offset.map IntOf.val =
      ((ops ++ [op]).filterMap QueryOp.offset?).getLast?.filter (0 < ·) := by
  rw [getLast?_filterMap_concat]
  cases op with
  | filter p | count p | first p =>
    cases h
    exact ho
  | select e | orderBy key direction | thenBy key direction | take n | sum e =>
    obtain ⟨_, _, rfl⟩ := bind_pure_eq_ok_iff.1 h
    exact ho
  | skip n =>
    obtain ⟨k, hk, rfl⟩ := bind_pure_eq_ok_iff.1 h
    rw [QueryOp.offset?, rowCount?_of_rowCount hk, Option.some_or]
    by_cases hpos : 0 < k.val <;> simp [Option.filter, hpos]

theorem Follows.apply (hf : plan.Follows capability ops)
    (h : plan.apply capability op = .ok plan') : plan'.Follows capability (ops ++ [op]) where
  filters := by rw [filters_apply h, hf.filters, List.flatMap_append, List.flatMap_singleton]
  list := list_apply h hf.list
  order := order_apply h hf.order
  limit := limit_apply h hf.limit
  offset := offset_apply h hf.offset

theorem Follows.foldlM {rest : List QueryOp} (hf : plan.Follows capability ops)
    (h : rest.foldlM (QueryPlan.apply capability) plan = .ok plan') :
    plan'.Follows capability (ops ++ rest) := by
  induction rest generalizing ops plan with
  | nil =>
    cases pure_eq_ok_iff.1 h
    rwa [List.append_nil]
  | cons op rest ih =>
    rw [List.foldlM_cons] at h
    obtain ⟨plan₁, h₁, h₂⟩ := bind_eq_ok_iff.1 h
    have hrest := ih (hf.apply h₁) h₂
    rwa [List.append_assoc, List.singleton_append] at hrest

end QueryPlan

/-- What a query that compiles selects agrees with its clauses. -/
theorem Query.follows {s : Select} (hm : catalog.resolve q.source = .ok m)
    (h : q.toSelect catalog capability = .ok s) :
    ∃ plan : QueryPlan, plan.mapping = m ∧ plan.Follows capability q.ops ∧
      m.joins.mapM (QueryPlan.planJoin catalog m) = .ok plan.joins ∧ plan.toSelect = .ok s := by
  obtain ⟨plan, hp, hs⟩ := bind_eq_ok_iff.1 h
  obtain ⟨joins, hj, hops⟩ := exists_joins_of_ofQuery hm hp
  have hf := (QueryPlan.Follows.start joins).foldlM hops
  have hstart : QueryPlan.Agrees m {} { mapping := m, joins } := ⟨rfl, .nil, rfl, .nil, rfl⟩
  obtain ⟨_, hjoins⟩ := hstart.foldlM hops
  refine ⟨plan, QueryPlan.mapping_foldlM hops, hf, ?_, hs⟩
  rw [hjoins]
  exact hj

namespace Clauses

theorem isAggregate_selectList {joins : List JoinClause} {listing : Option Listing}
    {list : SelectList} (h : selectList m joins listing = .ok list) :
    list.isAggregate = listing.any Listing.isAggregate := by
  cases listing with
  | none =>
    cases h
    rfl
  | some l =>
    cases l with
    | count =>
      cases h
      rfl
    | fields e | sum e =>
      obtain ⟨_, _, rfl⟩ := bind_pure_eq_ok_iff.1 h
      rfl

theorem textOf_whereClause (s : Select) : textOf s.whereClause = whereText s.filters := by
  rw [Select.whereClause, whereText]
  split
  · rfl
  · rw [textOf_cons, textOf_intersperse, List.map_map]
    rfl

theorem pageClause_eq (s : Select) :
    s.pageClause = pageText (s.limit.map IntOf.val) (s.offset.map IntOf.val) := by
  have hnone : " LIMIT " ++ Numeral.ofInt (-1) = " LIMIT -1" := by decide
  rw [Select.pageClause, pageText]
  cases s.limit <;> cases s.offset <;> simp [hnone]

/-- The text of a select statement, clause by clause. -/
theorem textOf_select (s : Select) :
    textOf s.fragments = "SELECT " ++ s.list.text ++ " FROM " ++ s.table ++
      String.join (s.joins.map (JoinClause.text s.table)) ++ whereText s.filters ++
      if s.list.isAggregate then ""
      else orderText s.order ++ pageText (s.limit.map IntOf.val) (s.offset.map IntOf.val) := by
  have htail : textOf (if s.list.isAggregate then [] else [.text (s.orderClause ++ s.pageClause)]) =
      if s.list.isAggregate then ""
      else orderText s.order ++ pageText (s.limit.map IntOf.val) (s.offset.map IntOf.val) := by
    split
    · rfl
    · rw [textOf_text, pageClause_eq]
      rfl
  rw [Select.fragments, textOf_append, textOf_cons, textOf_whereClause, htail]
  rfl

end Clauses

namespace QueryPlan.Follows

variable {ops : List QueryOp} {plan : QueryPlan}

theorem order_clauses (hf : plan.Follows capability ops) :
    (Clauses.ofOps ops).order.mapM (Clauses.orderTerm capability plan.mapping) =
      .ok (if plan.selectList.isAggregate then [] else plan.order) := by
  rw [Clauses.ofOps, Clauses.isAggregate_selectList hf.list]
  dsimp only
  split
  · rfl
  · exact hf.order

theorem limit_clauses (hf : plan.Follows capability ops) : (Clauses.ofOps ops).limit =
    if plan.selectList.isAggregate then none else plan.limit.map IntOf.val := by
  rw [Clauses.isAggregate_selectList hf.list, hf.limit, Clauses.ofOps]

theorem offset_clauses (hf : plan.Follows capability ops) : (Clauses.ofOps ops).offset =
    if plan.selectList.isAggregate then none else plan.offset.map IntOf.val := by
  rw [Clauses.isAggregate_selectList hf.list, hf.offset, Clauses.ofOps]

end QueryPlan.Follows

/-- A query that compiles has the statement of its clauses. -/
theorem Query.serialize_of_toSelect {s : Select} (hm : catalog.resolve q.source = .ok m)
    (h : q.toSelect catalog capability = .ok s) (given : List Value) :
    q.clauses.serialize catalog capability m given =
      .ok ⟨textOf s.fragments ++ ";", given ++ paramsOf s.fragments⟩ := by
  obtain ⟨plan, rfl, hf, hj, hs⟩ := follows hm h
  obtain ⟨filters, hfilters, rfl⟩ := bind_pure_eq_ok_iff.1 hs
  rw [hf.filters] at hfilters
  refine bind_eq_ok_iff.2 ⟨plan.joins, hj, bind_eq_ok_iff.2 ⟨plan.selectList, hf.list,
    bind_eq_ok_iff.2 ⟨filters, hfilters, bind_pure_eq_ok_iff.2 ⟨_, hf.order_clauses, ?_⟩⟩⟩⟩
  rw [Select.paramsOf_fragments, Clauses.textOf_select, clauses, hf.limit_clauses,
    hf.offset_clauses]
  cases plan.selectList.isAggregate <;>
    simp [Clauses.orderText, Clauses.pageText, String.append_assoc]

/-! ### Queries with the same clauses -/

theorem filterMap_filter_of_none {α β : Type} {f : α → Option β} {p : α → Bool}
    (h : ∀ a, p a = false → f a = none) (l : List α) :
    (l.filter p).filterMap f = l.filterMap f := by
  rw [List.filterMap_filter]
  refine List.filterMap_congr fun a _ => ?_
  cases hp : p a with
  | true => rfl
  | false => exact (h a hp).symm

theorem flatMap_predicates_filter (ops : List QueryOp) :
    (ops.filter (·.feeds .condition)).flatMap QueryOp.predicates =
      ops.flatMap QueryOp.predicates := by
  induction ops with
  | nil => rfl
  | cons op ops ih =>
    rw [List.filter_cons, List.flatMap_cons, ← ih]
    cases h : op.predicates <;> simp [QueryOp.feeds, h]

theorem orderTerms_filter (ops : List QueryOp) :
    orderTerms (ops.filter (·.feeds .order)) = orderTerms ops := by
  induction ops using List.reverseRecOn with
  | nil => rfl
  | append_singleton ops op ih =>
    rw [List.filter_append]
    cases op with
    | orderBy key direction =>
      rw [orderTerms_concat_of_starts rfl]
      exact orderTerms_concat_of_starts rfl _
    | thenBy key direction =>
      rw [orderTerms_concat rfl, ← ih]
      exact orderTerms_concat rfl _
    | filter | select | take | skip | count | sum | first =>
      rw [orderTerms_concat rfl, ← ih]
      simp [QueryOp.feeds, QueryOp.term?]

/-- Operations that feed different clauses can change places. -/
theorem Clauses.ofOps_congr {ops ops' : List QueryOp}
    (h : ∀ k, ops'.filter (·.feeds k) = ops.filter (·.feeds k)) : ofOps ops' = ofOps ops := by
  have hpredicates : ops'.flatMap QueryOp.predicates = ops.flatMap QueryOp.predicates := by
    rw [← flatMap_predicates_filter ops', h, flatMap_predicates_filter]
  have horder : orderTerms ops' = orderTerms ops := by
    rw [← orderTerms_filter ops', h, orderTerms_filter]
  have hlast {β : Type} {f : QueryOp → Option β} {k : Clause}
      (hf : ∀ op : QueryOp, op.feeds k = false → f op = none) :
      ops'.filterMap f = ops.filterMap f := by
    rw [← filterMap_filter_of_none hf ops', h, filterMap_filter_of_none hf]
  have hlisting : ops'.filterMap QueryOp.listing? = ops.filterMap QueryOp.listing? :=
    hlast (k := .list) fun op => by cases op <;> simp [QueryOp.feeds, QueryOp.listing?]
  have hlimit : ops'.filterMap QueryOp.limit? = ops.filterMap QueryOp.limit? :=
    hlast (k := .limit) fun op => by cases op <;> simp [QueryOp.feeds, QueryOp.limit?]
  have hoffset : ops'.filterMap QueryOp.offset? = ops.filterMap QueryOp.offset? :=
    hlast (k := .offset) fun op => by cases op <;> simp [QueryOp.feeds, QueryOp.offset?]
  rw [ofOps, ofOps, hpredicates, horder, hlisting, hlimit, hoffset]

theorem QueryOp.exists_feeds (op : QueryOp) : ∃ k, op.feeds k = true := by
  cases op with
  | filter p => exact ⟨.condition, rfl⟩
  | select e | count p | sum e => exact ⟨.list, rfl⟩
  | orderBy key direction | thenBy key direction => exact ⟨.order, rfl⟩
  | take n | first p => exact ⟨.limit, rfl⟩
  | skip n => exact ⟨.offset, rfl⟩

/-- A query compiles when all its operations are those of one that does. -/
theorem Query.exists_toSelect_of_subset {q' : Query} {s : Select} (hs : q'.source = q.source)
    (hops : ∀ op ∈ q'.ops, op ∈ q.ops) (h : q.toSelect catalog capability = .ok s) :
    ∃ s', q'.toSelect catalog capability = .ok s' := by
  obtain ⟨m, hm⟩ := exists_root_of_toSelect h
  obtain ⟨plan, hp, hselect⟩ := bind_eq_ok_iff.1 h
  obtain ⟨joins, hj, hrun⟩ := exists_joins_of_ofQuery hm hp
  have hfilters := QueryPlan.exists_toSelect_iff.1 ⟨s, hselect⟩
  rw [QueryPlan.filters_foldlM hrun, QueryPlan.mapping_foldlM hrun, List.nil_append] at hfilters
  let start : QueryPlan := { mapping := m, joins }
  have hall : ∀ op ∈ q.ops, op.Admissible capability start.mapping :=
    QueryPlan.forall_admissible_iff.2 ⟨⟨plan, hrun⟩, hfilters⟩
  obtain ⟨⟨plan', hrun'⟩, hfilters'⟩ :=
    QueryPlan.forall_admissible_iff.1 fun op hop => hall op (hops op hop)
  have hsupported : ∀ p ∈ plan'.filters, Supported plan'.mapping p := by
    rw [QueryPlan.filters_foldlM hrun', QueryPlan.mapping_foldlM hrun']
    exact hfilters'
  obtain ⟨s', hs'⟩ := QueryPlan.exists_toSelect_iff.2 hsupported
  refine ⟨s', bind_eq_ok_iff.2 ⟨plan', ?_, hs'⟩⟩
  rw [QueryPlan.ofQuery_of_resolve (hs ▸ hm) (QueryPlan.table_ne_of_ofQuery hm hp)]
  exact bind_eq_ok_iff.2 ⟨joins, hj, hrun'⟩

theorem Statement.serialize_query_eq_ok {given : List Value} {out : Statement.Serialized}
    (h : (Statement.query q).serialize catalog capability given = .ok out) :
    ∃ s, q.toSelect catalog capability = .ok s ∧
      out = ⟨textOf s.fragments ++ ";", given ++ paramsOf s.fragments⟩ := by
  obtain ⟨fs, hfs, rfl⟩ := bind_pure_eq_ok_iff.1 h
  rw [Statement.fragments] at hfs
  split at hfs
  next s hs =>
    cases hfs
    refine ⟨s, hs, ?_⟩
    rw [Statement.foldl_write, String.empty_append]
  next => cases hfs

/-- A query that compiles has the statement of its clauses. So has every query that compiles and has
the same clauses, and every chain of the same operations compiles in which those that feed one
clause keep their order. -/
theorem Query.serialize_clauses {given : List Value} {out : Statement.Serialized}
    (h : (Statement.query q).serialize catalog capability given = .ok out) :
    (∃ m, catalog.resolve q.source = .ok m ∧
      q.clauses.serialize catalog capability m given = .ok out) ∧
    ∀ q' : Query, q'.source = q.source →
      (∀ out', (Statement.query q').serialize catalog capability given = .ok out' →
        q'.clauses = q.clauses → out' = out) ∧
      ((∀ k, q'.ops.filter (·.feeds k) = q.ops.filter (·.feeds k)) →
        (Statement.query q').serialize catalog capability given = .ok out) := by
  obtain ⟨s, hs, hout⟩ := Statement.serialize_query_eq_ok h
  obtain ⟨m, hm⟩ := exists_root_of_toSelect hs
  have hclauses := serialize_of_toSelect hm hs given
  rw [← hout] at hclauses
  have hsame {q' : Query} {out' : Statement.Serialized} (hq : q'.source = q.source)
      (h' : (Statement.query q').serialize catalog capability given = .ok out')
      (hc : q'.clauses = q.clauses) : out' = out := by
    obtain ⟨s', hs', hout'⟩ := Statement.serialize_query_eq_ok h'
    have hclauses' := serialize_of_toSelect (hq ▸ hm) hs' given
    rw [← hout', hc, hclauses] at hclauses'
    exact (Except.ok.inj hclauses').symm
  refine ⟨⟨m, hm, hclauses⟩, fun q' hq => ⟨fun out' => hsame hq, fun hfeeds => ?_⟩⟩
  have hops : ∀ op ∈ q'.ops, op ∈ q.ops := by
    intro op hop
    obtain ⟨k, hk⟩ := op.exists_feeds
    have hmem : op ∈ q'.ops.filter (·.feeds k) := List.mem_filter.2 ⟨hop, hk⟩
    rw [hfeeds k] at hmem
    exact List.mem_of_mem_filter hmem
  obtain ⟨s', hs'⟩ := Query.exists_toSelect_of_subset hq hops hs
  obtain ⟨out', h'⟩ : ∃ out',
      (Statement.query q').serialize catalog capability given = .ok out' := by
    rw [Statement.serialize, Statement.fragments, hs']
    exact ⟨_, rfl⟩
  rw [h', hsame hq h' (Clauses.ofOps_congr hfeeds)]

/-- A page of authors by name, with the operations in another order. -/
theorem serialize_clauses_authors :
    let two : Expr := .constant (.u64 ⟨2, by decide, by decide⟩)
    let named : QueryOp := .filter (.hasValue (.field "name"))
    let byKey : QueryOp := .orderBy (.field "id") .desc
    let byName : QueryOp := .orderBy (.field "name") .asc
    let q : Query := ⟨⟨"Author", 1⟩, [.first none, byKey, byName, named, .take two, .skip two]⟩
    let q' : Query := ⟨⟨"Author", 1⟩, [.skip two, .first none, .take two, byKey, named, byName]⟩
    ∃ out, (Statement.query q).serialize blog .full = .ok out ∧
      (Statement.query q').serialize blog .full = .ok out ∧
      out.text = "SELECT authors.* FROM authors WHERE name IS NOT NULL ORDER BY name ASC" ++
        " LIMIT 2 OFFSET 2;" := by
  intro two named byKey byName q q'
  obtain ⟨out, h⟩ : ∃ out, (Statement.query q).serialize blog .full = .ok out := ⟨_, rfl⟩
  refine ⟨out, h, ((Query.serialize_clauses h).2 q' rfl).2 fun k => by cases k <;> rfl, ?_⟩
  obtain ⟨s, hs, rfl⟩ := Statement.serialize_query_eq_ok h
  cases hs
  decide +kernel

end RecordMapper
