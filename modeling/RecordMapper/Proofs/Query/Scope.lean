import RecordMapper.Proofs.Query.Lowering
import RecordMapper.Proofs.Schema.Validity
import RecordMapper.Query.Plan
/-!
Which tables' columns the names of a select statement mean. Select list, conditions and order name
columns without their table.
-/

namespace RecordMapper

open Text Sql

namespace Sql

def Token.name? : Token → Option String
  | name n => some n
  | _ => none

namespace Filter

def columnNames (f : Filter) : List String := f.tokens.filterMap Token.name?

@[simp] theorem columnNames_column (n : String) : (column n).columnNames = [n] := rfl

@[simp] theorem columnNames_conj (l r : Filter) :
    (conj l r).columnNames = l.columnNames ++ r.columnNames := by
  simp [columnNames, tokens, List.filterMap_cons, Token.name?]

@[simp] theorem columnNames_disj (l r : Filter) :
    (disj l r).columnNames = l.columnNames ++ r.columnNames := by
  simp [columnNames, tokens, List.filterMap_cons, Token.name?]

@[simp] theorem columnNames_binary (op : Operator) (l r : Filter) :
    (binary op l r).columnNames = l.columnNames ++ r.columnNames := by
  simp [columnNames, tokens, List.filterMap_cons, Token.name?]

@[simp] theorem columnNames_neg (e : Filter) : (neg e).columnNames = e.columnNames := by
  simp [columnNames, tokens, List.filterMap_cons, Token.name?]

@[simp] theorem columnNames_hasValue (e : Filter) : (hasValue e).columnNames = e.columnNames := by
  simp [columnNames, tokens, List.filterMap_cons, Token.name?]

@[simp] theorem columnNames_nullTest (negated : Bool) (e : Filter) :
    (nullTest negated e).columnNames = e.columnNames := by
  cases negated <;> simp [columnNames, tokens, List.filterMap_cons, Token.name?]

@[simp] theorem columnNames_member (e : Filter) (items : List Value) :
    (member e items).columnNames = e.columnNames := by
  have hitems : ((items.map Token.bound).intersperse .comma).filterMap Token.name? = [] := by
    induction items with
    | nil => rfl
    | cons v vs ih =>
      cases vs with
      | nil => rfl
      | cons w ws => exact ih
  simp only [columnNames, tokens, List.filterMap_append, List.filterMap_cons, hitems]
  simp [Token.name?]

end Filter

def SelectList.columnNames : SelectList → List String
  | columns items => items.map Prod.fst
  | sum column => [column]
  | star _ | count => []

def OrderKey.columnName : OrderKey → String
  | column name => name
  | vectorDistance name _ => name

/-- The columns that a statement names without a table, in the order of the text. -/
def Select.columnNames (s : Select) : List String :=
  s.list.columnNames ++ s.filters.flatMap Filter.columnNames ++
    if s.list.isAggregate then [] else s.order.map (·.key.columnName)

end Sql

namespace Expr

mutual

/-- The fields that an expression names, in order. -/
def fields : Expr → List String
  | conj l r | disj l r | binary _ l r | member l r | pattern _ l r | vectorDistance l r =>
    l.fields ++ r.fields
  | neg e | cast e _ | hasValue e | nullTest _ e => e.fields
  | field name => [name]
  | call _ args => fieldsOfArgs args
  | record items => fieldsOfItems items
  | constant _ => []

def fieldsOfArgs : List Expr → List String
  | [] => []
  | e :: es => e.fields ++ fieldsOfArgs es

def fieldsOfItems : List (String × Expr) → List String
  | [] => []
  | (_, e) :: items => e.fields ++ fieldsOfItems items

end

theorem fields_stripCasts (e : Expr) : e.stripCasts.fields = e.fields :=
  apply_stripCasts (fun _ _ => by rw [fields]) e

end Expr

/-- The fields that a query refers to, by the clause that they are for. -/
structure References where
  list : List String := []
  filters : List String := []
  order : List String := []
  aggregate : Bool := false

namespace References

def step (r : References) : QueryOp → References
  | .filter p => { r with filters := r.filters ++ p.fields }
  | .select e => { r with list := e.fields, aggregate := false }
  | .orderBy key _ => { r with order := key.fields }
  | .thenBy key _ => { r with order := r.order ++ key.fields }
  | .take _ | .skip _ => r
  | .count p =>
    { r with filters := r.filters ++ p.toList.flatMap Expr.fields, list := [], aggregate := true }
  | .sum e => { r with list := e.fields, aggregate := true }
  | .first p => { r with filters := r.filters ++ p.toList.flatMap Expr.fields }

/-- The order of an aggregate is not part of the statement. -/
def all (r : References) : List String :=
  r.list ++ r.filters ++ if r.aggregate then [] else r.order

end References

def Query.references (q : Query) : List String := (q.ops.foldl References.step {}).all

variable {m : Mapping}

/-- Names of columns, for the fields that they stand for. -/
abbrev Mapping.Resolves (m : Mapping) : List String → List String → Prop :=
  List.Forall₂ fun field name => m.columnName field = .ok name

theorem Mapping.Resolves.append {a b c d : List String} (h : m.Resolves a b) (k : m.Resolves c d) :
    m.Resolves (a ++ c) (b ++ d) :=
  List.rel_append h k

namespace Expr

theorem fields_of_null {e : Expr} (h : e.stripCasts = .constant .null) : e.fields = [] := by
  rw [← fields_stripCasts, h, fields]

theorem resolves_of_lowers {e : Expr} {f : Filter} (h : Lowers m e f) :
    m.Resolves e.fields f.columnNames := by
  induction h with
  | conj _ _ ihl ihr | disj _ _ ihl ihr | binary _ _ _ _ ihl ihr =>
    simpa [fields] using ihl.append ihr
  | neg _ ih | hasValue _ ih | nullTest _ ih => simpa [fields] using ih
  | nullRight hs _ ih | nullLeft hs _ ih =>
    simpa [fields, fields_of_null (testedSide?_spec hs).2] using ih
  | cast _ ih => exact ih
  | field hc => exact .cons hc .nil
  | @member e list f items hs _ _ ih =>
    have hl : list.fields = [] := by rw [← fields_stripCasts, hs, fields]
    simpa [fields, hl] using ih
  | @pattern kind e text name column s v hs ht _ hc =>
    have hl : text.fields = [] := by rw [← fields_stripCasts, ht, fields]
    rw [fields, hl, ← fields_stripCasts e, hs]
    exact .cons hc .nil
  | null => exact .nil
  | @bound v => exact .nil

theorem resolves_filters {es : List Expr} {fs : List Filter} (h : es.mapM (toFilter m) = .ok fs) :
    m.Resolves (es.flatMap fields) (fs.flatMap Filter.columnNames) := by
  induction mapM_eq_ok_iff.1 h with
  | nil => exact .nil
  | cons he hes ih =>
    have hrest := ih (mapM_eq_ok_iff.2 hes)
    exact (resolves_of_lowers (lowers_of_toFilter he)).append hrest

end Expr

namespace QueryPlan

theorem resolves_projectedColumn {label : String} {e : Expr} {item : String × String}
    (h : projectedColumn m label e = .ok item) : m.Resolves e.fields [item.1] := by
  rw [projectedColumn] at h
  rw [← Expr.fields_stripCasts]
  split at h
  next name hn =>
    obtain ⟨column, hc, rfl⟩ := bind_pure_eq_ok_iff.1 h
    rw [hn]
    exact .cons hc .nil
  next => cases h

theorem resolves_items {fs : List (String × Expr)} {items : List (String × String)}
    (h : fs.mapM (fun (label, e) => projectedColumn m label e) = .ok items) :
    m.Resolves (Expr.fieldsOfItems fs) (items.map Prod.fst) := by
  induction mapM_eq_ok_iff.1 h with
  | nil => exact .nil
  | cons he hes ih => exact (resolves_projectedColumn he).append (ih (mapM_eq_ok_iff.2 hes))

theorem resolves_projectedColumns {e : Expr} {items : List (String × String)}
    (h : projectedColumns m e = .ok items) : m.Resolves e.fields (items.map Prod.fst) := by
  rw [projectedColumns] at h
  rw [← Expr.fields_stripCasts]
  split at h
  next name hn =>
    obtain ⟨column, hc, rfl⟩ := bind_pure_eq_ok_iff.1 h
    rw [hn]
    exact .cons hc .nil
  next fs hfs =>
    rw [hfs, Expr.fields]
    exact resolves_items h
  next => cases h

theorem resolves_orderKey {capability : Capability} {key : Expr} {k : OrderKey}
    (h : orderKey capability m key = .ok k) : m.Resolves key.fields [k.columnName] := by
  rw [orderKey] at h
  rw [← Expr.fields_stripCasts]
  split at h
  next name hn =>
    obtain ⟨column, hc, rfl⟩ := bind_pure_eq_ok_iff.1 h
    rw [hn]
    exact .cons hc .nil
  next operand vector hd =>
    split at h
    next => cases h
    next =>
      split at h
      next name hn =>
        split at h
        next items hv =>
          obtain ⟨column, hc, rfl⟩ := bind_pure_eq_ok_iff.1 h
          rw [hd, Expr.fields, ← Expr.fields_stripCasts operand, ← Expr.fields_stripCasts vector,
            hn, hv]
          exact .cons hc .nil
        next => cases h
      next => cases h
  next => cases h

theorem resolves_sumColumn {selector : Expr} {column : String}
    (h : sumColumn m selector = .ok column) : m.Resolves selector.fields [column] := by
  rw [sumColumn] at h
  rw [← Expr.fields_stripCasts]
  split at h
  next name hn =>
    rw [hn]
    exact .cons h .nil
  next => cases h

/-- The clauses of a plan are about the columns that the references so far resolve to. -/
structure Agrees (m : Mapping) (r : References) (plan : QueryPlan) : Prop where
  mapping : plan.mapping = m
  list : m.Resolves r.list plan.selectList.columnNames
  filters : plan.filters.flatMap Expr.fields = r.filters
  order : m.Resolves r.order (plan.order.map (·.key.columnName))
  aggregate : plan.selectList.isAggregate = r.aggregate

theorem Agrees.apply {capability : Capability} {r : References} {plan plan' : QueryPlan}
    {op : QueryOp} (ha : Agrees m r plan) (h : plan.apply capability op = .ok plan') :
    Agrees m (r.step op) plan' := by
  cases op with
  | filter p =>
    cases h
    exact { ha with filters := by simp [References.step, ha.filters] }
  | select e =>
    obtain ⟨items, hi, rfl⟩ := bind_pure_eq_ok_iff.1 h
    rw [ha.mapping] at hi
    exact { ha with list := resolves_projectedColumns hi, aggregate := rfl }
  | orderBy key direction =>
    obtain ⟨k, hk, rfl⟩ := bind_pure_eq_ok_iff.1 h
    rw [ha.mapping] at hk
    exact { ha with order := resolves_orderKey hk }
  | thenBy key direction =>
    obtain ⟨k, hk, rfl⟩ := bind_pure_eq_ok_iff.1 h
    rw [ha.mapping] at hk
    refine { ha with order := ?_ }
    rw [List.map_append]
    exact ha.order.append (resolves_orderKey hk)
  | take count =>
    obtain ⟨n, _, rfl⟩ := bind_pure_eq_ok_iff.1 h
    exact { ha with }
  | skip count =>
    obtain ⟨n, _, rfl⟩ := bind_pure_eq_ok_iff.1 h
    exact { ha with }
  | count p =>
    cases h
    exact { ha with
      list := .nil
      filters := by simp [References.step, ha.filters]
      aggregate := rfl }
  | sum e =>
    obtain ⟨column, hc, rfl⟩ := bind_pure_eq_ok_iff.1 h
    rw [ha.mapping] at hc
    exact { ha with list := resolves_sumColumn hc, aggregate := rfl }
  | first p =>
    cases h
    exact { ha with filters := by simp [References.step, ha.filters] }

theorem joins_apply {capability : Capability} {plan plan' : QueryPlan} {op : QueryOp}
    (h : plan.apply capability op = .ok plan') : plan'.joins = plan.joins := by
  cases op with
  | filter p | count p | first p =>
    cases h
    rfl
  | select e | orderBy key direction | thenBy key direction | take count | skip count | sum e =>
    obtain ⟨_, _, rfl⟩ := bind_pure_eq_ok_iff.1 h
    rfl

theorem Agrees.foldlM {capability : Capability} {ops : List QueryOp} {r : References}
    {plan plan' : QueryPlan} (ha : Agrees m r plan)
    (h : ops.foldlM (QueryPlan.apply capability) plan = .ok plan') :
    Agrees m (ops.foldl References.step r) plan' ∧ plan'.joins = plan.joins := by
  induction ops generalizing r plan with
  | nil =>
    cases pure_eq_ok_iff.1 h
    exact ⟨ha, rfl⟩
  | cons op ops ih =>
    rw [List.foldlM_cons] at h
    obtain ⟨plan₁, h₁, h₂⟩ := bind_eq_ok_iff.1 h
    obtain ⟨hr, hj⟩ := ih (ha.apply h₁) h₂
    exact ⟨hr, hj.trans (joins_apply h₁)⟩

end QueryPlan

/-- The joins of a mapping lead to these mappings. -/
abbrev Mapping.JoinsTo (m : Mapping) (catalog : Catalog) (targets : List Mapping) : Prop :=
  List.Forall₂ (fun j t => ∃ c, catalog.joinTarget j = .ok (t, c)) m.joins targets

variable {catalog : Catalog} {capability : Capability} {q : Query} {s : Select}
  {targets : List Mapping}

theorem table_of_planJoin {j : Join} {clause : JoinClause} {t : Mapping} {c : Column}
    (ht : catalog.joinTarget j = .ok (t, c)) (h : QueryPlan.planJoin catalog m j = .ok clause) :
    clause.table = t.table := by
  rw [QueryPlan.planJoin] at h
  split at h
  next =>
    obtain ⟨p, hp, h⟩ := bind_eq_ok_iff.1 h
    rw [ht] at hp
    cases hp
    dsimp only at h
    split at h
    next => cases h
    next =>
      cases pure_eq_ok_iff.1 h
      rfl
  next => cases h

theorem tables_of_planJoins {joins : List Join} {clauses : List JoinClause}
    (ht : List.Forall₂ (fun j t => ∃ c, catalog.joinTarget j = .ok (t, c)) joins targets)
    (h : joins.mapM (QueryPlan.planJoin catalog m) = .ok clauses) :
    clauses.map JoinClause.table = targets.map Mapping.table := by
  induction ht generalizing clauses with
  | nil =>
    cases mapM_eq_ok_iff.1 h
    rfl
  | @cons j t js ts hj _ ih =>
    obtain ⟨c, hc⟩ := hj
    obtain ⟨clause, cs, hclause, hcs, rfl⟩ := List.forall₂_cons_left_iff.1 (mapM_eq_ok_iff.1 h)
    rw [List.map_cons, List.map_cons, table_of_planJoin hc hclause, ih (mapM_eq_ok_iff.2 hcs)]

theorem exists_joins_of_ofQuery {plan : QueryPlan} (hm : catalog.resolve q.source = .ok m)
    (h : QueryPlan.ofQuery catalog capability q = .ok plan) :
    ∃ joins, m.joins.mapM (QueryPlan.planJoin catalog m) = .ok joins ∧
      q.ops.foldlM (QueryPlan.apply capability) { mapping := m, joins } = .ok plan := by
  rw [QueryPlan.ofQuery, hm] at h
  cases he : m.table.isEmpty with
  | true =>
    simp only [pure_bind, he, if_true] at h
    cases h
  | false =>
    simp only [pure_bind, he, Bool.false_eq_true, if_false] at h
    exact bind_eq_ok_iff.1 h

/-- The names of a select statement are those of the columns that the query refers to. -/
theorem resolves_toSelect (hm : catalog.resolve q.source = .ok m) (ht : m.JoinsTo catalog targets)
    (h : q.toSelect catalog capability = .ok s) :
    s.table = m.table ∧ s.joins.map JoinClause.table = targets.map Mapping.table ∧
      m.Resolves q.references s.columnNames := by
  obtain ⟨plan, hp, h⟩ := bind_eq_ok_iff.1 h
  obtain ⟨filters, hf, rfl⟩ := bind_pure_eq_ok_iff.1 h
  obtain ⟨joins, hj, hops⟩ := exists_joins_of_ofQuery hm hp
  have hstart : QueryPlan.Agrees m {} { mapping := m, joins } := ⟨rfl, .nil, rfl, .nil, rfl⟩
  obtain ⟨ha, hjoins⟩ := hstart.foldlM hops
  rw [ha.mapping] at hf
  refine ⟨congrArg Mapping.table ha.mapping, ?_, ?_⟩
  · simp only [hjoins]
    exact tables_of_planJoins ht hj
  · have hfilters := Expr.resolves_filters hf
    rw [ha.filters] at hfilters
    rw [Query.references, References.all, Select.columnNames]
    refine (ha.list.append hfilters).append ?_
    simp only [ha.aggregate]
    split
    · exact .nil
    · exact ha.order

/-- The columns that a name without a table can mean. -/
def columnsInScope (m : Mapping) (targets : List Mapping) : List Column :=
  m.columns ++ targets.flatMap Mapping.columns

/-- No table is named twice, and each name without a table means the one column that the field
stands for. -/
structure WellScoped (m : Mapping) (targets : List Mapping) (q : Query) (s : Select) : Prop where
  tables : DistinctNames (s.table :: s.joins.map JoinClause.table)
  names : List.Forall₂ (fun field name => ∃ c, m.columnByField? field = some c ∧
    (columnsInScope m targets).filter (sameName ·.name name) = [c]) q.references s.columnNames

theorem Mapping.Valid.filter_name (h : m.Valid) {c : Column} (hc : c ∈ m.columns) :
    m.columns.filter (sameName ·.name c.name) = [c] := by
  have hn := h.names
  generalize m.columns = columns at hc hn
  induction columns with
  | nil => cases hc
  | cons d ds ih =>
    obtain ⟨hd, hds⟩ := List.nodup_cons.1 hn
    have hother : ∀ e ∈ ds, lower e.name ≠ lower d.name := by
      intro e he hne
      exact hd (List.mem_map.2 ⟨e.name, List.mem_map_of_mem he, hne⟩)
    rcases List.mem_cons.1 hc with rfl | hc
    · have hnil : ds.filter (sameName ·.name c.name) = [] := by
        rw [List.filter_eq_nil_iff]
        intro e he hs
        exact hother e he (sameName_iff.1 hs)
      rw [List.filter_cons, if_pos (sameName_refl _), hnil]
    · have hs : ¬sameName d.name c.name = true :=
        fun hs => hother c hc (sameName_iff.1 hs).symm
      rw [List.filter_cons, if_neg hs, ih hc hds]

theorem forall₂_iff {α β : Type} {R S : α → β → Prop} {T : α → Prop} {l : List α} {k : List β}
    (h : List.Forall₂ R l k) (hst : ∀ a b, R a b → (S a b ↔ T a)) :
    List.Forall₂ S l k ↔ ∀ a ∈ l, T a := by
  induction h with
  | nil => simp
  | cons hr _ ih => simp [List.forall₂_cons, hst _ _ hr, ih]

/-- A query is well scoped exactly when its tables have different names and no joined record has a
column with the name of one that the query refers to. -/
theorem wellScoped_iff {d : Declaration} (hd : d.build = .ok m)
    (hm : catalog.resolve q.source = .ok m) (ht : m.JoinsTo catalog targets)
    (h : q.toSelect catalog capability = .ok s) :
    WellScoped m targets q s ↔ DistinctNames (m.table :: targets.map Mapping.table) ∧
      ∀ field ∈ q.references, ∀ c, m.columnByField? field = some c →
        ∀ t ∈ targets, t.columnByName? c.name = none := by
  have hv := Mapping.valid_of_build hd
  obtain ⟨htable, hjoins, hnames⟩ := resolves_toSelect hm ht h
  have hiff : List.Forall₂ (fun field name => ∃ c, m.columnByField? field = some c ∧
      (columnsInScope m targets).filter (sameName ·.name name) = [c]) q.references s.columnNames ↔
        ∀ field ∈ q.references, ∀ c, m.columnByField? field = some c →
          ∀ t ∈ targets, t.columnByName? c.name = none := by
    apply forall₂_iff hnames
    intro field name hr
    rw [Mapping.columnName] at hr
    cases hc : m.columnByField? field with
    | none => simp [hc] at hr
    | some c =>
      simp only [hc, Except.ok.injEq] at hr
      subst hr
      have hm := hv.filter_name (List.mem_of_find?_eq_some hc)
      have hrest : (targets.flatMap Mapping.columns).filter (sameName ·.name c.name) = [] ↔
          ∀ t ∈ targets, t.columnByName? c.name = none := by
        simp only [List.filter_eq_nil_iff, List.mem_flatMap, Mapping.columnByName?,
          List.find?_eq_none]
        exact ⟨fun h t ht x hx => h x ⟨t, ht, hx⟩, fun h x ⟨t, ht, hx⟩ => h t ht x hx⟩
      simp [columnsInScope, hm, hrest]
  constructor
  · rintro ⟨htables, hn⟩
    rw [htable, hjoins] at htables
    exact ⟨htables, hiff.1 hn⟩
  · rintro ⟨htables, hn⟩
    refine ⟨?_, hiff.2 hn⟩
    rw [htable, hjoins]
    exact htables

/-- Posts, which are read along with their authors. -/
def posts : Declaration where
  name := "Post"
  table := some "posts"
  columns := [
    { field := "id", storage := .integer, primaryKey := true },
    { field := "author", name := "author_id", storage := .integer },
    { field := "title", storage := .text }]
  joins := [{ leftField := "author", right := ⟨"Author", 1⟩, rightField := "id" }]

def authors : Declaration where
  name := "Author"
  table := some "authors"
  columns := [
    { field := "id", storage := .integer, primaryKey := true },
    { field := "name", storage := .text }]

def blog : Catalog := [.declared posts, .declared authors]

theorem posts_joinTo_authors : posts.assemble.JoinsTo blog [authors.assemble] :=
  .cons ⟨_, rfl⟩ .nil

/-- A condition on the title and an order by author name no column of the authors. -/
theorem wellScoped_titles :
    let q : Query := ⟨⟨"Post", 0⟩, [.filter (.hasValue (.field "title")),
      .orderBy (.field "author") .asc]⟩
    ∃ s, q.toSelect blog .full = .ok s ∧ s.columnNames = ["title", "author_id"] ∧
      WellScoped posts.assemble [authors.assemble] q s := by
  intro q
  let s : Select :=
    { list := .star ["posts", "authors"]
      table := "posts"
      joins := [⟨"authors", "author_id", "id"⟩]
      filters := [.hasValue (.column "title")]
      order := [⟨.column "author_id", .asc⟩]
      limit := none
      offset := none }
  have hd : posts.build = .ok posts.assemble := rfl
  have h : q.toSelect blog .full = .ok s := rfl
  refine ⟨s, h, rfl, (wellScoped_iff hd rfl posts_joinTo_authors h).2 ⟨?_, ?_⟩⟩
  · rw [DistinctNames]
    decide +kernel
  · have hr : ∀ field ∈ q.references, field = "title" ∨ field = "author" := by
      decide +kernel
    intro field hf c hc t ht
    rw [List.mem_singleton.1 ht]
    rcases hr field hf with rfl | rfl
    · cases hc
      rfl
    · cases hc
      rfl

/-- The key of posts has the name of the authors' key, so a condition on it is ambiguous. -/
theorem ambiguous_key :
    let q : Query := ⟨⟨"Post", 0⟩, [.filter (.hasValue (.field "id"))]⟩
    ∃ m s, posts.build = .ok m ∧ blog.resolve q.source = .ok m ∧ m.JoinsTo blog [authors.assemble] ∧
      q.toSelect blog .full = .ok s ∧ ¬WellScoped m [authors.assemble] q s := by
  intro q
  refine ⟨_, _, rfl, rfl, posts_joinTo_authors, rfl, ?_⟩
  rintro ⟨_, hn⟩
  obtain ⟨c, _, hc⟩ := (List.forall₂_cons.1 hn).1
  have hlength := congrArg List.length hc
  rw [List.length_singleton] at hlength
  revert hlength
  decide +kernel

end RecordMapper
