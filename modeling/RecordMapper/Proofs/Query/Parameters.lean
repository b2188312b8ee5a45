import RecordMapper.Proofs.Query.Grouping
import RecordMapper.Proofs.Sql.Placeholders
/-!
The values that a query binds and the names that it writes.
-/

namespace RecordMapper

open Text Sql

namespace Expr

/-- The constants of a predicate that are bound, from left to right. -/
def constants : Expr → List Value
  | conj l r | disj l r | binary _ l r => l.constants ++ r.constants
  | neg e | cast e _ | hasValue e | nullTest _ e => e.constants
  | member e list => e.constants ++ list.listItems
  | pattern kind _ text => [.text (patternOf kind text)]
  | constant .null | field _ => []
  | constant v => [v]
  | call .. | record _ | vectorDistance .. => []

theorem constants_stripCasts (e : Expr) : e.stripCasts.constants = e.constants :=
  apply_stripCasts (fun _ _ => by rw [constants]) e

theorem constants_of_null {e : Expr} (h : e.stripCasts = .constant .null) : e.constants = [] := by
  rw [← constants_stripCasts, h, constants]

end Expr

/-- The values that a filter binds are the constants of its predicate. -/
theorem paramsOf_of_lowers {m : Mapping} {e : Expr} {f : Filter} (h : Lowers m e f) :
    paramsOf f.fragments = e.constants := by
  induction h with
  | conj _ _ ihl ihr | disj _ _ ihl ihr | binary _ _ _ _ ihl ihr =>
    rw [Filter.fragments] at ihl ihr ⊢
    simp [Filter.tokens, Token.fragment, paramsOf_append, ihl, ihr, Expr.constants]
  | neg _ ih | hasValue _ ih =>
    rw [Filter.fragments] at ih ⊢
    simp [Filter.tokens, Token.fragment, paramsOf_append, ih, Expr.constants]
  | @nullTest negated _ _ _ ih =>
    rw [Filter.fragments] at ih ⊢
    cases negated <;> simp [Filter.tokens, Token.fragment, paramsOf_append, ih, Expr.constants]
  | @nullRight op _ _ _ hs _ ih | @nullLeft op _ _ _ hs _ ih =>
    rw [Filter.fragments] at ih ⊢
    cases hop : op == .ne <;>
      simp [Filter.tokens, Token.fragment, paramsOf_append, ih, Expr.constants,
        Expr.constants_of_null (Expr.testedSide?_spec hs).2]
  | cast _ ih => exact ih
  | field _ | null => rfl
  | @member e list f items hs _ _ ih =>
    have hitems : paramsOf (((items.map Token.bound).intersperse .comma).map Token.fragment) =
        items := by
      rw [paramsOf, List.filterMap_map, List.filterMap_eq_flatMap_toList, flatMap_intersperse rfl]
      simp [List.flatMap_map, Token.fragment, Fragment.param?]
    rw [Filter.fragments] at ih ⊢
    simp [Filter.tokens, Token.fragment, paramsOf_append, ih, hitems, Expr.constants,
      Expr.listItems, hs]
  | @pattern kind e text name column s v _ ht hv _ =>
    simp [Filter.fragments, Filter.tokens, Token.fragment, Expr.constants, Expr.patternOf, ht, hv]
  | @bound v hn hl =>
    cases v with
    | null => cases hn
    | list => cases hl
    | _ => rfl

namespace Sql

theorem Select.paramsOf_whereClause (s : Select) :
    paramsOf s.whereClause = s.filters.flatMap fun f => paramsOf f.fragments := by
  rw [whereClause]
  split
  next h => rw [List.isEmpty_iff.1 h, paramsOf_nil, List.flatMap_nil]
  next =>
    rw [paramsOf_text_cons, paramsOf_flatten, flatMap_intersperse rfl, List.flatMap_map]

/-- Only conditions bind values. -/
theorem Select.paramsOf_fragments (s : Select) :
    paramsOf s.fragments = s.filters.flatMap fun f => paramsOf f.fragments := by
  rw [fragments, List.cons_append, paramsOf_text_cons, paramsOf_append, paramsOf_whereClause]
  cases s.list.isAggregate <;> simp

def SelectList.aliases : SelectList → List String
  | columns items => items.map Prod.snd
  | _ => []

def SelectList.tables : SelectList → List String
  | star tables => tables
  | _ => []

def SelectList.names : SelectList → List String
  | star tables => tables
  | columns items => items.flatMap fun (column, label) => [column, label]
  | count => []
  | sum column => [column]

def JoinClause.names (j : JoinClause) : List String := [j.table, j.leftColumn, j.rightColumn]

/-- The names in the text of a select statement. -/
def Select.names (s : Select) : List String :=
  s.table :: s.list.names ++ s.joins.flatMap JoinClause.names ++
    s.filters.flatMap Filter.columnNames ++
    if s.list.isAggregate then [] else s.order.map (·.key.columnName)

theorem SelectList.names_cases {list : SelectList} {n : String} (h : n ∈ list.names) :
    n ∈ list.tables ∨ n ∈ list.columnNames ∨ n ∈ list.aliases := by
  cases list with
  | star tables => exact .inl h
  | columns items =>
    obtain ⟨item, hi, hn⟩ := List.mem_flatMap.1 h
    simp only [List.mem_cons, List.not_mem_nil, or_false] at hn
    rcases hn with rfl | rfl
    · exact .inr (.inl (List.mem_map_of_mem hi))
    · exact .inr (.inr (List.mem_map_of_mem hi))
  | count => cases h
  | sum column => exact .inr (.inl h)

theorem SelectList.unmarked_text {list : SelectList} (h : ∀ n ∈ list.names, Unmarked n) :
    Unmarked list.text := by
  cases list with
  | star tables =>
    apply Unmarked.nameList
    intro n hn
    obtain ⟨t, ht, rfl⟩ := List.mem_map.1 hn
    exact unmarked_append.2 ⟨h t ht, by decide⟩
  | columns items =>
    apply Unmarked.nameList
    intro n hn
    obtain ⟨⟨column, label⟩, hi, rfl⟩ := List.mem_map.1 hn
    have hc := h column (List.mem_flatMap.2 ⟨_, hi, List.mem_cons_self⟩)
    have hl := h label (List.mem_flatMap.2 ⟨_, hi, .tail _ List.mem_cons_self⟩)
    dsimp only
    rw [unmarked_append, unmarked_append]
    exact ⟨⟨hc, by decide⟩, hl⟩
  | count => decide
  | sum column =>
    rw [text, unmarked_append, unmarked_append]
    exact ⟨⟨by decide, h column List.mem_cons_self⟩, by decide⟩

theorem JoinClause.unmarked_text {first : String} {j : JoinClause} (hf : Unmarked first)
    (h : ∀ n ∈ j.names, Unmarked n) : Unmarked (j.text first) := by
  simp only [names, List.forall_mem_cons] at h
  have hd : Unmarked "." := by decide
  unfold JoinClause.text
  simp only [unmarked_append]
  exact ⟨⟨⟨⟨⟨⟨⟨⟨⟨by decide, h.1⟩, by decide⟩, hf⟩, hd⟩, h.2.1⟩, by decide⟩, h.1⟩, hd⟩, h.2.2.1⟩

theorem OrderTerm.unmarked_text {t : OrderTerm} (h : Unmarked t.key.columnName) :
    Unmarked t.text := by
  have hkey : Unmarked t.key.text := by
    cases hk : t.key with
    | column name =>
      rw [hk] at h
      exact h
    | vectorDistance name vector =>
      rw [hk] at h
      have hv : Unmarked (nameList (vector.map Binary32.plainText)) := by
        apply Unmarked.nameList
        intro n hn
        obtain ⟨x, _, rfl⟩ := List.mem_map.1 hn
        exact x.unmarked_plainText
      unfold OrderKey.text OrderKey.vectorText
      simp only [unmarked_append]
      exact ⟨⟨⟨⟨by decide, h⟩, by decide⟩, ⟨by decide, hv⟩, by decide⟩, by decide⟩
  have hd : Unmarked t.direction.keyword := by cases t.direction <;> decide
  rw [OrderTerm.text, unmarked_append, unmarked_append]
  exact ⟨⟨hkey, by decide⟩, hd⟩

theorem Select.unmarked_pageClause (s : Select) : Unmarked s.pageClause := by
  rw [pageClause, unmarked_append]
  constructor
  · split
    · exact unmarked_append.2 ⟨by decide, Numeral.unmarked_ofInt _⟩
    · decide
    · decide
  · split
    · exact unmarked_append.2 ⟨by decide, Numeral.unmarked_ofInt _⟩
    · decide

theorem Select.unmarked_whereClause {s : Select}
    (h : ∀ n ∈ s.filters.flatMap Filter.columnNames, Unmarked n) :
    ∀ f ∈ s.whereClause, f.Unmarked := by
  intro f hf
  rw [whereClause] at hf
  split at hf
  next => cases hf
  next =>
    rcases List.mem_cons.1 hf with rfl | hf
    · decide
    · obtain ⟨item, hi, hf⟩ := List.mem_flatten.1 hf
      rcases mem_of_mem_intersperse hi with rfl | hi
      · rw [List.mem_singleton.1 hf]
        decide
      · obtain ⟨g, hg, rfl⟩ := List.mem_map.1 hi
        exact Filter.unmarked_fragments (fun n hn => h n (List.mem_flatMap.2 ⟨g, hg, hn⟩)) f hf

theorem Select.unmarked_orderClause {s : Select}
    (h : ∀ n ∈ s.order.map (·.key.columnName), Unmarked n) : Unmarked s.orderClause := by
  rw [orderClause]
  split
  · decide
  · refine unmarked_append.2 ⟨by decide, .nameList fun n hn => ?_⟩
    obtain ⟨t, ht, rfl⟩ := List.mem_map.1 hn
    exact OrderTerm.unmarked_text (h _ (List.mem_map_of_mem ht))

theorem Select.unmarked_fragments {s : Select} (h : ∀ n ∈ s.names, Unmarked n) :
    ∀ f ∈ s.fragments, f.Unmarked := by
  simp only [names, List.cons_append, List.forall_mem_cons, List.forall_mem_append] at h
  obtain ⟨htable, ⟨⟨hlist, hjoins⟩, hfilters⟩, horder⟩ := h
  intro f hf
  simp only [fragments, List.cons_append, List.mem_cons, List.mem_append] at hf
  rcases hf with rfl | hf | hf
  · have hj : Unmarked (String.join (s.joins.map (JoinClause.text s.table))) := by
      apply Unmarked.join
      intro t ht
      obtain ⟨j, hm, rfl⟩ := List.mem_map.1 ht
      exact JoinClause.unmarked_text htable fun n hn => hjoins n (List.mem_flatMap.2 ⟨j, hm, hn⟩)
    have hl := SelectList.unmarked_text hlist
    rw [Fragment.Unmarked, unmarked_append, unmarked_append, unmarked_append, unmarked_append]
    exact ⟨⟨⟨⟨by decide, hl⟩, by decide⟩, htable⟩, hj⟩
  · exact unmarked_whereClause hfilters f hf
  · cases ha : s.list.isAggregate with
    | true => simp [ha] at hf
    | false =>
      simp only [ha, Bool.false_eq_true, if_false, List.mem_singleton] at hf horder
      rw [hf, Fragment.Unmarked, unmarked_append]
      exact ⟨unmarked_orderClause horder, s.unmarked_pageClause⟩

end Sql

/-- The aliases of a projection. A field alone is projected under its own name. -/
def Expr.aliases (e : Expr) : List String :=
  match e.stripCasts with
  | .field name => [name]
  | .record fields => fields.map Prod.fst
  | _ => []

namespace QueryOp

def predicates : QueryOp → List Expr
  | filter p => [p]
  | count p | first p => p.toList
  | _ => []

def aliases : QueryOp → List String
  | select e => e.aliases
  | _ => []

end QueryOp

def Mapping.names (m : Mapping) : List String := m.table :: m.columns.map Column.name

namespace Query

/-- The constants of the predicates, in the order of the operations. -/
def constants (q : Query) : List Value := (q.ops.flatMap QueryOp.predicates).flatMap Expr.constants

/-- The records that a query reads: its root and those that the root is joined to. -/
def records (catalog : Catalog) (q : Query) : List Mapping :=
  match catalog.resolve q.source with
  | .ok m => m :: m.joins.filterMap fun j => (catalog.joinTarget j).toOption.map Prod.fst
  | .error _ => []

/-- The tables and columns of the records, and the aliases of projections. -/
def names (catalog : Catalog) (q : Query) : List String :=
  (q.records catalog).flatMap Mapping.names ++ q.ops.flatMap QueryOp.aliases

end Query

variable {m : Mapping} {catalog : Catalog} {capability : Capability} {q : Query} {s : Select}

namespace QueryPlan

theorem filters_apply {plan plan' : QueryPlan} {op : QueryOp}
    (h : plan.apply capability op = .ok plan') : plan'.filters = plan.filters ++ op.predicates := by
  cases op with
  | filter p | count p | first p =>
    cases h
    rfl
  | select e | orderBy key direction | thenBy key direction | take count | skip count | sum e =>
    obtain ⟨_, _, rfl⟩ := bind_pure_eq_ok_iff.1 h
    exact (List.append_nil _).symm

theorem filters_foldlM {ops : List QueryOp} {plan plan' : QueryPlan}
    (h : ops.foldlM (QueryPlan.apply capability) plan = .ok plan') :
    plan'.filters = plan.filters ++ ops.flatMap QueryOp.predicates := by
  induction ops generalizing plan with
  | nil =>
    cases pure_eq_ok_iff.1 h
    exact (List.append_nil _).symm
  | cons op ops ih =>
    rw [List.foldlM_cons] at h
    obtain ⟨plan₁, h₁, h₂⟩ := bind_eq_ok_iff.1 h
    rw [ih h₂, filters_apply h₁, List.flatMap_cons, List.append_assoc]

theorem alias_projectedColumn {label : String} {e : Expr} {item : String × String}
    (h : projectedColumn m label e = .ok item) : item.2 = label := by
  rw [projectedColumn] at h
  split at h
  next =>
    obtain ⟨_, _, rfl⟩ := bind_pure_eq_ok_iff.1 h
    rfl
  next => cases h

theorem aliases_projectedColumns {e : Expr} {items : List (String × String)}
    (h : projectedColumns m e = .ok items) : items.map Prod.snd = e.aliases := by
  rw [projectedColumns] at h
  cases he : e.stripCasts with
  | field name =>
    rw [he] at h
    obtain ⟨column, _, rfl⟩ := bind_pure_eq_ok_iff.1 h
    rw [Expr.aliases, he]
    rfl
  | record fields =>
    rw [he] at h
    have hitems := mapM_eq_ok_iff.1 h
    rw [Expr.aliases, he]
    dsimp only
    clear h he
    induction hitems with
    | nil => rfl
    | cons hitem _ ih => rw [List.map_cons, List.map_cons, alias_projectedColumn hitem, ih]
  | _ =>
    rw [he] at h
    cases h

theorem aliases_apply {plan plan' : QueryPlan} {op : QueryOp}
    (h : plan.apply capability op = .ok plan') {a : String} (ha : a ∈ plan'.selectList.aliases) :
    a ∈ plan.selectList.aliases ∨ a ∈ op.aliases := by
  cases op with
  | select e =>
    obtain ⟨items, hi, rfl⟩ := bind_pure_eq_ok_iff.1 h
    have he : a ∈ items.map Prod.snd := ha
    rw [aliases_projectedColumns hi] at he
    exact .inr he
  | filter p | first p =>
    cases h
    exact .inl ha
  | count p =>
    cases h
    cases ha
  | sum e =>
    obtain ⟨_, _, rfl⟩ := bind_pure_eq_ok_iff.1 h
    cases ha
  | orderBy key direction | thenBy key direction | take count | skip count =>
    obtain ⟨_, _, rfl⟩ := bind_pure_eq_ok_iff.1 h
    exact .inl ha

theorem aliases_foldlM {ops : List QueryOp} {plan plan' : QueryPlan}
    (h : ops.foldlM (QueryPlan.apply capability) plan = .ok plan') {a : String}
    (ha : a ∈ plan'.selectList.aliases) :
    a ∈ plan.selectList.aliases ∨ a ∈ ops.flatMap QueryOp.aliases := by
  induction ops generalizing plan with
  | nil =>
    cases pure_eq_ok_iff.1 h
    exact .inl ha
  | cons op ops ih =>
    rw [List.foldlM_cons] at h
    obtain ⟨plan₁, h₁, h₂⟩ := bind_eq_ok_iff.1 h
    rw [List.flatMap_cons, List.mem_append]
    rcases ih h₂ with hp | ho
    · exact (aliases_apply h₁ hp).imp_right .inl
    · exact .inr (.inr ho)

theorem tables_selectList {plan : QueryPlan} {n : String} (h : n ∈ plan.selectList.tables) :
    n ∈ plan.mapping.table :: plan.joins.map JoinClause.table := by
  rw [selectList] at h
  split at h
  · exact h
  all_goals cases h

theorem planJoin_eq_ok {j : Join} {clause : JoinClause} (h : planJoin catalog m j = .ok clause) :
    ∃ l t c, m.columnByField? j.leftField = some l ∧ catalog.joinTarget j = .ok (t, c) ∧
      clause = ⟨t.table, l.name, c.name⟩ := by
  rw [planJoin] at h
  split at h
  next l hl =>
    obtain ⟨⟨t, c⟩, ht, h⟩ := bind_eq_ok_iff.1 h
    dsimp only at h
    split at h
    next => cases h
    next =>
      cases pure_eq_ok_iff.1 h
      cases hj : catalog.joinTarget j with
      | error fault =>
        rw [hj] at ht
        cases ht
      | ok p =>
        rw [hj] at ht
        cases ht
        exact ⟨l, t, c, hl, rfl, rfl⟩
  next => cases h

theorem exists_joinsTo {joins : List JoinClause}
    (h : m.joins.mapM (planJoin catalog m) = .ok joins) : ∃ targets, m.JoinsTo catalog targets := by
  have hall := mapM_eq_ok_iff.1 h
  unfold Mapping.JoinsTo
  clear h
  generalize m.joins = js at hall ⊢
  induction hall with
  | nil => exact ⟨[], .nil⟩
  | cons hj _ ih =>
    obtain ⟨_, t, c, _, ht, _⟩ := planJoin_eq_ok hj
    obtain ⟨ts, hts⟩ := ih
    exact ⟨t :: ts, .cons ⟨c, ht⟩ hts⟩

end QueryPlan

theorem column_mem_names {c : Column} (hc : c ∈ m.columns) : c.name ∈ m.names :=
  .tail _ (List.mem_map_of_mem hc)

theorem Query.root_mem_records (hm : catalog.resolve q.source = .ok m) : m ∈ q.records catalog := by
  rw [records, hm]
  exact List.mem_cons_self

theorem Query.target_mem_records (hm : catalog.resolve q.source = .ok m) {j : Join}
    (hj : j ∈ m.joins) {t : Mapping} {c : Column} (ht : catalog.joinTarget j = .ok (t, c)) :
    t ∈ q.records catalog := by
  rw [records, hm]
  refine .tail _ (List.mem_filterMap.2 ⟨j, hj, ?_⟩)
  rw [ht]
  rfl

theorem column_of_joinTarget {j : Join} {t : Mapping} {c : Column}
    (h : catalog.joinTarget j = .ok (t, c)) : c ∈ t.columns := by
  rw [Catalog.joinTarget] at h
  split at h
  next => cases h
  next right _ =>
    split at h
    next hc =>
      cases h
      exact List.mem_of_find?_eq_some hc
    next => cases h

theorem Query.mem_names {n : String} {t : Mapping} (ht : t ∈ q.records catalog)
    (hn : n ∈ t.names) : n ∈ q.names catalog :=
  List.mem_append_left _ (List.mem_flatMap.2 ⟨t, ht, hn⟩)

theorem exists_root_of_toSelect (h : q.toSelect catalog capability = .ok s) :
    ∃ m, catalog.resolve q.source = .ok m := by
  obtain ⟨plan, hp, _⟩ := bind_eq_ok_iff.1 h
  cases hm : catalog.resolve q.source with
  | ok m => exact ⟨m, rfl⟩
  | error cause =>
    rw [QueryPlan.ofQuery, hm] at hp
    cases hp

theorem paramsOf_filters {es : List Expr} {fs : List Filter}
    (h : es.mapM (Expr.toFilter m) = .ok fs) :
    fs.flatMap (fun f => paramsOf f.fragments) = es.flatMap Expr.constants := by
  induction mapM_eq_ok_iff.1 h with
  | nil => rfl
  | cons he hes ih =>
    rw [List.flatMap_cons, List.flatMap_cons, paramsOf_of_lowers (lowers_of_toFilter he),
      ih (mapM_eq_ok_iff.2 hes)]

/-- A select statement binds the constants of the predicates of its query. -/
theorem constants_toSelect (h : q.toSelect catalog capability = .ok s) :
    paramsOf s.fragments = q.constants := by
  obtain ⟨m, hm⟩ := exists_root_of_toSelect h
  obtain ⟨plan, hp, h⟩ := bind_eq_ok_iff.1 h
  obtain ⟨filters, hf, rfl⟩ := bind_pure_eq_ok_iff.1 h
  obtain ⟨joins, _, hops⟩ := exists_joins_of_ofQuery hm hp
  have hpredicates := QueryPlan.filters_foldlM hops
  rw [List.nil_append] at hpredicates
  rw [Select.paramsOf_fragments, Query.constants, ← hpredicates]
  exact paramsOf_filters hf

theorem Query.columnName_mem_names (hm : catalog.resolve q.source = .ok m) {field n : String}
    (h : m.columnName field = .ok n) : n ∈ q.names catalog := by
  obtain ⟨c, hc, rfl⟩ := Mapping.columnName_eq_ok_iff.1 h
  exact mem_names (root_mem_records hm) (column_mem_names (List.mem_of_find?_eq_some hc))

/-- A join is written with names of the root and of the record that is joined. -/
theorem Query.names_planJoin (hm : catalog.resolve q.source = .ok m) {j : Join} (hj : j ∈ m.joins)
    {clause : JoinClause} (h : QueryPlan.planJoin catalog m j = .ok clause) :
    ∀ n ∈ clause.names, n ∈ q.names catalog := by
  obtain ⟨l, t, c, hl, htarget, rfl⟩ := QueryPlan.planJoin_eq_ok h
  have hrecord := target_mem_records hm hj htarget
  intro n hn
  simp only [JoinClause.names, List.mem_cons, List.not_mem_nil, or_false] at hn
  rcases hn with rfl | rfl | rfl
  · exact mem_names hrecord List.mem_cons_self
  · exact mem_names (root_mem_records hm) (column_mem_names (List.mem_of_find?_eq_some hl))
  · exact mem_names hrecord (column_mem_names (column_of_joinTarget htarget))

/-- A select statement has no names but those of its query. -/
theorem names_toSelect (h : q.toSelect catalog capability = .ok s) :
    ∀ n ∈ s.names, n ∈ q.names catalog := by
  obtain ⟨m, hm⟩ := exists_root_of_toSelect h
  obtain ⟨plan, hp, hs⟩ := bind_eq_ok_iff.1 h
  obtain ⟨joins, hj, hops⟩ := exists_joins_of_ofQuery hm hp
  obtain ⟨targets, ht⟩ := QueryPlan.exists_joinsTo hj
  obtain ⟨htable, _, hresolves⟩ := resolves_toSelect hm ht h
  have hstart : QueryPlan.Agrees m {} { mapping := m, joins } := ⟨rfl, .nil, rfl, .nil, rfl⟩
  obtain ⟨_, hsame⟩ := hstart.foldlM hops
  have hcolumn : ∀ n ∈ s.columnNames, n ∈ q.names catalog := by
    intro n hn
    obtain ⟨field, _, hc⟩ := exists_mem_of_forall₂ hresolves hn
    exact Query.columnName_mem_names hm hc
  have hroot : s.table ∈ q.names catalog := by
    rw [htable]
    exact Query.mem_names (Query.root_mem_records hm) List.mem_cons_self
  have hclause : ∀ clause ∈ plan.joins, ∀ n ∈ clause.names, n ∈ q.names catalog := by
    intro clause hc
    rw [hsame] at hc
    obtain ⟨j, hm', hplan⟩ := exists_mem_of_forall₂ (mapM_eq_ok_iff.1 hj) hc
    exact Query.names_planJoin hm hm' hplan
  obtain ⟨filters, _, rfl⟩ := bind_pure_eq_ok_iff.1 hs
  simp only [Select.columnNames, List.forall_mem_append] at hcolumn
  obtain ⟨⟨hlist, hfilters⟩, horder⟩ := hcolumn
  simp only [Select.names, List.cons_append, List.forall_mem_cons, List.forall_mem_append]
  refine ⟨hroot, ⟨⟨fun n hn => ?_, fun n hn => ?_⟩, hfilters⟩, horder⟩
  · rcases SelectList.names_cases hn with hn | hn | hn
    · rcases List.mem_cons.1 (QueryPlan.tables_selectList hn) with rfl | hn
      · exact hroot
      · obtain ⟨clause, hc, rfl⟩ := List.mem_map.1 hn
        exact hclause clause hc _ List.mem_cons_self
    · exact hlist n hn
    · rcases QueryPlan.aliases_foldlM hops hn with hn | hn
      · cases hn
      · exact List.mem_append_right _ hn
  · obtain ⟨clause, hc, hn⟩ := List.mem_flatMap.1 hn
    exact hclause clause hc n hn

end RecordMapper
