import RecordMapper.Proofs.Query.Scope
import RecordMapper.Statement.Basic
/-!
Queries under casts. A cast around a node, wherever the node stands, changes neither the statement
nor the kind of the error.
-/

namespace RecordMapper

variable {α β γ δ : Type}

/-- Both succeed, with related results, or both fail, with faults of one kind. -/
inductive SameOutcome (R : α → β → Prop) : Except QueryFault α → Except QueryFault β → Prop
  | ok {a : α} {b : β} (h : R a b) : SameOutcome R (.ok a) (.ok b)
  | error {f g : QueryFault} (h : f.toError.kind = g.toError.kind) :
      SameOutcome R (.error f) (.error g)

namespace SameOutcome

variable {R : α → β → Prop} {S : γ → δ → Prop}

protected theorem refl (x : Except QueryFault α) : SameOutcome Eq x x := by
  cases x with
  | ok a => exact .ok rfl
  | error f => exact .error rfl

protected theorem bind {x : Except QueryFault α} {y : Except QueryFault β}
    {f : α → Except QueryFault γ} {g : β → Except QueryFault δ} (h : SameOutcome R x y)
    (hfg : ∀ a b, R a b → SameOutcome S (f a) (g b)) : SameOutcome S (x >>= f) (y >>= g) := by
  cases h with
  | ok hab => exact hfg _ _ hab
  | error hk => exact .error hk

/-- Steps on an equal result. -/
protected theorem bind_eq {x y : Except QueryFault α} {f : α → Except QueryFault γ}
    {g : α → Except QueryFault δ} (h : SameOutcome Eq x y)
    (hfg : ∀ a, SameOutcome S (f a) (g a)) : SameOutcome S (x >>= f) (y >>= g) := by
  refine h.bind fun a b hab => ?_
  cases hab
  exact hfg a

protected theorem map {x y : Except QueryFault α} (h : SameOutcome Eq x y) (f : α → β) :
    SameOutcome Eq (x >>= fun a => pure (f a)) (y >>= fun a => pure (f a)) :=
  h.bind_eq fun _ => .ok rfl

protected theorem mapM {f : α → Except QueryFault γ} {g : β → Except QueryFault γ} {l : List α}
    {l' : List β} (h : List.Forall₂ R l l') (hfg : ∀ a b, R a b → SameOutcome Eq (f a) (g b)) :
    SameOutcome Eq (l.mapM f) (l'.mapM g) := by
  induction h with
  | nil => exact .ok rfl
  | cons hab _ ih =>
    rw [List.mapM_cons, List.mapM_cons]
    exact (hfg _ _ hab).bind_eq fun _ => ih.map _

/-- The runs of related operations from related states. -/
protected theorem foldlM {f : γ → α → Except QueryFault γ} {g : δ → β → Except QueryFault δ}
    {l : List α} {l' : List β} (h : List.Forall₂ R l l')
    (hfg : ∀ c d a b, S c d → R a b → SameOutcome S (f c a) (g d b)) {c : γ} {d : δ}
    (hcd : S c d) : SameOutcome S (l.foldlM f c) (l'.foldlM g d) := by
  induction h generalizing c d with
  | nil => exact .ok hcd
  | cons hab _ ih =>
    rw [List.foldlM_cons, List.foldlM_cons]
    exact (hfg _ _ _ _ hcd hab).bind fun _ _ hs => ih hs

end SameOutcome

namespace Expr

mutual

/-- The second expression is the first with any number of casts around any of its nodes. -/
inductive Wraps : Expr → Expr → Prop
  | node {e e' : Expr} (h : WrapsNode e e') : Wraps e e'
  | inner {e e' : Expr} {type : NativeType} (h : Wraps e e') : Wraps (.cast e type) (.cast e' type)
  | outer {e e' : Expr} {type : NativeType} (h : Wraps e e') : Wraps e (.cast e' type)

/-- Both are nodes of one kind, and the parts of the second are wrapped. -/
inductive WrapsNode : Expr → Expr → Prop
  | conj {l l' r r' : Expr} (hl : Wraps l l') (hr : Wraps r r') :
      WrapsNode (.conj l r) (.conj l' r')
  | disj {l l' r r' : Expr} (hl : Wraps l l') (hr : Wraps r r') :
      WrapsNode (.disj l r) (.disj l' r')
  | neg {e e' : Expr} (h : Wraps e e') : WrapsNode (.neg e) (.neg e')
  | binary {op : Operator} {l l' r r' : Expr} (hl : Wraps l l') (hr : Wraps r r') :
      WrapsNode (.binary op l r) (.binary op l' r')
  | field {name : String} : WrapsNode (.field name) (.field name)
  | call {name : String} {args args' : List Expr} (h : List.Forall₂ Wraps args args') :
      WrapsNode (.call name args) (.call name args')
  | hasValue {e e' : Expr} (h : Wraps e e') : WrapsNode (.hasValue e) (.hasValue e')
  | nullTest {negated : Bool} {e e' : Expr} (h : Wraps e e') :
      WrapsNode (.nullTest negated e) (.nullTest negated e')
  | member {e e' list list' : Expr} (h : Wraps e e') (hlist : Wraps list list') :
      WrapsNode (.member e list) (.member e' list')
  | pattern {kind : PatternKind} {e e' text text' : Expr} (h : Wraps e e')
      (htext : Wraps text text') : WrapsNode (.pattern kind e text) (.pattern kind e' text')
  | record {fields fields' : List (String × Expr)}
      (hlabels : fields'.map Prod.fst = fields.map Prod.fst)
      (h : List.Forall₂ Wraps (fields.map Prod.snd) (fields'.map Prod.snd)) :
      WrapsNode (.record fields) (.record fields')
  | constant {v : Value} : WrapsNode (.constant v) (.constant v)
  | vectorDistance {e e' vector vector' : Expr} (h : Wraps e e') (hvector : Wraps vector vector') :
      WrapsNode (.vectorDistance e vector) (.vectorDistance e' vector')

end

theorem WrapsNode.stripCasts {e e' : Expr} (h : WrapsNode e e') :
    WrapsNode e.stripCasts e'.stripCasts := by
  cases h with
  | conj hl hr => exact .conj hl hr
  | disj hl hr => exact .disj hl hr
  | neg h => exact .neg h
  | binary hl hr => exact .binary hl hr
  | field => exact .field
  | call h => exact .call h
  | hasValue h => exact .hasValue h
  | nullTest h => exact .nullTest h
  | member h hlist => exact .member h hlist
  | pattern h htext => exact .pattern h htext
  | record hlabels h => exact .record hlabels h
  | constant => exact .constant
  | vectorDistance h hvector => exact .vectorDistance h hvector

/-- The entries of wrapped records, in pairs. -/
theorem forall₂_entries {fields fields' : List (String × Expr)}
    (hlabels : fields'.map Prod.fst = fields.map Prod.fst)
    (h : List.Forall₂ Wraps (fields.map Prod.snd) (fields'.map Prod.snd)) :
    List.Forall₂ (fun f g => g.1 = f.1 ∧ Wraps f.2 g.2) fields fields' := by
  induction fields generalizing fields' with
  | nil =>
    rw [List.map_eq_nil_iff.1 hlabels]
    exact .nil
  | cons f fields ih =>
    cases fields' with
    | nil => cases h
    | cons g fields' =>
      obtain ⟨hlabel, hlabels⟩ := List.cons.inj hlabels
      obtain ⟨hfg, h⟩ := List.forall₂_cons.1 h
      exact .cons ⟨hlabel, hfg⟩ (ih hlabels h)

/-- Under their casts stand nodes of one kind. -/
theorem Wraps.stripCasts {e e' : Expr} : Wraps e e' → WrapsNode e.stripCasts e'.stripCasts
  | .node h => h.stripCasts
  | .inner h => h.stripCasts
  | .outer h => h.stripCasts

variable {m : Mapping} {e e' : Expr}

theorem Wraps.isNullConstant (h : Wraps e e') :
    e'.stripCasts.isNullConstant = e.stripCasts.isNullConstant := by
  have hs := h.stripCasts
  generalize e.stripCasts = s, e'.stripCasts = s' at hs ⊢
  cases hs <;> rfl

theorem Wraps.memberItems (h : Wraps e e') : SameOutcome Eq e.memberItems e'.memberItems := by
  have hs := h.stripCasts
  unfold Expr.memberItems
  generalize e.stripCasts = s, e'.stripCasts = s' at hs ⊢
  cases hs with
  | @constant v =>
    cases v with
    | list items => cases items <;> exact .refl _
    | _ => exact .error rfl
  | _ => exact .error rfl

theorem Wraps.patternText {kind : PatternKind} (h : Wraps e e') :
    SameOutcome Eq (e.patternText kind) (e'.patternText kind) := by
  have hs := h.stripCasts
  unfold Expr.patternText
  generalize e.stripCasts = s, e'.stripCasts = s' at hs ⊢
  cases hs with
  | constant => exact .refl _
  | _ => exact .error rfl

theorem Wraps.testedSide? {op : Operator} {l l' r r' : Expr} (hl : Wraps l l') (hr : Wraps r r') :
    Expr.testedSide? op l' r' = Expr.testedSide? op l r := by
  rw [Expr.testedSide?, Expr.testedSide?, hl.isNullConstant, hr.isNullConstant]

theorem Wraps.likeFilter {kind : PatternKind} {text text' : Expr} (h : Wraps e e')
    (htext : Wraps text text') :
    SameOutcome Eq ((pattern kind e text).toFilter m) ((pattern kind e' text').toFilter m) := by
  have hs := h.stripCasts
  rw [Expr.toFilter, Expr.toFilter]
  generalize e.stripCasts = s, e'.stripCasts = s' at hs ⊢
  cases hs with
  | field => exact htext.patternText.bind_eq fun _ => .refl _
  | _ => exact .error rfl

mutual

/-- A filter does not depend on casts. -/
theorem Wraps.toFilter {e e' : Expr} :
    Wraps e e' → SameOutcome Eq (e.toFilter m) (e'.toFilter m)
  | .node h => h.toFilter
  | .inner h => by
    rw [Expr.toFilter, Expr.toFilter]
    exact h.toFilter
  | .outer h => by
    rw [Expr.toFilter.eq_def m (.cast _ _)]
    exact h.toFilter

theorem WrapsNode.toFilter {e e' : Expr} :
    WrapsNode e e' → SameOutcome Eq (e.toFilter m) (e'.toFilter m)
  | .conj hl hr | .disj hl hr => by
    rw [Expr.toFilter, Expr.toFilter]
    exact hl.toFilter.bind_eq fun _ => hr.toFilter.map _
  | .neg h | .hasValue h | .nullTest h => by
    rw [Expr.toFilter, Expr.toFilter]
    exact h.toFilter.map _
  | .binary hl hr => by
    rw [Expr.toFilter, Expr.toFilter, hl.testedSide? hr]
    split
    · exact hl.toFilter.map _
    · exact hr.toFilter.map _
    · split
      · exact .error rfl
      · exact hl.toFilter.bind_eq fun _ => hr.toFilter.map _
  | .member h hlist => by
    rw [Expr.toFilter, Expr.toFilter]
    exact hlist.memberItems.bind_eq fun _ => h.toFilter.map _
  | .pattern h htext => h.likeFilter htext
  | .field | .constant => .refl _
  | .call _ | .record .. | .vectorDistance .. => .error rfl

end

end Expr

/-- The operations are the same, and the expressions of the second are wrapped. -/
inductive QueryOp.Wraps : QueryOp → QueryOp → Prop
  | filter {p p' : Expr} (h : p.Wraps p') : Wraps (.filter p) (.filter p')
  | select {e e' : Expr} (h : e.Wraps e') : Wraps (.select e) (.select e')
  | orderBy {key key' : Expr} {direction : Direction} (h : key.Wraps key') :
      Wraps (.orderBy key direction) (.orderBy key' direction)
  | thenBy {key key' : Expr} {direction : Direction} (h : key.Wraps key') :
      Wraps (.thenBy key direction) (.thenBy key' direction)
  | take {n n' : Expr} (h : n.Wraps n') : Wraps (.take n) (.take n')
  | skip {n n' : Expr} (h : n.Wraps n') : Wraps (.skip n) (.skip n')
  | count {p p' : Option Expr} (h : Option.Rel Expr.Wraps p p') : Wraps (.count p) (.count p')
  | sum {e e' : Expr} (h : e.Wraps e') : Wraps (.sum e) (.sum e')
  | first {p p' : Option Expr} (h : Option.Rel Expr.Wraps p p') : Wraps (.first p) (.first p')

/-- The queries are the same, and the expressions of the second are wrapped. -/
structure Query.Wraps (q q' : Query) : Prop where
  source : q'.source = q.source
  ops : List.Forall₂ QueryOp.Wraps q.ops q'.ops

namespace QueryPlan

/-- The plans differ in the casts of their predicates. -/
def Wraps (plan plan' : QueryPlan) : Prop :=
  ∃ filters, List.Forall₂ Expr.Wraps plan.filters filters ∧ plan' = { plan with filters }

variable {m : Mapping} {capability : Capability} {e e' : Expr}

theorem sameOutcome_projectedColumn {label : String} (h : e.Wraps e') :
    SameOutcome Eq (projectedColumn m label e) (projectedColumn m label e') := by
  have hs := h.stripCasts
  unfold projectedColumn
  generalize e.stripCasts = s, e'.stripCasts = s' at hs ⊢
  cases hs with
  | field => exact .refl _
  | _ => exact .error rfl

theorem sameOutcome_projectedColumns (h : e.Wraps e') :
    SameOutcome Eq (projectedColumns m e) (projectedColumns m e') := by
  have hs := h.stripCasts
  unfold projectedColumns
  generalize e.stripCasts = s, e'.stripCasts = s' at hs ⊢
  cases hs with
  | field => exact .refl _
  | record hlabels h =>
    refine SameOutcome.mapM (Expr.forall₂_entries hlabels h) ?_
    rintro ⟨label, e⟩ ⟨_, e'⟩ ⟨rfl, h⟩
    exact sameOutcome_projectedColumn h
  | _ => exact .error rfl

theorem sameOutcome_orderKey (h : e.Wraps e') :
    SameOutcome Eq (orderKey capability m e) (orderKey capability m e') := by
  have hs := h.stripCasts
  unfold orderKey
  generalize e.stripCasts = s, e'.stripCasts = s' at hs ⊢
  cases hs with
  | field => exact .refl _
  | @vectorDistance operand operand' vector vector' ho hv =>
    dsimp only
    split
    · exact .error rfl
    · replace ho := ho.stripCasts
      replace hv := hv.stripCasts
      generalize operand.stripCasts = o, operand'.stripCasts = o' at ho ⊢
      generalize vector.stripCasts = v, vector'.stripCasts = v' at hv ⊢
      cases ho with
      | field =>
        cases hv with
        | constant => exact .refl _
        | _ => exact .error rfl
      | _ => exact .error rfl
  | _ => exact .error rfl

theorem sameOutcome_rowCount {op : PageOp} (h : e.Wraps e') :
    SameOutcome Eq (rowCount op e) (rowCount op e') := by
  have hs := h.stripCasts
  unfold rowCount
  generalize e.stripCasts = s, e'.stripCasts = s' at hs ⊢
  cases hs with
  | constant => exact .refl _
  | _ => exact .error rfl

theorem sameOutcome_sumColumn (h : e.Wraps e') :
    SameOutcome Eq (sumColumn m e) (sumColumn m e') := by
  have hs := h.stripCasts
  unfold sumColumn
  generalize e.stripCasts = s, e'.stripCasts = s' at hs ⊢
  cases hs with
  | field => exact .refl _
  | _ => exact .error rfl

theorem sameOutcome_apply {plan plan' : QueryPlan} {op op' : QueryOp} (h : plan.Wraps plan')
    (hop : op.Wraps op') :
    SameOutcome Wraps (plan.apply capability op) (plan'.apply capability op') := by
  obtain ⟨filters, hf, rfl⟩ := h
  cases hop with
  | filter h => exact .ok ⟨_, List.rel_append hf (.cons h .nil), rfl⟩
  | select h => exact (sameOutcome_projectedColumns h).bind_eq fun _ => .ok ⟨_, hf, rfl⟩
  | orderBy h | thenBy h => exact (sameOutcome_orderKey h).bind_eq fun _ => .ok ⟨_, hf, rfl⟩
  | take h | skip h => exact (sameOutcome_rowCount h).bind_eq fun _ => .ok ⟨_, hf, rfl⟩
  | count h | first h =>
    refine .ok ⟨_, List.rel_append hf ?_, rfl⟩
    cases h with
    | some h => exact .cons h .nil
    | none => exact .nil
  | sum h => exact (sameOutcome_sumColumn h).bind_eq fun _ => .ok ⟨_, hf, rfl⟩

theorem sameOutcome_toSelect {plan plan' : QueryPlan} (h : plan.Wraps plan') :
    SameOutcome Eq plan.toSelect plan'.toSelect := by
  obtain ⟨filters, hf, rfl⟩ := h
  exact (SameOutcome.mapM hf fun _ _ h => h.toFilter).map _

end QueryPlan

variable {catalog : Catalog} {capability : Capability} {q q' : Query}

theorem Query.Wraps.ofQuery (h : q.Wraps q') :
    SameOutcome QueryPlan.Wraps (QueryPlan.ofQuery catalog capability q)
      (QueryPlan.ofQuery catalog capability q') := by
  rw [QueryPlan.ofQuery, QueryPlan.ofQuery, h.source]
  cases catalog.resolve q.source with
  | error cause => exact .error rfl
  | ok m =>
    simp only [pure_bind]
    split
    · exact .error rfl
    · refine (SameOutcome.refl _).bind_eq fun joins => ?_
      exact SameOutcome.foldlM h.ops (fun _ _ _ _ => QueryPlan.sameOutcome_apply) ⟨[], .nil, rfl⟩

theorem Query.Wraps.toSelect (h : q.Wraps q') :
    SameOutcome Eq (q.toSelect catalog capability) (q'.toSelect catalog capability) :=
  h.ofQuery.bind fun _ _ => QueryPlan.sameOutcome_toSelect

/-- Casts change neither the text and the parameters of a statement nor the kind of its error. -/
theorem serialize_of_wraps {given : List Value} (h : q.Wraps q') :
    ((Statement.query q').serialize catalog capability given).mapError Error.kind =
      ((Statement.query q).serialize catalog capability given).mapError Error.kind := by
  rw [Statement.serialize, Statement.serialize, Statement.fragments, Statement.fragments]
  have hs : SameOutcome Eq (q.toSelect catalog capability) (q'.toSelect catalog capability) :=
    h.toSelect
  generalize q.toSelect catalog capability = s, q'.toSelect catalog capability = s' at hs ⊢
  cases hs with
  | ok heq =>
    cases heq
    rfl
  | error hk => exact congrArg Except.error hk.symm

/-- A comparison with null under a cast is a null test still. -/
theorem serialize_nameless :
    let q : Query := ⟨⟨"Author", 1⟩, [.filter (.binary .eq (.field "name") (.constant .null)),
      .take (.constant (.u64 QueryPlan.one))]⟩
    let q' : Query := ⟨⟨"Author", 1⟩, [
      .filter (.cast (.binary .eq (.field "name") (.cast (.constant .null) .string)) .bool),
      .take (.cast (.constant (.u64 QueryPlan.one)) (.int .i32))]⟩
    q.Wraps q' ∧ ((Statement.query q').serialize blog .full).mapError Error.kind =
      .ok ⟨"SELECT authors.* FROM authors WHERE (name IS NULL) LIMIT 1;", []⟩ := by
  intro q q'
  have hcomparison : Expr.Wraps (.binary .eq (.field "name") (.constant .null))
      (.cast (.binary .eq (.field "name") (.cast (.constant .null) .string)) .bool) :=
    .outer (.node (.binary (.node .field) (.outer (.node .constant))))
  have hcount : Expr.Wraps (.constant (.u64 QueryPlan.one))
      (.cast (.constant (.u64 QueryPlan.one)) (.int .i32)) := .outer (.node .constant)
  have h : q.Wraps q' := ⟨rfl, .cons (.filter hcomparison) (.cons (.take hcount) .nil)⟩
  refine ⟨h, ?_⟩
  rw [serialize_of_wraps h]
  rfl

end RecordMapper
