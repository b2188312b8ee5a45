import RecordMapper.Pipeline.Request
import RecordMapper.Proofs.Query.Grammar
import RecordMapper.Proofs.Statement.Parameters
import RecordMapper.Proofs.Statement.RowKey
/-!
Which statements can be sent. What the rows of records bind is never a list, and no more is what a
predicate binds but for the items of its membership tests.
-/

namespace RecordMapper

open Sql

/-- The items of the membership tests in a predicate. -/
def Expr.members : Expr → List Value
  | conj l r | disj l r | binary _ l r => l.members ++ r.members
  | neg e | cast e _ | hasValue e | nullTest _ e => e.members
  | member e list => e.members ++ list.listItems
  | _ => []

/-- The items of all membership tests in a statement. -/
def Statement.members : Statement → List Value
  | query q => (q.ops.flatMap QueryOp.predicates).flatMap Expr.members
  | _ => []

/-- The statement writes or deletes the row of a record. -/
def Statement.OfRecord (s : Statement) : Prop :=
  ∃ (m : Mapping) (r : Record),
    m.insertStatement r = .ok s ∨ m.updateStatement r = .ok s ∨ m.deleteStatement r = .ok s

/-- The request carries the text of a statement and an argument for each of its parameters. -/
def Statement.Serialized.SentAs (out : Serialized) (request : StreamRequest) : Prop :=
  ∃ args, List.Forall₂ (fun v a => Argument.ofValue v = .ok a) out.params args ∧
    request = .execute out.text args

theorem Argument.exists_ofValue_iff {v : Value} :
    (∃ a, ofValue v = .ok a) ↔ v.isList = false := by
  cases v <;> simp [ofValue, Value.isList]

/-! ### What is bound -/

namespace Expr

theorem members_stripCasts (e : Expr) : e.stripCasts.members = e.members :=
  apply_stripCasts (fun _ _ => by rw [members]) e

theorem members_of_null {e : Expr} (h : e.stripCasts = .constant .null) : e.members = [] := by
  rw [← members_stripCasts, h]
  rfl

end Expr

/-- A predicate binds no lists but those that its membership tests have as items. -/
theorem flat_constants_iff {m : Mapping} {e : Expr} {f : Filter} (h : Lowers m e f) :
    (∀ v ∈ e.constants, v.isList = false) ↔ ∀ v ∈ e.members, v.isList = false := by
  induction h with
  | conj _ _ ihl ihr | disj _ _ ihl ihr | binary _ _ _ _ ihl ihr =>
    simp only [Expr.constants, Expr.members, List.forall_mem_append, ihl, ihr]
  | neg _ ih | cast _ ih | hasValue _ ih | nullTest _ ih => exact ih
  | nullRight hs _ ih =>
    have hr := (Expr.testedSide?_spec hs).2
    rw [Expr.constants, Expr.members, Expr.constants_of_null hr, Expr.members_of_null hr,
      List.append_nil, List.append_nil]
    exact ih
  | nullLeft hs _ ih =>
    have hl := (Expr.testedSide?_spec hs).2
    rw [Expr.constants, Expr.members, Expr.constants_of_null hl, Expr.members_of_null hl,
      List.nil_append, List.nil_append]
    exact ih
  | member _ _ _ ih => simp only [Expr.constants, Expr.members, List.forall_mem_append, ih]
  | field | null => exact Iff.rfl
  | pattern => simp [Expr.constants, Expr.members, Value.isList]
  | @bound v hn hl =>
    cases v <;> simp_all [Expr.constants, Expr.members, Value.isNull, Value.isList]

theorem Field.isList_value (f : Field) : f.value.isList = false :=
  Argument.exists_ofValue_iff.1 f.exists_ofValue

namespace Mapping

variable {m : Mapping} {r : Record}

theorem isList_fieldValue {c : Column} {v : Value} (h : m.fieldValue r c = .ok v) :
    v.isList = false := by
  rw [fieldValue] at h
  split at h
  next w hw =>
    cases h
    obtain ⟨f, _, rfl⟩ := Option.map_eq_some_iff.1 hw
    exact f.isList_value
  next => cases h

theorem isList_fieldValues {columns : List Column} {values : List Value}
    (h : columns.mapM (m.fieldValue r) = .ok values) : ∀ v ∈ values, v.isList = false := by
  intro v hv
  obtain ⟨c, _, hc⟩ := exists_mem_of_forall₂ (mapM_eq_ok_iff.1 h) hv
  exact isList_fieldValue hc

theorem isList_keyValue {key : Column} {v : Value} (h : m.keyValue r = .ok (key, v)) :
    v.isList = false := by
  rw [keyValue] at h
  split at h
  next =>
    obtain ⟨_, hv, he⟩ := bind_pure_eq_ok_iff.1 h
    cases he
    exact isList_fieldValue hv
  next => cases h

end Mapping

theorem Statement.OfRecord.isList_constants {s : Statement} (h : s.OfRecord) :
    (∀ v ∈ s.constants, v.isList = false) ∧ s.members = [] := by
  obtain ⟨m, r, h | h | h⟩ := h
  · obtain ⟨values, hv, rfl⟩ := bind_pure_eq_ok_iff.1 h
    exact ⟨Mapping.isList_fieldValues hv, rfl⟩
  · obtain ⟨⟨key, v⟩, hk, h⟩ := bind_eq_ok_iff.1 h
    obtain ⟨values, hv, h⟩ := bind_eq_ok_iff.1 h
    dsimp only at h
    split at h
    next => cases h
    next =>
      cases pure_eq_ok_iff.1 h
      refine ⟨?_, rfl⟩
      rw [constants, List.forall_mem_append, List.forall_mem_singleton]
      refine ⟨fun w hw => ?_, Mapping.isList_keyValue hk⟩
      simp only [List.map_map, List.mem_map] at hw
      obtain ⟨⟨c, _⟩, hw, rfl⟩ := hw
      exact Mapping.isList_fieldValues hv _ (List.of_mem_zip (List.mem_of_mem_filter hw)).2
  · obtain ⟨⟨key, v⟩, hk, rfl⟩ := bind_pure_eq_ok_iff.1 h
    exact ⟨List.forall_mem_singleton.2 (Mapping.isList_keyValue hk), rfl⟩

variable {catalog : Catalog} {capability : Capability} {s : Statement}

/-- The predicates of a query that has a select statement become filters. -/
theorem Query.exists_lowers {q : Query} {select : Select}
    (h : q.toSelect catalog capability = .ok select) {p : Expr}
    (hp : p ∈ q.ops.flatMap QueryOp.predicates) : ∃ m f, Lowers m p f := by
  obtain ⟨m, hm⟩ := exists_root_of_toSelect h
  obtain ⟨plan, hplan, h⟩ := bind_eq_ok_iff.1 h
  obtain ⟨joins, _, hops⟩ := exists_joins_of_ofQuery hm hplan
  obtain ⟨filters, hf, _⟩ := bind_pure_eq_ok_iff.1 h
  rw [QueryPlan.filters_foldlM hops, List.nil_append] at hf
  obtain ⟨f, hf⟩ := exists_mapM_iff.1 ⟨filters, hf⟩ p hp
  exact ⟨plan.mapping, f, lowers_of_toFilter hf⟩

theorem Query.flat_constants_iff {q : Query} {select : Select}
    (h : q.toSelect catalog capability = .ok select) :
    (∀ v ∈ q.constants, v.isList = false) ↔
      ∀ v ∈ (Statement.query q).members, v.isList = false := by
  have hsplit (f : Expr → List Value) :
      (∀ v ∈ (q.ops.flatMap QueryOp.predicates).flatMap f, v.isList = false) ↔
        ∀ p ∈ q.ops.flatMap QueryOp.predicates, ∀ v ∈ f p, v.isList = false :=
    List.forall_mem_flatMap
  rw [constants, Statement.members, hsplit, hsplit]
  refine forall₂_congr fun p hp => ?_
  obtain ⟨m, f, hf⟩ := exists_lowers h hp
  exact RecordMapper.flat_constants_iff hf

/-- A query or the statement of a record binds no lists but items of membership tests. -/
theorem Statement.flat_params_iff {out : Serialized} (hs : (∃ q, s = query q) ∨ s.OfRecord)
    (h : s.serialize catalog capability = .ok out) :
    (∀ v ∈ out.params, v.isList = false) ↔ ∀ v ∈ s.members, v.isList = false := by
  obtain ⟨fs, hfs, rfl⟩ := bind_pure_eq_ok_iff.1 h
  rw [foldl_write, paramsOf_fragments hfs, List.nil_append]
  rcases hs with ⟨q, rfl⟩ | hs
  · rw [fragments] at hfs
    split at hfs
    next select hselect => exact Query.flat_constants_iff hselect
    next => cases hfs
  · obtain ⟨hflat, hmembers⟩ := hs.isList_constants
    rw [hmembers]
    exact iff_of_true hflat (List.forall_mem_nil _)

/-! ### What is sent -/

namespace PipelineRequest

open Statement (Serialized)

variable {out : Serialized} {r : PipelineRequest} {statements : List Statement}
  {outs : List Serialized}

theorem executeStatement_of_flat (hs : s.serialize catalog capability = .ok out)
    (hflat : ∀ v ∈ out.params, v.isList = false) :
    ∃ request, out.SentAs request ∧ r.executeStatement catalog capability s =
      .ok { r with requests := r.requests ++ [request] } := by
  obtain ⟨args, hargs⟩ := exists_mapM_iff.2 fun v hv => Argument.exists_ofValue_iff.2 (hflat v hv)
  refine ⟨_, ⟨args, mapM_eq_ok_iff.1 hargs, rfl⟩, ?_⟩
  rw [executeStatement, hs]
  change (r.execute out.text out.params).mapError ArgumentFault.toError = _
  rw [execute, hargs]
  rfl

theorem executeStatement_of_list (hs : s.serialize catalog capability = .ok out)
    (hlist : ¬∀ v ∈ out.params, v.isList = false) :
    r.executeStatement catalog capability s = .error ArgumentFault.list.toError := by
  rw [executeStatement, hs]
  change (r.execute out.text out.params).mapError ArgumentFault.toError = _
  rw [execute]
  cases hargs : out.params.mapM Argument.ofValue with
  | ok args =>
    have hall := exists_mapM_iff.1 ⟨args, hargs⟩
    exact absurd (fun v hv => Argument.exists_ofValue_iff.1 (hall v hv)) hlist
  | error fault =>
    cases fault
    rfl

/-- All statements are sent if none of them binds a list. -/
theorem execute_all (hs : List.Forall₂ (fun s out => s.serialize catalog capability = .ok out)
      statements outs) (hflat : ∀ out ∈ outs, ∀ v ∈ out.params, v.isList = false) :
    ∃ requests, List.Forall₂ Serialized.SentAs outs requests ∧
      statements.foldlM (executeStatement catalog capability) r =
        .ok { r with requests := r.requests ++ requests } := by
  induction hs generalizing r with
  | nil => exact ⟨[], .nil, by rw [List.append_nil]; rfl⟩
  | @cons s out statements outs h _ ih =>
    obtain ⟨hout, houts⟩ := List.forall_mem_cons.1 hflat
    obtain ⟨request, hsent, hstep⟩ := executeStatement_of_flat h hout
    obtain ⟨requests, hrest, hrun⟩ := ih houts
    refine ⟨request :: requests, .cons hsent hrest, ?_⟩
    rw [List.foldlM_cons, hstep]
    refine hrun.trans ?_
    rw [List.append_assoc, List.singleton_append]

/-- One list that is bound stops them all. -/
theorem execute_none (hs : List.Forall₂ (fun s out => s.serialize catalog capability = .ok out)
      statements outs) (hlist : ¬∀ out ∈ outs, ∀ v ∈ out.params, v.isList = false) :
    statements.foldlM (executeStatement catalog capability) r =
      .error ArgumentFault.list.toError := by
  induction hs generalizing r with
  | nil => exact absurd (List.forall_mem_nil _) hlist
  | @cons s out statements outs h _ ih =>
    rw [List.foldlM_cons]
    by_cases hout : ∀ v ∈ out.params, v.isList = false
    · have houts : ¬∀ out ∈ outs, ∀ v ∈ out.params, v.isList = false := fun houts =>
        hlist (List.forall_mem_cons.2 ⟨hout, houts⟩)
      obtain ⟨request, _, hstep⟩ := executeStatement_of_flat h hout
      rw [hstep]
      exact ih houts
    · rw [executeStatement_of_list h hout]
      rfl

theorem flat_outs_iff (hs : List.Forall₂ (fun s out => s.serialize catalog capability = .ok out)
      statements outs) (hrows : ∀ s ∈ statements, (∃ q, s = .query q) ∨ s.OfRecord) :
    (∀ out ∈ outs, ∀ v ∈ out.params, v.isList = false) ↔
      ∀ s ∈ statements, ∀ v ∈ s.members, v.isList = false := by
  induction hs with
  | nil => simp
  | cons h _ ih =>
    obtain ⟨hrow, hrows⟩ := List.forall_mem_cons.1 hrows
    rw [List.forall_mem_cons, List.forall_mem_cons, Statement.flat_params_iff hrow h, ih hrows]

theorem SentAs.flat {request : StreamRequest} (h : out.SentAs request) :
    ∀ v ∈ out.params, v.isList = false := by
  obtain ⟨args, hargs, _⟩ := h
  have hall := exists_mapM_iff.1 ⟨args, mapM_eq_ok_iff.2 hargs⟩
  exact fun v hv => Argument.exists_ofValue_iff.1 (hall v hv)

end PipelineRequest

/-- Statements that serialize one by one are sent together, each with an argument for each of its
parameters, exactly if no item of a membership test is a list. -/
theorem PipelineRequest.ofStatements_iff {statements : List Statement}
    {outs : List Statement.Serialized}
    (hrows : ∀ s ∈ statements, (∃ q, s = .query q) ∨ s.OfRecord)
    (h : statements.mapM (fun s => s.serialize catalog capability) = .ok outs) :
    ((∃ requests, List.Forall₂ Statement.Serialized.SentAs outs requests ∧
        ofStatements catalog capability statements = .ok ⟨none, requests ++ [.close]⟩) ↔
      ∀ s ∈ statements, ∀ v ∈ s.members, v.isList = false) ∧
    ((¬∀ s ∈ statements, ∀ v ∈ s.members, v.isList = false) →
      ofStatements catalog capability statements = .error ArgumentFault.list.toError) := by
  have hs := mapM_eq_ok_iff.1 h
  rw [← flat_outs_iff hs hrows]
  refine ⟨⟨?_, fun hflat => ?_⟩, fun hlist => ?_⟩
  · rintro ⟨requests, hsent, _⟩ out hout
    obtain ⟨request, _, hrequest⟩ := exists_mem_of_forall₂ hsent.flip hout
    exact SentAs.flat hrequest
  · obtain ⟨requests, hsent, hrun⟩ := execute_all (r := {}) hs hflat
    refine ⟨requests, hsent, ?_⟩
    rw [ofStatements, hrun]
    rfl
  · rw [ofStatements, execute_none hs hlist]
    rfl

def notes : Declaration where
  name := "Note"
  table := some "notes"
  columns := [
    { field := "id", storage := .integer, primaryKey := true },
    { field := "title", storage := .text }]

def note : Record := [
  ⟨"id", .int .i64, .required ⟨7, by decide, by decide⟩, false⟩,
  ⟨"title", .string, .required "Draft", false⟩]

/-- A new note and a query for two keys, one of which is null, are sent together. -/
theorem ofStatements_notes :
    let q : Query := ⟨⟨"Note", 0⟩, [.filter (.member (.field "id")
      (.constant (.list [.i64 ⟨7, by decide, by decide⟩, .null])))]⟩
    let statements : List Statement :=
      [.insert (.simple "notes") [.simple "title"] [.text "Draft"], .query q]
    ∃ outs requests, statements.mapM (fun s => s.serialize [.declared notes] .full) = .ok outs ∧
      List.Forall₂ Statement.Serialized.SentAs outs requests ∧
      PipelineRequest.ofStatements [.declared notes] .full statements =
        .ok ⟨none, requests ++ [.close]⟩ := by
  intro q statements
  obtain ⟨outs, h⟩ : ∃ outs,
      statements.mapM (fun s => s.serialize [.declared notes] .full) = .ok outs := ⟨_, rfl⟩
  have hrows : ∀ s ∈ statements, (∃ q, s = .query q) ∨ s.OfRecord := by
    rw [List.forall_mem_cons, List.forall_mem_singleton]
    exact ⟨.inr ⟨notes.assemble, note, .inl rfl⟩, .inl ⟨q, rfl⟩⟩
  have hflat : ∀ s ∈ statements, ∀ v ∈ s.members, v.isList = false := by decide +kernel
  obtain ⟨requests, hsent, hrun⟩ := (PipelineRequest.ofStatements_iff hrows h).1.2 hflat
  exact ⟨outs, requests, h, hsent, hrun⟩

/-- A list among the keys of a query is bound as a parameter, and no argument can carry it. -/
theorem nested_list_not_sent :
    let q : Query := ⟨⟨"Note", 0⟩, [.filter (.member (.field "id")
      (.constant (.list [.list [.i64 ⟨7, by decide, by decide⟩]])))]⟩
    ∃ out, (Statement.query q).serialize [.declared notes] .full = .ok out ∧
      PipelineRequest.ofStatements [.declared notes] .full [.query q] =
        .error ArgumentFault.list.toError := by
  intro q
  exact ⟨_, rfl, rfl⟩

end RecordMapper
