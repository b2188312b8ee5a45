import RecordMapper.Proofs.Query.Clauses
/-!
Whether a query is an aggregate. The chain goes by its last operation, and the statement by the last
operation that says what the rows are.
-/

namespace RecordMapper

open Sql

/-- The last result comes from the last element that has one. -/
theorem getLast?_filterMap_eq_some_iff {α β : Type} {f : α → Option β} {l : List α} {b : β} :
    (l.filterMap f).getLast? = some b ↔
      ∃ before a after, l = before ++ a :: after ∧ f a = some b ∧ ∀ x ∈ after, f x = none := by
  induction l using List.reverseRecOn with
  | nil => simp
  | append_singleton l a ih =>
    rw [getLast?_filterMap_concat]
    constructor
    · intro h
      rcases Option.or_eq_some_iff.1 h with h | ⟨hn, h⟩
      · exact ⟨l, a, [], rfl, h, by simp⟩
      · obtain ⟨before, x, after, rfl, hx, hafter⟩ := ih.1 h
        refine ⟨before, x, after ++ [a], by simp, hx, fun y hy => ?_⟩
        rcases List.mem_append.1 hy with hy | hy
        · exact hafter y hy
        · rw [List.mem_singleton.1 hy, hn]
    · rintro ⟨before, x, after, h, hx, hafter⟩
      rcases List.eq_nil_or_concat after with rfl | ⟨after, y, rfl⟩
      · have hlast : a = x := List.singleton_inj.1 (List.append_inj' h rfl).2
        rw [hlast, hx, Option.some_or]
      · rw [List.concat_eq_append, ← List.cons_append, ← List.append_assoc] at h
        obtain ⟨rfl, hy⟩ := List.append_inj' h rfl
        rw [List.singleton_inj.1 hy, hafter y (by simp), Option.none_or]
        exact ih.2 ⟨before, x, after, rfl, hx, fun z hz => hafter z (by simp [hz])⟩

/-- A count or a sum. -/
def QueryOp.isAggregate (op : QueryOp) : Bool := op.listing?.any Listing.isAggregate

namespace Query

variable {catalog : Catalog} {capability : Capability} {q : Query}

/-- A count or a sum is followed by operations that all leave the rows to it. -/
def ContinuesAggregate (q : Query) : Prop :=
  ∃ before op after, q.ops = before ++ op :: after ∧ op.isAggregate = true ∧ after ≠ [] ∧
    ∀ o ∈ after, o.listing? = none

theorem isAggregate_eq (q : Query) : q.isAggregate = q.ops.getLast?.any QueryOp.isAggregate := by
  rw [isAggregate]
  cases q.ops.getLast? with
  | none => rfl
  | some op => cases op <;> rfl

theorem isAggregate_concat {before : List QueryOp} {op : QueryOp} (h : q.ops = before ++ [op]) :
    q.isAggregate = op.isAggregate := by
  rw [isAggregate_eq, h, List.getLast?_concat, Option.any_some]

/-- The rows are those of the last operation when that says what they are. -/
theorem not_continuesAggregate {before : List QueryOp} {op : QueryOp} {l : Listing}
    (h : q.ops = before ++ [op]) (hl : op.listing? = some l) : ¬q.ContinuesAggregate := by
  rintro ⟨start, o, after, hops, _, hne, hafter⟩
  obtain ⟨after, last, rfl⟩ := (List.eq_nil_or_concat after).resolve_left hne
  rw [h, List.concat_eq_append, ← List.cons_append, ← List.append_assoc] at hops
  have hlast : op = last := List.singleton_inj.1 (List.append_inj' hops rfl).2
  rw [hlast, hafter last (by simp)] at hl
  cases hl

/-- The select list is an aggregate when a count or a sum has the last word on it. -/
theorem isAggregate_list_iff {s : Select} (h : q.toSelect catalog capability = .ok s) :
    s.list.isAggregate = true ↔
      ∃ before op after, q.ops = before ++ op :: after ∧ op.isAggregate = true ∧
        ∀ o ∈ after, o.listing? = none := by
  obtain ⟨m, hm⟩ := exists_root_of_toSelect h
  obtain ⟨plan, _, hf, _, hs⟩ := follows hm h
  obtain ⟨_, _, rfl⟩ := bind_pure_eq_ok_iff.1 hs
  rw [Clauses.isAggregate_selectList hf.list, Option.any_eq_true]
  constructor
  · rintro ⟨l, hl, ha⟩
    obtain ⟨before, op, after, hops, hop, hafter⟩ := getLast?_filterMap_eq_some_iff.1 hl
    exact ⟨before, op, after, hops, by rw [QueryOp.isAggregate, hop]; exact ha, hafter⟩
  · rintro ⟨before, op, after, hops, hop, hafter⟩
    obtain ⟨l, hl, ha⟩ := (Option.any_eq_true ..).1 hop
    exact ⟨l, getLast?_filterMap_eq_some_iff.2 ⟨before, op, after, hops, hl, hafter⟩, ha⟩

end Query

/-- The text of a select statement starts with its select list. -/
theorem Sql.Select.exists_textOf (s : Select) :
    ∃ rest, textOf s.fragments = "SELECT " ++ s.list.text ++ " FROM " ++ rest := by
  simp only [Clauses.textOf_select, String.append_assoc]
  exact ⟨_, rfl⟩

theorem Sql.SelectList.isAggregate_iff (list : SelectList) :
    list.isAggregate = true ↔ list = .count ∨ ∃ column, list = .sum column := by
  cases list <;> simp [isAggregate]

variable {catalog : Catalog} {capability : Capability} {q : Query}

/-- The chain and its statement agree on whether there is one row to read exactly when no count or
sum is followed by operations that leave the rows to it. -/
theorem Query.aggregate_agrees_iff {given : List Value} {out : Statement.Serialized}
    (h : (Statement.query q).serialize catalog capability given = .ok out) :
    ∃ s rest, q.toSelect catalog capability = .ok s ∧
      out.text = "SELECT " ++ s.list.text ++ " FROM " ++ rest ∧
      ((q.isAggregate = true ↔ s.list = .count ∨ ∃ column, s.list = .sum column) ↔
        ¬q.ContinuesAggregate) := by
  obtain ⟨s, hs, rfl⟩ := Statement.serialize_query_eq_ok h
  obtain ⟨rest, htext⟩ := s.exists_textOf
  refine ⟨s, rest ++ ";", hs, by rw [htext, String.append_assoc], ?_⟩
  rw [← SelectList.isAggregate_iff, isAggregate_list_iff hs]
  constructor
  · rintro hagree ⟨before, op, after, hops, hop, hne, hafter⟩
    -- What follows the aggregate ends in an operation that is none.
    obtain ⟨after, o, rfl⟩ := (List.eq_nil_or_concat after).resolve_left hne
    have ho : o.isAggregate = false := by
      rw [QueryOp.isAggregate, hafter o (by simp)]
      rfl
    have hend : q.ops = (before ++ op :: after) ++ [o] := by simp [hops]
    have hlast := hagree.2 ⟨before, op, _, hops, hop, hafter⟩
    rw [isAggregate_concat hend, ho] at hlast
    cases hlast
  · intro hno
    constructor
    · intro ha
      rw [isAggregate_eq, Option.any_eq_true] at ha
      obtain ⟨op, hlast, hop⟩ := ha
      obtain ⟨before, hops⟩ := List.getLast?_eq_some_iff.1 hlast
      exact ⟨before, op, [], hops, hop, by simp⟩
    · rintro ⟨before, op, after, hops, hop, hafter⟩
      have hnil : after = [] := by
        by_contra hne
        exact hno ⟨before, op, after, hops, hop, hne, hafter⟩
      rw [isAggregate_concat (hnil ▸ hops), hop]

/-- A projection after a count takes the rows back from it. -/
theorem aggregate_agrees_authors :
    let q : Query := ⟨⟨"Author", 1⟩,
      [.count none, .take (.constant (.u64 ⟨2, by decide, by decide⟩)), .select (.field "name")]⟩
    ∃ s, q.toSelect blog .full = .ok s ∧ ¬q.ContinuesAggregate ∧
      (q.isAggregate = true ↔ s.list = .count ∨ ∃ column, s.list = .sum column) := by
  intro q
  obtain ⟨out, h⟩ : ∃ out, (Statement.query q).serialize blog .full = .ok out := ⟨_, rfl⟩
  obtain ⟨s, _, hs, _, hiff⟩ := Query.aggregate_agrees_iff h
  have hops : q.ops = [_, _] ++ [.select (.field "name")] := rfl
  have hno : ¬q.ContinuesAggregate := Query.not_continuesAggregate hops rfl
  exact ⟨s, hs, hno, hiff.2 hno⟩

/-- A limit after a count hides from the chain that its statement counts. -/
theorem count_hidden_by_take :
    let q : Query := ⟨⟨"Author", 1⟩,
      [.count none, .take (.constant (.u64 ⟨2, by decide, by decide⟩))]⟩
    ∃ s out, q.toSelect blog .full = .ok s ∧ s.list = .count ∧
      (Statement.query q).serialize blog .full = .ok out ∧
      out.text = "SELECT COUNT(*) FROM authors;" ∧ q.isAggregate = false := by
  intro q
  refine ⟨_, _, rfl, rfl, rfl, ?_, rfl⟩
  decide +kernel

end RecordMapper
