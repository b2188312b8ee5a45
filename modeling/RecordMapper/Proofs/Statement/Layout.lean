import RecordMapper.Proofs.Query.Clauses
import RecordMapper.Proofs.Query.Grouping
import RecordMapper.Statement.Row
/-!
The layout of the statements that are made from a mapping. Which of their lists can be empty, and
which of their row counts can be out of range.
-/

namespace RecordMapper

open Sql

namespace Statement

/-- The pieces of a statement other than a query. -/
def plainPieces : Statement → List Piece
  | insert table columns values =>
    [.fragment (.text ("INSERT INTO " ++ table.text ++ " (")), .texts (columns.map Name.text),
      .fragment (.text ") VALUES ("), .list (values.map fun v => [.bound v]), .fragment (.text ")")]
  | update table assignments key =>
    .fragment (.text ("UPDATE " ++ table.text ++ " SET ")) :: .list (assignments.map assignment) ::
      .fragment (.text " WHERE ") :: (assignment key).map .fragment
  | createTable name columns ifNotExists =>
    [.fragment (.text ("CREATE TABLE " ++ optionalText ifNotExists "IF NOT EXISTS " ++ name.text ++
      " (")), .texts (columns.map ColumnDef.text), .fragment (.text ")")]
  | copyTable source target columns =>
    [.fragment (.text ("INSERT INTO " ++ target.text ++ " (")),
      .texts ((columns.map Prod.fst).map Name.text), .fragment (.text ") SELECT "),
      .texts (columns.map fun c => copySource c.1 c.2), .fragment (.text (" FROM " ++ source.text))]
  | createIndex name table columns unique ifNotExists =>
    [.fragment (.text ("CREATE " ++ optionalText unique "UNIQUE " ++ "INDEX " ++
      optionalText ifNotExists "IF NOT EXISTS " ++ name.text ++ " ON " ++ table.text ++ "(")),
      .texts (columns.map Name.text), .fragment (.text ")")]
  | s => s.plainFragments.map .fragment

def pieces (catalog : Catalog) (capability : Capability) : Statement → Except Error (List Piece)
  | query q =>
    match q.toSelect catalog capability with
    | .ok select => .ok select.pieces
    | .error fault => .error fault.toError
  | s => .ok s.plainPieces

variable {catalog : Catalog} {capability : Capability} {m : Mapping} {s : Statement}

theorem textOf_plainPieces (s : Statement) :
    textOf (assemble s.plainPieces) = textOf s.plainFragments := by
  cases s with
  | insert | update | createTable | copyTable | createIndex =>
    simp [plainPieces, plainFragments, textOf_cons, textOf_append, textOf_texts, Fragment.written,
      assemble_fragments, names, String.append_assoc]
  | _ => simp only [plainPieces, assemble_fragments]

theorem paramsOf_plainPieces (s : Statement) :
    paramsOf (assemble s.plainPieces) = paramsOf s.plainFragments := by
  cases s with
  | insert | update | createTable | copyTable | createIndex =>
    simp [plainPieces, plainFragments, paramsOf_append, paramsOf_texts, assemble_fragments]
  | _ => simp only [plainPieces, assemble_fragments]

/-- The pieces of a statement make up its text and bind its parameters. -/
theorem exists_pieces {given : List Value} {out : Serialized}
    (h : s.serialize catalog capability given = .ok out) :
    ∃ ps, s.pieces catalog capability = .ok ps ∧
      out = ⟨textOf (assemble ps) ++ ";", given ++ paramsOf (assemble ps)⟩ := by
  cases s with
  | query q =>
    obtain ⟨select, hs, rfl⟩ := serialize_query_eq_ok h
    refine ⟨select.pieces, by rw [pieces, hs], ?_⟩
    rw [Select.textOf_pieces, Select.paramsOf_pieces]
  | _ =>
    obtain ⟨fs, hfs, rfl⟩ := bind_pure_eq_ok_iff.1 h
    cases hfs
    refine ⟨_, rfl, ?_⟩
    rw [foldl_write, textOf_plainPieces, paramsOf_plainPieces, String.empty_append]

/-- A query over a mapping, or a statement that the mapping makes of a record or for its table. -/
inductive MadeFrom (catalog : Catalog) (m : Mapping) : Statement → Prop
  | query {q : Query} (h : catalog.resolve q.source = .ok m) : MadeFrom catalog m (.query q)
  | insert {r : Record} {s : Statement} (h : m.insertStatement r = .ok s) : MadeFrom catalog m s
  | update {r : Record} {s : Statement} (h : m.updateStatement r = .ok s) : MadeFrom catalog m s
  | delete {r : Record} {s : Statement} (h : m.deleteStatement r = .ok s) : MadeFrom catalog m s
  | createTable (name : Name) (ifNotExists : Bool) :
      MadeFrom catalog m (.createTable name m.definitions ifNotExists)

/-- The result has a column, there is more to insert than what the store fills in, and a page is
within the range of the engine. -/
def Filled (m : Mapping) : Statement → Prop
  | query q =>
    (∀ e, q.clauses.listing = some (.fields e) → e.stripCasts ≠ .record []) ∧
      (∀ n ∈ q.clauses.limit, n ≤ IntKind.i64.greatest) ∧
      ∀ n ∈ q.clauses.offset, n ≤ IntKind.i64.greatest
  | insert .. => ∃ c ∈ m.columns, c.isAutoIncrement = false
  | _ => True

end Statement

namespace Clauses

variable {m : Mapping}

theorem projectedColumns_ne_nil_iff {e : Expr} {items : List (String × String)}
    (h : QueryPlan.projectedColumns m e = .ok items) : items ≠ [] ↔ e.stripCasts ≠ .record [] := by
  rw [QueryPlan.projectedColumns] at h
  split at h
  next field he =>
    obtain ⟨_, _, rfl⟩ := bind_pure_eq_ok_iff.1 h
    simp [he]
  next fs he =>
    have hlength := (mapM_eq_ok_iff.1 h).length_eq
    rw [he, ne_eq, ne_eq, Expr.record.injEq, ← List.length_eq_zero_iff, ← hlength,
      List.length_eq_zero_iff]
  next => cases h

theorem entries_ne_nil_iff {joins : List JoinClause} {listing : Option Listing} {list : SelectList}
    (h : selectList m joins listing = .ok list) :
    list.entries ≠ [] ↔ ∀ e, listing = some (.fields e) → e.stripCasts ≠ .record [] := by
  cases listing with
  | none =>
    cases h
    simp [SelectList.entries]
  | some l =>
    cases l with
    | fields e =>
      obtain ⟨items, hi, rfl⟩ := bind_pure_eq_ok_iff.1 h
      simp [SelectList.entries, projectedColumns_ne_nil_iff hi]
    | count =>
      cases h
      simp [SelectList.entries]
    | sum e =>
      obtain ⟨_, _, rfl⟩ := bind_pure_eq_ok_iff.1 h
      simp [SelectList.entries]

end Clauses

namespace Statement

variable {catalog : Catalog} {capability : Capability} {m : Mapping} {q : Query}

theorem allWellFormed_query_iff {select : Select} (hm : catalog.resolve q.source = .ok m)
    (h : q.toSelect catalog capability = .ok select) :
    AllWellFormed select.pieces ↔ (query q).Filled m := by
  obtain ⟨plan, rfl, hf, _, hs⟩ := Query.follows hm h
  obtain ⟨filters, hfilters, rfl⟩ := bind_pure_eq_ok_iff.1 hs
  rw [Select.allWellFormed_pieces_iff (Expr.trees_of_mapM hfilters).2,
    Clauses.entries_ne_nil_iff hf.list, Filled, Query.clauses, hf.limit_clauses, hf.offset_clauses]
  refine and_congr Iff.rfl ?_
  cases plan.selectList.isAggregate <;> simp

/-- An insertion lists a name and a value for each column that the store does not fill in. -/
theorem allWellFormed_insert_iff {r : Record} {s : Statement} (h : m.insertStatement r = .ok s) :
    AllWellFormed s.plainPieces ↔ s.Filled m := by
  obtain ⟨values, hv, rfl⟩ := bind_pure_eq_ok_iff.1 h
  have hempty : values = [] ↔ m.columns.filter (!·.isAutoIncrement) = [] := by
    rw [← List.length_eq_zero_iff, ← List.length_eq_zero_iff, (mapM_eq_ok_iff.1 hv).length_eq]
  simp only [plainPieces, allWellFormed_cons, allWellFormed_nil, Piece.wellFormed_fragment,
    Piece.wellFormed_texts, Piece.wellFormed_list, ne_eq, List.map_eq_nil_iff, hempty, and_self,
    and_true, true_and, Filled, List.filter_eq_nil_iff]
  simp

/-- An update that assigns nothing is not made. -/
theorem exists_update {r : Record} {s : Statement} (h : m.updateStatement r = .ok s) :
    ∃ table assignments key, s = .update table assignments key ∧ assignments ≠ [] := by
  obtain ⟨⟨key, v⟩, _, h⟩ := bind_eq_ok_iff.1 h
  obtain ⟨values, _, h⟩ := bind_eq_ok_iff.1 h
  dsimp only at h
  split at h
  next => cases h
  next hne =>
    cases pure_eq_ok_iff.1 h
    rw [List.isEmpty_iff] at hne
    exact ⟨_, _, _, rfl, fun he => hne (List.map_eq_nil_iff.1 he)⟩

/-- A statement that is made from a mapping is well formed exactly when it is filled: each of its
lists has an item, and its limit and offset are row counts that the engine takes. -/
theorem serialize_wellFormed_iff {d : Declaration} {s : Statement} {given : List Value}
    {out : Serialized} (hd : d.build = .ok m) (hs : s.MadeFrom catalog m)
    (h : s.serialize catalog capability given = .ok out) :
    ∃ ps, s.pieces catalog capability = .ok ps ∧
      out = ⟨textOf (assemble ps) ++ ";", given ++ paramsOf (assemble ps)⟩ ∧
      (AllWellFormed ps ↔ s.Filled m) := by
  obtain ⟨ps, hps, hout⟩ := exists_pieces h
  refine ⟨ps, hps, hout, ?_⟩
  cases hs with
  | query hm =>
    obtain ⟨select, hselect, _⟩ := serialize_query_eq_ok h
    rw [pieces, hselect] at hps
    cases hps
    exact allWellFormed_query_iff hm hselect
  | insert hr =>
    obtain ⟨values, _, rfl⟩ := bind_pure_eq_ok_iff.1 hr
    cases hps
    exact allWellFormed_insert_iff hr
  | update hr =>
    obtain ⟨table, assignments, key, rfl, hne⟩ := exists_update hr
    cases hps
    refine iff_of_true ?_ trivial
    simp [plainPieces, hne, allWellFormed_fragments]
  | delete hr =>
    obtain ⟨_, _, rfl⟩ := bind_pure_eq_ok_iff.1 hr
    cases hps
    exact iff_of_true (allWellFormed_fragments _) trivial
  | createTable name ifNotExists =>
    cases hps
    have hcolumns := (Mapping.valid_of_build hd).columns_ne_nil
    refine iff_of_true ?_ trivial
    simp [plainPieces, Mapping.definitions, hcolumns]

end Statement

/-- A new author: the store fills in the key, and the name is left to list. -/
theorem serialize_wellFormed_author :
    let r : Record := [⟨"id", .int .i64, .required .zero, false⟩,
      ⟨"name", .string, .required "Ada", false⟩]
    ∃ s out ps, authors.assemble.insertStatement r = .ok s ∧ s.serialize blog .full = .ok out ∧
      s.pieces blog .full = .ok ps ∧ AllWellFormed ps ∧
      out.text = "INSERT INTO authors (name) VALUES (?);" := by
  intro r
  obtain ⟨s, hs⟩ : ∃ s, authors.assemble.insertStatement r = .ok s := ⟨_, rfl⟩
  have hd : authors.build = .ok authors.assemble := rfl
  obtain ⟨out, h⟩ : ∃ out, s.serialize blog .full = .ok out := by
    cases hs
    exact ⟨_, rfl⟩
  obtain ⟨ps, hps, hout, hiff⟩ := Statement.serialize_wellFormed_iff hd (.insert hs) h
  have hfilled : s.Filled authors.assemble := by
    cases hs
    exact ⟨{ field := "name", storage := .text }, .tail _ (.head _), rfl⟩
  refine ⟨s, out, ps, hs, h, hps, hiff.2 hfilled, ?_⟩
  cases hs
  cases hps
  rw [hout]
  decide +kernel

/-- Counters, which have nothing but a key that the store fills in. -/
def counters : Declaration where
  name := "Counter"
  table := some "counters"
  columns := [{ field := "id", storage := .integer, primaryKey := true }]

/-- A new counter has empty lists, so has the projection to no field, and a page can have more rows
than the engine counts. -/
theorem counters_malformed :
    let catalog : Catalog := [.declared counters]
    let r : Record := [⟨"id", .int .i64, .required .zero, false⟩]
    let malformed (s : Statement) (text : String) : Prop :=
      ∃ out ps, s.serialize catalog .full = .ok out ∧ out.text = text ∧
        s.pieces catalog .full = .ok ps ∧ ¬AllWellFormed ps
    counters.build = .ok counters.assemble ∧
      (∃ s, counters.assemble.insertStatement r = .ok s ∧
        malformed s "INSERT INTO counters () VALUES ();") ∧
      malformed (.query ⟨⟨"Counter", 0⟩, [.select (.record [])]⟩) "SELECT  FROM counters;" ∧
      malformed (.query ⟨⟨"Counter", 0⟩,
          [.take (.constant (.u64 ⟨9223372036854775808, by decide, by decide⟩))]⟩)
        "SELECT counters.* FROM counters LIMIT 9223372036854775808;" := by
  refine ⟨rfl, ⟨_, rfl, _, _, rfl, by decide +kernel, rfl, ?_⟩,
    ⟨_, _, rfl, by decide +kernel, rfl, ?_⟩, ⟨_, _, rfl, by decide +kernel, rfl, ?_⟩⟩
  · intro h
    exact h (.texts []) (.tail _ (.head _)) rfl
  · intro h
    exact h (.texts []) (.tail _ (.head _)) rfl
  · intro h
    have hrows := h (.rows 9223372036854775808) (.tail _ (.tail _ (.tail _ (.tail _ (.head _)))))
    revert hrows
    rw [Piece.WellFormed]
    decide

end RecordMapper
