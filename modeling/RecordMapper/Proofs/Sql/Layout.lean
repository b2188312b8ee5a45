import RecordMapper.Proofs.Sql.Placeholders
import RecordMapper.Proofs.Sql.Reading
/-!
The layout of select statements: their text in pieces, with the lists and the row counts in it told
from the rest.
-/

namespace RecordMapper.Sql

@[simp] theorem textOf_nil : textOf [] = "" := rfl

theorem textOf_text (s : String) : textOf [.text s] = s := by
  simp [textOf, Fragment.written]

theorem textOf_intersperse (sep : String) (items : List (List Fragment)) :
    textOf (items.intersperse [.text sep]).flatten = sep.intercalate (items.map textOf) := by
  induction items with
  | nil => simp
  | cons item items ih =>
    cases items with
    | nil => simp
    | cons next items =>
      rw [List.intersperse_cons_cons, List.flatten_cons, List.flatten_cons, textOf_append,
        textOf_append, textOf_text, ih, List.map_cons, List.map_cons, List.map_cons,
        String.intercalate_cons_cons, String.append_assoc]

theorem map_intersperse {α β : Type} (f : α → β) (sep : α) (l : List α) :
    (l.intersperse sep).map f = (l.map f).intersperse (f sep) := by
  induction l with
  | nil => rfl
  | cons a l ih =>
    cases l with
    | nil => rfl
    | cons b l =>
      rw [List.intersperse_cons_cons, List.map_cons, List.map_cons, ih]
      rfl

inductive Piece
  | fragment (f : Fragment)
  /-- Items with a comma between any two. -/
  | list (items : List (List Fragment))
  /-- What follows `LIMIT` or `OFFSET`. -/
  | rows (n : Int)

namespace Piece

def fragments : Piece → List Fragment
  | fragment f => [f]
  | list items => commaSeparated items
  | rows n => [.text (Numeral.ofInt n)]

/-- A list has an item, and a row count is within the range of the engine. -/
def WellFormed : Piece → Prop
  | fragment _ => True
  | list items => items ≠ []
  | rows n => n = -1 ∨ 0 ≤ n ∧ n ≤ IntKind.i64.greatest

/-- A list of texts. -/
def texts (items : List String) : Piece := .list (items.map fun s => [.text s])

@[simp] theorem fragments_fragment (f : Fragment) : (fragment f).fragments = [f] := rfl

@[simp] theorem fragments_list (items : List (List Fragment)) :
    (list items).fragments = commaSeparated items := rfl

@[simp] theorem fragments_rows (n : Int) :
    (rows n).fragments = [.text (Numeral.ofInt n)] := rfl

@[simp] theorem wellFormed_fragment (f : Fragment) : (fragment f).WellFormed := trivial

@[simp] theorem wellFormed_list {items : List (List Fragment)} :
    (list items).WellFormed ↔ items ≠ [] := Iff.rfl

@[simp] theorem wellFormed_texts {items : List String} : (texts items).WellFormed ↔ items ≠ [] :=
  not_congr List.map_eq_nil_iff

end Piece

/-- The fragments of the pieces, one after the other. -/
def assemble (pieces : List Piece) : List Fragment := pieces.flatMap Piece.fragments

def AllWellFormed (pieces : List Piece) : Prop := ∀ p ∈ pieces, p.WellFormed

@[simp] theorem allWellFormed_nil : AllWellFormed [] := List.forall_mem_nil _

@[simp] theorem allWellFormed_cons {p : Piece} {ps : List Piece} :
    AllWellFormed (p :: ps) ↔ p.WellFormed ∧ AllWellFormed ps :=
  List.forall_mem_cons

@[simp] theorem allWellFormed_append {ps qs : List Piece} :
    AllWellFormed (ps ++ qs) ↔ AllWellFormed ps ∧ AllWellFormed qs :=
  List.forall_mem_append

theorem allWellFormed_fragments (fs : List Fragment) : AllWellFormed (fs.map .fragment) := by
  intro p hp
  obtain ⟨f, _, rfl⟩ := List.mem_map.1 hp
  trivial

@[simp] theorem assemble_nil : assemble [] = [] := rfl

@[simp] theorem assemble_cons (p : Piece) (ps : List Piece) :
    assemble (p :: ps) = p.fragments ++ assemble ps :=
  List.flatMap_cons

@[simp] theorem assemble_append (ps qs : List Piece) :
    assemble (ps ++ qs) = assemble ps ++ assemble qs :=
  List.flatMap_append

theorem assemble_fragments (fs : List Fragment) : assemble (fs.map .fragment) = fs := by
  induction fs with
  | nil => rfl
  | cons f fs ih =>
    rw [List.map_cons, assemble_cons, ih, Piece.fragments_fragment, List.singleton_append]

theorem assemble_flatten (items : List (List Piece)) :
    assemble items.flatten = (items.map assemble).flatten := by
  induction items with
  | nil => rfl
  | cons item items ih =>
    rw [List.flatten_cons, assemble_append, ih, List.map_cons, List.flatten_cons]

theorem assemble_intersperse (items : List (List Piece)) (sep : Fragment) :
    assemble (items.intersperse [.fragment sep]).flatten =
      ((items.map assemble).intersperse [sep]).flatten := by
  rw [assemble_flatten, map_intersperse]
  rfl

theorem textOf_texts (items : List String) :
    textOf (Piece.texts items).fragments = nameList items := by
  rw [Piece.texts, Piece.fragments, commaSeparated, textOf_intersperse, List.map_map, nameList]
  have hid : textOf ∘ (fun s => [Fragment.text s]) = id := funext textOf_text
  rw [hid, List.map_id]

theorem paramsOf_texts (items : List String) : paramsOf (Piece.texts items).fragments = [] := by
  rw [Piece.texts, Piece.fragments, paramsOf_commaSeparated, List.flatMap_map]
  exact List.flatMap_eq_nil_iff.2 fun _ _ => rfl

namespace Filter

def pieces : Filter → List Piece
  | conj l r => mark .opening :: l.pieces ++ mark .conj :: r.pieces ++ [mark .closing]
  | disj l r => mark .opening :: l.pieces ++ mark .disj :: r.pieces ++ [mark .closing]
  | neg e => mark .neg :: mark .opening :: e.pieces ++ [mark .closing]
  | binary op l r => mark .opening :: l.pieces ++ mark (.op op) :: r.pieces ++ [mark .closing]
  | hasValue e => e.pieces ++ [mark .isNotNull]
  | nullTest negated e =>
    mark .opening :: e.pieces ++ [mark (if negated then .isNotNull else .isNull), mark .closing]
  | member e items =>
    e.pieces ++ [mark .isIn, mark .opening, .list (items.map fun v => [.bound v]), mark .closing]
  | f@(column _) | f@null | f@(bound _) | f@(like ..) => f.fragments.map .fragment
where
  mark (t : Token) : Piece := .fragment t.fragment

@[simp] theorem fragments_mark (t : Token) : (pieces.mark t).fragments = [t.fragment] := rfl

@[simp] theorem wellFormed_mark (t : Token) : (pieces.mark t).WellFormed := trivial

theorem commaSeparated_bound (items : List Value) :
    commaSeparated (items.map fun v => [.bound v]) =
      ((items.map Token.bound).intersperse .comma).map Token.fragment := by
  rw [map_intersperse, List.map_map]
  induction items with
  | nil => rfl
  | cons v vs ih =>
    cases vs with
    | nil => rfl
    | cons w ws => exact congrArg (fun fs => Fragment.bound v :: .text ", " :: fs) ih

/-- The pieces of a filter make up its fragments. -/
theorem assemble_pieces (f : Filter) : assemble f.pieces = f.fragments := by
  rw [fragments]
  induction f with
  | conj l r ihl ihr | disj l r ihl ihr | binary op l r ihl ihr =>
    simp [pieces, tokens, ihl, ihr]
  | neg e ih | hasValue e ih | nullTest negated e ih => simp [pieces, tokens, ih]
  | member e items ih => simp [pieces, tokens, ih, commaSeparated_bound]
  | column name | null | bound value | like name pattern =>
    rw [pieces, assemble_fragments, fragments]

theorem allWellFormed_pieces_iff {f : Filter} : AllWellFormed f.pieces ↔ f.HasItems := by
  induction f with
  | conj l r ihl ihr | disj l r ihl ihr | binary op l r ihl ihr => simp [pieces, HasItems, ihl, ihr]
  | neg e ih | hasValue e ih | nullTest negated e ih => simp [pieces, HasItems, ih]
  | member e items ih => simp [pieces, HasItems, ih]
  | column name | null | bound value | like name pattern =>
    exact iff_of_true (allWellFormed_fragments _) trivial

end Filter

/-- The items of a select list. -/
def SelectList.entries : SelectList → List String
  | star tables => tables.map (· ++ ".*")
  | columns items => items.map fun (column, label) => column ++ " AS " ++ label
  | count => ["COUNT(*)"]
  | sum column => ["SUM(" ++ column ++ ")"]

theorem SelectList.text_eq (list : SelectList) : list.text = nameList list.entries := by
  cases list with
  | star tables | columns items => rfl
  | count | sum column => exact String.intercalate_singleton.symm

namespace Select

def conditionPieces (s : Select) : List Piece :=
  if s.filters.isEmpty then []
  else .fragment (.text " WHERE ") ::
    ((s.filters.map Filter.pieces).intersperse [.fragment (.text " AND ")]).flatten

def orderPieces (s : Select) : List Piece :=
  if s.order.isEmpty then []
  else [.fragment (.text " ORDER BY "), .texts (s.order.map OrderTerm.text)]

def limitPieces (s : Select) : List Piece :=
  match s.limit, s.offset with
  | some n, _ => [.fragment (.text " LIMIT "), .rows n.val]
  | none, some _ => [.fragment (.text " LIMIT "), .rows (-1)]
  | none, none => []

def offsetPieces (s : Select) : List Piece :=
  match s.offset with
  | some n => [.fragment (.text " OFFSET "), .rows n.val]
  | none => []

def pieces (s : Select) : List Piece :=
  [.fragment (.text "SELECT "), .texts s.list.entries,
    .fragment (.text (" FROM " ++ s.table ++
      String.join (s.joins.map (JoinClause.text s.table))))] ++
    s.conditionPieces ++
    if s.list.isAggregate then [] else s.orderPieces ++ s.limitPieces ++ s.offsetPieces

theorem assemble_conditionPieces (s : Select) : assemble s.conditionPieces = s.whereClause := by
  rw [conditionPieces, whereClause]
  split
  · rfl
  · rw [assemble_cons, assemble_intersperse, List.map_map,
      show assemble ∘ Filter.pieces = Filter.fragments from funext Filter.assemble_pieces]
    rfl

theorem textOf_orderPieces (s : Select) : textOf (assemble s.orderPieces) = s.orderClause := by
  rw [orderPieces, orderClause]
  split
  · rfl
  · simp [textOf_cons, textOf_texts, Fragment.written]

theorem textOf_pagePieces (s : Select) :
    textOf (assemble (s.limitPieces ++ s.offsetPieces)) = s.pageClause := by
  have hnone : " LIMIT " ++ Numeral.ofInt (-1) = " LIMIT -1" := by decide
  rw [limitPieces, offsetPieces, pageClause]
  cases s.limit <;> cases s.offset <;>
    simp [textOf_cons, Fragment.written, ← String.append_assoc, hnone]

/-- The pieces of a select statement make up its text. -/
theorem textOf_pieces (s : Select) : textOf (assemble s.pieces) = textOf s.fragments := by
  rw [pieces, fragments, assemble_append, assemble_append, assemble_conditionPieces, textOf_append,
    textOf_append, List.cons_append, textOf_cons, textOf_append, Fragment.written, s.list.text_eq]
  have htail : textOf (assemble (if s.list.isAggregate then []
        else s.orderPieces ++ s.limitPieces ++ s.offsetPieces)) =
      textOf (if s.list.isAggregate then [] else [.text (s.orderClause ++ s.pageClause)]) := by
    split
    · rfl
    · rw [List.append_assoc, assemble_append, textOf_append, textOf_orderPieces,
        textOf_pagePieces, textOf_text]
  rw [htail]
  simp [textOf_cons, textOf_append, textOf_texts, Fragment.written, String.append_assoc]

theorem paramsOf_pieces (s : Select) : paramsOf (assemble s.pieces) = paramsOf s.fragments := by
  have htail : paramsOf (assemble (if s.list.isAggregate then []
        else s.orderPieces ++ s.limitPieces ++ s.offsetPieces)) = [] := by
    rw [orderPieces, limitPieces, offsetPieces]
    cases s.list.isAggregate <;> cases s.order.isEmpty <;> cases s.limit <;> cases s.offset <;>
      simp [paramsOf_append, paramsOf_texts]
  rw [pieces, fragments, assemble_append, assemble_append, assemble_conditionPieces,
    paramsOf_append, htail]
  cases s.list.isAggregate <;> simp [paramsOf_append, paramsOf_texts]

theorem allWellFormed_conditionPieces {s : Select} (h : ∀ f ∈ s.filters, f.HasItems) :
    AllWellFormed s.conditionPieces := by
  rw [conditionPieces]
  split
  · exact allWellFormed_nil
  · rw [allWellFormed_cons]
    refine ⟨trivial, fun p hp => ?_⟩
    obtain ⟨ps, hps, hp⟩ := List.mem_flatten.1 hp
    rcases mem_of_mem_intersperse hps with rfl | hps
    · rw [List.mem_singleton.1 hp]
      trivial
    · obtain ⟨f, hf, rfl⟩ := List.mem_map.1 hps
      exact Filter.allWellFormed_pieces_iff.2 (h f hf) p hp

theorem allWellFormed_orderPieces (s : Select) : AllWellFormed s.orderPieces := by
  rw [orderPieces]
  split
  next => exact allWellFormed_nil
  next h => simpa using h

theorem wellFormed_rows_iff {n : IntOf .u64} :
    (Piece.rows n.val).WellFormed ↔ n.val ≤ IntKind.i64.greatest := by
  have hn : 0 ≤ n.val := n.least_le
  rw [Piece.WellFormed]
  omega

theorem allWellFormed_pagePieces_iff {s : Select} :
    AllWellFormed (s.limitPieces ++ s.offsetPieces) ↔
      (∀ n ∈ s.limit, n.val ≤ IntKind.i64.greatest) ∧
        ∀ n ∈ s.offset, n.val ≤ IntKind.i64.greatest := by
  have hnone : (Piece.rows (-1)).WellFormed := .inl rfl
  rw [limitPieces, offsetPieces]
  cases s.limit <;> cases s.offset <;> simp [wellFormed_rows_iff, hnone]

/-- A select statement whose membership tests have items is well formed when it selects something
and its page is within the range of the engine. -/
theorem allWellFormed_pieces_iff {s : Select} (h : ∀ f ∈ s.filters, f.HasItems) :
    AllWellFormed s.pieces ↔ s.list.entries ≠ [] ∧ (s.list.isAggregate = false →
      (∀ n ∈ s.limit, n.val ≤ IntKind.i64.greatest) ∧
        ∀ n ∈ s.offset, n.val ≤ IntKind.i64.greatest) := by
  rw [← allWellFormed_pagePieces_iff, pieces, List.append_assoc]
  simp only [allWellFormed_append, allWellFormed_cons, Piece.wellFormed_fragment,
    Piece.wellFormed_texts, allWellFormed_nil, allWellFormed_conditionPieces h, true_and, and_true]
  cases s.list.isAggregate <;> simp [allWellFormed_orderPieces]

end Select
end RecordMapper.Sql
