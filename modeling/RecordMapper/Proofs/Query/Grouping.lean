import RecordMapper.Proofs.Query.Lowering
import RecordMapper.Proofs.Sql.Grouping
/-!
The conditions of a query, as they were meant and as they are read.
-/

namespace RecordMapper

open Sql

theorem Mapping.columnName_eq_ok_iff {m : Mapping} {field name : String} :
    m.columnName field = .ok name ↔ ∃ c, m.columnByField? field = some c ∧ c.name = name := by
  rw [columnName]
  cases m.columnByField? field <;> simp

namespace Expr

/-- The items of a list constant. -/
def listItems (e : Expr) : List Value :=
  match e.stripCasts with
  | constant (.list items) => items
  | _ => []

/-- The pattern around the text of a constant. -/
def patternOf (kind : PatternKind) (e : Expr) : String :=
  match e.stripCasts with
  | constant v => kind.wrap (v.patternText?.getD "")
  | _ => ""

/-- The condition that a predicate means. Casts do not count, and a comparison of which one side is
the null constant is a null test of the other. What the compiler refuses has no meaning. -/
def tree (m : Mapping) : Expr → Tree
  | conj l r => .binary .conj (l.tree m) (r.tree m)
  | disj l r => .binary .disj (l.tree m) (r.tree m)
  | neg e => .neg (e.tree m)
  | binary op l r =>
    match testedSide? op l r with
    | some .left => .binary (.is (op == .ne)) (l.tree m) .null
    | some .right => .binary (.is (op == .ne)) (r.tree m) .null
    | none => .binary (.op op) (l.tree m) (r.tree m)
  | cast e _ => e.tree m
  | field name => .name ((m.columnByField? name).elim name Column.name)
  | hasValue e => .binary (.is true) (e.tree m) .null
  | nullTest negated e => .binary (.is negated) (e.tree m) .null
  | member e list => .member (e.tree m) list.listItems
  | pattern kind e text => .binary .like (e.tree m) (.bound (.text (patternOf kind text)))
  | constant .null => .null
  | constant v => .bound v
  | call .. | record _ | vectorDistance .. => .null

theorem tree_stripCasts (m : Mapping) (e : Expr) : e.stripCasts.tree m = e.tree m :=
  apply_stripCasts (fun _ _ => by rw [tree]) e

theorem columnName_eq {m : Mapping} {field column : String} (h : m.columnName field = .ok column) :
    (m.columnByField? field).elim field Column.name = column := by
  obtain ⟨c, hc, rfl⟩ := Mapping.columnName_eq_ok_iff.1 h
  rw [hc]
  rfl

/-- A filter stands for what the predicate means. -/
theorem tree_of_lowers {m : Mapping} {e : Expr} {f : Filter} (h : Lowers m e f) :
    f.tree = e.tree m ∧ f.HasItems := by
  induction h with
  | conj _ _ ihl ihr | disj _ _ ihl ihr =>
    rw [Filter.tree, tree, ihl.1, ihr.1]
    exact ⟨rfl, ihl.2, ihr.2⟩
  | neg _ ih | hasValue _ ih | nullTest _ ih =>
    rw [Filter.tree, tree, ih.1]
    exact ⟨rfl, ih.2⟩
  | nullRight hs _ ih | nullLeft hs _ ih =>
    rw [Filter.tree, tree, hs, ih.1]
    exact ⟨rfl, ih.2⟩
  | binary hs _ _ _ ihl ihr =>
    rw [Filter.tree, tree, hs, ihl.1, ihr.1]
    exact ⟨rfl, ihl.2, ihr.2⟩
  | cast _ ih => exact ih
  | field hc =>
    rw [tree, columnName_eq hc]
    exact ⟨rfl, trivial⟩
  | member hs hi _ ih =>
    rw [Filter.tree, tree, listItems, hs, ih.1]
    exact ⟨rfl, ih.2, hi⟩
  | @pattern kind e text name column s v hs ht hv hc =>
    have hp : patternOf kind text = kind.wrap s := by
      simp only [patternOf, ht, hv, Option.getD_some]
    rw [Filter.tree, tree, hp, ← tree_stripCasts, hs, tree, columnName_eq hc]
    exact ⟨rfl, trivial⟩
  | null => exact ⟨rfl, trivial⟩
  | @bound v hn hl =>
    cases v with
    | null => cases hn
    | list => cases hl
    | _ => exact ⟨rfl, trivial⟩

theorem trees_of_mapM {m : Mapping} {es : List Expr} {fs : List Filter}
    (h : es.mapM (toFilter m) = .ok fs) :
    fs.map Filter.tree = es.map (tree m) ∧ ∀ f ∈ fs, f.HasItems := by
  induction mapM_eq_ok_iff.1 h with
  | nil => exact ⟨rfl, by simp⟩
  | @cons e f es fs he hes ih =>
    obtain ⟨ht, hi⟩ := tree_of_lowers (lowers_of_toFilter he)
    obtain ⟨hts, his⟩ := ih (mapM_eq_ok_iff.2 hes)
    refine ⟨by rw [List.map_cons, List.map_cons, ht, hts], fun g hg => ?_⟩
    rcases List.mem_cons.1 hg with rfl | hg
    · exact hi
    · exact his g hg

end Expr

/-- The conditions of a select statement are read with the operands that they were given exactly
when no operand of theirs stands where an operator next to it captures it. -/
theorem readTokens_where_iff {m : Mapping} {e : Expr} {es : List Expr} {s : Select}
    (h : (e :: es).mapM (Expr.toFilter m) = .ok s.filters) :
    s.whereClause = .text " WHERE " :: (conditionTokens s.filters).map Token.fragment ∧
      (readTokens (conditionTokens s.filters) =
          some ((e.tree m).conjunction (es.map (Expr.tree m))) ↔
        ∀ f ∈ s.filters, f.Grouped) := by
  obtain ⟨ht, hi⟩ := Expr.trees_of_mapM h
  rw [s.whereClause_eq]
  generalize s.filters = fs at ht hi ⊢
  cases fs with
  | nil => cases ht
  | cons f fs =>
    rw [List.map_cons, List.map_cons, List.cons.injEq] at ht
    refine ⟨rfl, ?_⟩
    rw [← ht.1, ← ht.2]
    exact readTokens_conditions_eq hi

/-- Accounts with an address that may be missing. -/
def accounts : Declaration where
  name := "Account"
  table := some "accounts"
  columns := [
    { field := "id", storage := .integer, primaryKey := true },
    { field := "active", storage := .integer },
    { field := "email", storage := .text, nullable := true }]

/-- A presence test may stand on the left of an equation, and a negation before `AND`. -/
theorem readTokens_where_accounts :
    let present : Expr := .binary .eq (.hasValue (.field "email")) (.field "active")
    let listed : Expr := .neg (.member (.field "id") (.constant (.list [.null])))
    ∃ s : Select, [listed, present].mapM (Expr.toFilter accounts.assemble) = .ok s.filters ∧
      (∀ f ∈ s.filters, f.Grouped) ∧
      readTokens (conditionTokens s.filters) =
        some (.binary .conj (.neg (.member (.name "id") [.null]))
          (.binary (.op .eq) (.binary (.is true) (.name "email") .null) (.name "active"))) := by
  intro present listed
  let s : Select :=
    { list := .star ["accounts"]
      table := "accounts"
      joins := []
      filters := [.neg (.member (.column "id") [.null]),
        .binary .eq (.hasValue (.column "email")) (.column "active")]
      order := []
      limit := none
      offset := none }
  have h : [listed, present].mapM (Expr.toFilter accounts.assemble) = .ok s.filters := rfl
  have hg : ∀ f ∈ s.filters, f.Grouped := by
    simp [s, Filter.Grouped, Filter.startsNegated, Filter.isBare]
  exact ⟨s, h, hg, (readTokens_where_iff h).2.2 hg⟩

/-- On the right of an equation the presence test takes the whole equation as its operand. -/
theorem equation_captured_by_presence_test :
    let e : Expr := .binary .eq (.field "active") (.hasValue (.field "email"))
    ∃ m f, accounts.build = .ok m ∧ e.toFilter m = .ok f ∧
      readTokens f.tokens =
        some (.binary (.is true) (.binary (.op .eq) (.name "active") (.name "email")) .null) ∧
      readTokens f.tokens ≠ some (e.tree m) := by
  intro e
  have h : readTokens (Filter.binary .eq (.column "active") (.hasValue (.column "email"))).tokens =
      some (.binary (.is true) (.binary (.op .eq) (.name "active") (.name "email")) .null) := rfl
  refine ⟨_, _, rfl, rfl, h, fun hne => ?_⟩
  rw [h] at hne
  cases hne

end RecordMapper
