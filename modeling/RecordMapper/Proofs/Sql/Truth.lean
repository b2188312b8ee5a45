import RecordMapper.Proofs.Sql.Grouping
/-!
What a condition says of a row, in three-valued logic. Null is neither true nor false, and what the
operators make of other values is left to the engine.
-/

namespace RecordMapper.Sql

/-- A truth value, unless it is unknown. -/
abbrev Truth := Option Bool

namespace Truth

def both : Truth → Truth → Truth
  | some false, _ | _, some false => some false
  | some true, some true => some true
  | _, _ => none

def either : Truth → Truth → Truth
  | some true, _ | _, some true => some true
  | some false, some false => some false
  | _, _ => none

end Truth

/-- The values of an engine, null apart, and its operators on them. The result of an operation may
be null, as that of a division by zero is. -/
structure Scalars where
  Carrier : Type
  isTrue : Carrier → Bool
  ofBool : Bool → Carrier
  isTrue_ofBool : ∀ b, isTrue (ofBool b) = b
  /-- A bound value, unless it is stored as null. -/
  ofBound? : Value → Option Carrier
  compute? : Operator → Carrier → Carrier → Option Carrier
  equal : Carrier → Carrier → Bool
  isLike : Carrier → Carrier → Bool

namespace Scalars

variable (S : Scalars)

def truth (x : Option S.Carrier) : Truth := x.map S.isTrue

def ofTruth (t : Truth) : Option S.Carrier := t.map S.ofBool

theorem truth_ofTruth (t : Truth) : S.truth (S.ofTruth t) = t := by
  cases t with
  | none => rfl
  | some b => exact congrArg some (S.isTrue_ofBool b)

/-- Equality that takes null for a value like any other. -/
def identical : Option S.Carrier → Option S.Carrier → Bool
  | some x, some y => S.equal x y
  | none, none => true
  | _, _ => false

/-- Equality with some item, which is unknown for an item that is null. -/
def isAmong (x : Option S.Carrier) (items : List Value) : Truth :=
  (items.map fun v => do return S.equal (← x) (← S.ofBound? v)).foldr Truth.either (some false)

/-- An engine of integers, where 0 is false and what is no number is stored as null. -/
def integers : Scalars where
  Carrier := Int
  isTrue x := x != 0
  ofBool := Bool.toInt
  isTrue_ofBool := by decide
  ofBound?
    | .bool b => some b.toInt
    | v => v.asInt?
  compute? op x y :=
    match op with
    | .eq => some (x == y).toInt
    | .ne => some (x != y).toInt
    | .ge => some (decide (x ≥ y)).toInt
    | .gt => some (decide (x > y)).toInt
    | .le => some (decide (x ≤ y)).toInt
    | .lt => some (decide (x < y)).toInt
    | .add => some (x + y)
    | .sub => some (x - y)
    | .mul => some (x * y)
    | .div => if y = 0 then none else some (x.tdiv y)
    | .rem => if y = 0 then none else some (x.tmod y)
  equal x y := x == y
  isLike x y := x == y

instance : Inhabited Scalars := ⟨integers⟩

end Scalars

namespace Tree

variable (S : Scalars) (row : String → Option S.Carrier)

/-- The value of a condition in a row, unless it is null. -/
def eval : Tree → Option S.Carrier
  | name n => row n
  | null => none
  | bound v => S.ofBound? v
  | neg t => S.ofTruth ((S.truth t.eval).map not)
  | binary .conj l r => S.ofTruth (.both (S.truth l.eval) (S.truth r.eval))
  | binary .disj l r => S.ofTruth (.either (S.truth l.eval) (S.truth r.eval))
  | binary (.op o) l r => do S.compute? o (← l.eval) (← r.eval)
  | binary (.is negated) l r => some (S.ofBool (negated != S.identical l.eval r.eval))
  | binary .like l r => do return S.ofBool (S.isLike (← l.eval) (← r.eval))
  | member t items => S.ofTruth (S.isAmong t.eval items)

/-- What a condition says of a row. -/
def truth (t : Tree) : Truth := S.truth (t.eval S row)

variable {S row}

theorem truth_neg (t : Tree) : (neg t).truth S row = (t.truth S row).map not :=
  S.truth_ofTruth _

theorem isNone_eval_neg (t : Tree) : ((neg t).eval S row).isNone = (t.eval S row).isNone := by
  simp [eval, Scalars.ofTruth, Scalars.truth]

/-- A null test is never unknown. -/
theorem truth_nullTest (negated : Bool) (t : Tree) :
    (binary (.is negated) t null).truth S row = some (negated != (t.eval S row).isNone) := by
  have hnull : S.identical (t.eval S row) none = (t.eval S row).isNone := by
    cases t.eval S row <;> rfl
  rw [truth, eval, eval, hnull]
  exact congrArg some (S.isTrue_ofBool _)

theorem truth_operation_null (o : Operator) (t : Tree) :
    (binary (.op o) t null).truth S row = none := by
  rw [truth, eval]
  cases t.eval S row <;> rfl

end Tree

/-- Wherever these tokens stand, they are read as one operand. -/
def ReadAs (tokens : List Token) (t : Tree) : Prop :=
  ∀ outer frames,
    (Reader.operand outer frames).run tokens = some (.connective outer ⟨frames, t⟩)

namespace Filter

open Reading

variable {f : Filter}

theorem readTokens_tokens (h : f.HasItems) : readTokens f.tokens = some (f.scan []).complete := by
  rw [readTokens, run_tokens h]
  rfl

theorem readAs_nullTest (h : f.HasItems) (negated : Bool) :
    ReadAs (nullTest negated f).tokens ((f.scan []).nullTest negated).complete :=
  fun outer frames => run_tokens (f := nullTest negated f) h outer frames

/-- A null test of a filter that starts with a negation is read as the negation of a null test. -/
theorem complete_nullTest_of_startsNegated (h : f.startsNegated = true) (negated : Bool) :
    ∃ t, (f.scan []).complete = .neg t ∧
      ((f.scan []).nullTest negated).complete = .neg (.binary (.is negated) t .null) := by
  obtain ⟨r, hl, hr⟩ := exists_scan_of_startsNegated h
  refine ⟨r.complete, ?_, ?_⟩
  · rw [hr, complete_under]
    rfl
  · have htest : (r.nullTest negated).complete = .binary (.is negated) r.complete .null := by
      rw [Reading.nullTest, extend_all (c := .is negated) hl]
      rfl
    rw [hr, nullTest_under _ _ (loose_neg []), complete_under, htest]
    rfl

theorem complete_nullTest (h : f.startsNegated = false) (negated : Bool) :
    ((f.scan []).nullTest negated).complete =
      .binary (.is negated) (f.scan []).complete .null := by
  rw [nullTest_scan h]
  rfl

/-- A null test is never unknown, and it tests what the filter alone is read as exactly when that
does not start with a negation. -/
theorem truth_nullTest (f : Filter) (negated : Bool) (S : Scalars)
    (row : String → Option S.Carrier) :
    ((f.scan []).nullTest negated).complete.truth S row =
      some (f.startsNegated != (negated != ((f.scan []).complete.eval S row).isNone)) := by
  cases h : f.startsNegated with
  | false => rw [complete_nullTest h, Tree.truth_nullTest, Bool.false_bne]
  | true =>
    obtain ⟨t, ht, htest⟩ := complete_nullTest_of_startsNegated h negated
    rw [htest, ht, Tree.truth_neg, Tree.truth_nullTest, Tree.isNone_eval_neg, Bool.true_bne]
    rfl

end Filter

end RecordMapper.Sql
