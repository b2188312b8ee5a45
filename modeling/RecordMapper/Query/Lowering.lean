import RecordMapper.Number.Layout
import RecordMapper.Query.Fault
import RecordMapper.Schema.Mapping
import RecordMapper.Sql.Filter
/-!
From predicates over fields to filters over columns. Casts vanish, a comparison with the null
constant becomes a null test, and what has no counterpart is refused.
-/

namespace RecordMapper

/-- The name of the column that a field maps to. -/
def Mapping.columnName (m : Mapping) (field : String) : Except QueryFault String :=
  match m.columnByField? field with
  | some c => .ok c.name
  | none => .error (.unmappedField m.name field)

/-- The text of a scalar constant in a pattern. -/
def Value.patternText? : Value → Option String
  | .text s => some s
  | .bool b => some (if b then "true" else "false")
  | .i64 n => some (Numeral.ofInt n.val)
  | .u64 n => some (Numeral.ofInt n.val)
  | .f32 x => some x.plainText
  | .f64 x => some x.plainText
  | .timestamp t => some t.text
  | .bytes _ | .list _ | .null | .vector _ => none

/-- A constant outside a membership test. Null is written, not bound. -/
def Value.toFilter : Value → Except QueryFault Sql.Filter
  | .null => .ok .null
  | .list _ => .error .listConstant
  | v => .ok (.bound v)

namespace Expr

/-- The items of a membership test. -/
def memberItems (list : Expr) : Except QueryFault (List Value) :=
  match list.stripCasts with
  | constant (.list []) => .error .emptyMembership
  | constant (.list items) => .ok items
  | _ => .error (.membershipAgainst list)

def patternText (kind : PatternKind) (text : Expr) : Except QueryFault String :=
  match text.stripCasts with
  | constant v =>
    match v.patternText? with
    | some s => .ok (kind.wrap s)
    | none => .error (.patternConstant kind)
  | other => .error (.patternWith kind other)

/-- The sides of a comparison that is a null test of its left or of its right operand. -/
inductive NullSide
  | left | right
  deriving DecidableEq, Repr

/-- Which operand a comparison tests for null: the other one is the null constant. -/
def testedSide? (op : Operator) (left right : Expr) : Option NullSide :=
  if op = .eq ∨ op = .ne then
    match left.stripCasts.isNullConstant, right.stripCasts.isNullConstant with
    | false, true => some .left
    | true, false => some .right
    | _, _ => none
  else none

def toFilter (m : Mapping) : Expr → Except QueryFault Sql.Filter
  | conj l r => do return .conj (← l.toFilter m) (← r.toFilter m)
  | disj l r => do return .disj (← l.toFilter m) (← r.toFilter m)
  | neg e => do return .neg (← e.toFilter m)
  | binary op l r =>
    match testedSide? op l r with
    | some .left => do return .nullTest (op == .ne) (← l.toFilter m)
    | some .right => do return .nullTest (op == .ne) (← r.toFilter m)
    | none =>
      if op = .rem then .error (.operator op)
      else do return .binary op (← l.toFilter m) (← r.toFilter m)
  | cast e _ => e.toFilter m
  | field name => do return .column (← m.columnName name)
  | hasValue e => do return .hasValue (← e.toFilter m)
  | nullTest negated e => do return .nullTest negated (← e.toFilter m)
  | member e list => do
    let items ← list.memberItems
    return .member (← e.toFilter m) items
  | pattern kind e text =>
    match e.stripCasts with
    | field name => do
      let text ← patternText kind text
      return .like (← m.columnName name) text
    | _ => .error (.patternOn kind e)
  | constant v => v.toFilter
  | e@(call ..) | e@(record _) | e@(vectorDistance ..) => .error (.expression e)

end Expr

end RecordMapper
