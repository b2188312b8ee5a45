import RecordMapper.Expr
import RecordMapper.Schema.Mapping
/-!
Queries over one record type: a chain of operations in the order of their application.
-/

namespace RecordMapper

inductive Direction
  | asc | desc
  deriving DecidableEq, Repr

def Direction.keyword : Direction → String
  | asc => "ASC"
  | desc => "DESC"

inductive QueryOp
  /-- Keep the rows that satisfy a predicate. -/
  | filter (predicate : Expr)
  /-- Project to a field or to a record of fields. -/
  | select (projection : Expr)
  /-- Start a new ordering. -/
  | orderBy (key : Expr) (direction : Direction)
  /-- Add an ordering term. -/
  | thenBy (key : Expr) (direction : Direction)
  | take (count : Expr)
  | skip (count : Expr)
  | count (predicate : Option Expr)
  | sum (selector : Expr)
  | first (predicate : Option Expr)
  deriving Repr

structure Query where
  source : RecordRef
  ops : List QueryOp
  deriving Repr

/-- The chain ends in a count or a sum. -/
def Query.isAggregate (q : Query) : Bool :=
  match q.ops.getLast? with
  | some (.count _) | some (.sum _) => true
  | _ => false

end RecordMapper
