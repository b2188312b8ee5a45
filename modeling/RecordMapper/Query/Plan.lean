import RecordMapper.Capability
import RecordMapper.Query.Lowering
import RecordMapper.Sql.Select
/-!
Plans: a chain of query operations folded into the clauses of one select statement.
-/

namespace RecordMapper

inductive Projection
  | star
  /-- Columns, each under an alias. -/
  | columns (items : List (String × String))
  | count
  | sum (column : String)
  deriving Repr

/-- The clauses of a query over `mapping`. Predicates are still over fields. -/
structure QueryPlan where
  mapping : Mapping
  joins : List Sql.JoinClause
  filters : List Expr := []
  projection : Projection := .star
  order : List Sql.OrderTerm := []
  limit : Option (IntOf .u64) := none
  offset : Option (IntOf .u64) := none
  deriving Repr

namespace QueryPlan

def planJoin (catalog : Catalog) (m : Mapping) (j : Join) : Except QueryFault Sql.JoinClause := do
  let some left := m.columnByField? j.leftField
    | throw (.unknownJoinField m.name j.leftField)
  let (right, column) ← (catalog.joinTarget j).mapError QueryFault.join
  if right.table.isEmpty then throw (.joinWithoutTable right.name)
  return ⟨right.table, left.name, column.name⟩

/-- One item of a projection: a field under an alias. -/
def projectedColumn (m : Mapping) (label : String) (e : Expr) :
    Except QueryFault (String × String) :=
  match e.stripCasts with
  | .field name => do return (← m.columnName name, label)
  | other => .error (.projected other)

def projectedColumns (m : Mapping) (e : Expr) : Except QueryFault (List (String × String)) :=
  match e.stripCasts with
  | .field name => do return [(← m.columnName name, name)]
  | .record fields => fields.mapM fun (label, e) => projectedColumn m label e
  | other => .error (.projected other)

def orderKey (capability : Capability) (m : Mapping) (key : Expr) :
    Except QueryFault Sql.OrderKey :=
  match key.stripCasts with
  | .field name => do return .column (← m.columnName name)
  | .vectorDistance operand vector =>
    if !capability.vectorSearch then .error .noVectorSearch
    else
      match operand.stripCasts with
      | .field name =>
        match vector.stripCasts with
        | .constant (.vector items) => do return .vectorDistance (← m.columnName name) items
        | _ => .error .distanceVector
      | _ => .error (.distanceOver operand)
  | other => .error (.orderedBy other)

def rowCount (op : PageOp) (count : Expr) : Except QueryFault (IntOf .u64) :=
  match count.stripCasts with
  | .constant (.i64 n) =>
    match IntOf.ofInt? .u64 n.val with
    | some n => .ok n
    | none => .error (.negativeCount op n.val)
  | .constant (.u64 n) => .ok n
  | other => .error (.countConstant op other)

def sumColumn (m : Mapping) (selector : Expr) : Except QueryFault String :=
  match selector.stripCasts with
  | .field name => m.columnName name
  | _ => .error (.sumSelector selector)

def one : IntOf .u64 := ⟨1, by decide, by decide⟩

/-- The plan after one more operation. -/
def apply (capability : Capability) (plan : QueryPlan) : QueryOp → Except QueryFault QueryPlan
  | .filter predicate => .ok { plan with filters := plan.filters ++ [predicate] }
  | .select projection => do
    return { plan with projection := .columns (← projectedColumns plan.mapping projection) }
  | .orderBy key direction => do
    return { plan with order := [⟨← orderKey capability plan.mapping key, direction⟩] }
  | .thenBy key direction => do
    let term := ⟨← orderKey capability plan.mapping key, direction⟩
    return { plan with order := plan.order ++ [term] }
  | .take count => do return { plan with limit := some (← rowCount .take count) }
  | .skip count => do
    let n ← rowCount .skip count
    return { plan with offset := if 0 < n.val then some n else none }
  | .count predicate =>
    .ok { plan with filters := plan.filters ++ predicate.toList, projection := .count }
  | .sum selector => do return { plan with projection := .sum (← sumColumn plan.mapping selector) }
  | .first predicate =>
    .ok { plan with filters := plan.filters ++ predicate.toList, limit := some one }

def ofQuery (catalog : Catalog) (capability : Capability) (q : Query) :
    Except QueryFault QueryPlan := do
  let mapping ←
    match catalog.resolve q.source with
    | .ok mapping => pure mapping
    | .error cause => throw (.unresolvedRoot q.source.name cause)
  if mapping.table.isEmpty then throw (.rootWithoutTable mapping.name)
  let joins ← mapping.joins.mapM (planJoin catalog mapping)
  q.ops.foldlM (apply capability) { mapping, joins }

def selectList (plan : QueryPlan) : Sql.SelectList :=
  match plan.projection with
  | .star => .star (plan.mapping.table :: plan.joins.map (·.table))
  | .columns items => .columns items
  | .count => .count
  | .sum column => .sum column

def toSelect (plan : QueryPlan) : Except QueryFault Sql.Select := do
  let filters ← plan.filters.mapM (Expr.toFilter plan.mapping)
  return {
    list := plan.selectList
    table := plan.mapping.table
    joins := plan.joins
    filters
    order := plan.order
    limit := plan.limit
    offset := plan.offset }

end QueryPlan

/-- The select statement of a query. -/
def Query.toSelect (catalog : Catalog) (capability : Capability) (q : Query) :
    Except QueryFault Sql.Select := do
  (← QueryPlan.ofQuery catalog capability q).toSelect

end RecordMapper
