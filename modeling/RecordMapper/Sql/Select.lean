import RecordMapper.Number.Layout
import RecordMapper.Query.Basic
import RecordMapper.Sql.Filter
/-!
Select statements and their text.
-/

namespace RecordMapper.Sql

inductive SelectList
  /-- All columns of the tables. -/
  | star (tables : List String)
  /-- Columns, each under an alias. -/
  | columns (items : List (String × String))
  | count
  | sum (column : String)
  deriving Repr

namespace SelectList

def isAggregate : SelectList → Bool
  | count | sum _ => true
  | _ => false

def text : SelectList → String
  | star tables => nameList (tables.map (· ++ ".*"))
  | columns items => nameList (items.map fun (column, label) => column ++ " AS " ++ label)
  | count => "COUNT(*)"
  | sum column => "SUM(" ++ column ++ ")"

end SelectList

/-- A table joined on one column of the first table and one of its own. -/
structure JoinClause where
  table : String
  leftColumn : String
  rightColumn : String
  deriving DecidableEq, Repr

def JoinClause.text (first : String) (j : JoinClause) : String :=
  " LEFT JOIN " ++ j.table ++ " ON " ++ first ++ "." ++ j.leftColumn ++ " = " ++ j.table ++ "." ++
    j.rightColumn

inductive OrderKey
  | column (name : String)
  | vectorDistance (column : String) (vector : List Binary32)
  deriving DecidableEq, Repr

namespace OrderKey

def vectorText (vector : List Binary32) : String :=
  "vector32('[" ++ nameList (vector.map Binary32.plainText) ++ "]')"

def text : OrderKey → String
  | column name => name
  | vectorDistance name vector =>
    "vector_distance_cos(" ++ name ++ ", " ++ vectorText vector ++ ")"

end OrderKey

structure OrderTerm where
  key : OrderKey
  direction : Direction
  deriving DecidableEq, Repr

def OrderTerm.text (t : OrderTerm) : String := t.key.text ++ " " ++ t.direction.keyword

structure Select where
  list : SelectList
  table : String
  joins : List JoinClause
  filters : List Filter
  order : List OrderTerm
  limit : Option (IntOf .u64)
  offset : Option (IntOf .u64)
  deriving Repr

namespace Select

def whereClause (s : Select) : List Fragment :=
  if s.filters.isEmpty then []
  else .text " WHERE " :: ((s.filters.map Filter.fragments).intersperse [.text " AND "]).flatten

def orderClause (s : Select) : String :=
  if s.order.isEmpty then "" else " ORDER BY " ++ nameList (s.order.map OrderTerm.text)

/-- An offset needs a limit before it, so a lone one follows the limit that means none. -/
def pageClause (s : Select) : String :=
  let limit :=
    match s.limit, s.offset with
    | some n, _ => " LIMIT " ++ Numeral.ofInt n.val
    | none, some _ => " LIMIT -1"
    | none, none => ""
  let offset :=
    match s.offset with
    | some n => " OFFSET " ++ Numeral.ofInt n.val
    | none => ""
  limit ++ offset

/-- Order and page say nothing about the one row of an aggregate. -/
def fragments (s : Select) : List Fragment :=
  .text ("SELECT " ++ s.list.text ++ " FROM " ++ s.table ++
      String.join (s.joins.map (JoinClause.text s.table))) ::
    s.whereClause ++
    if s.list.isAggregate then [] else [.text (s.orderClause ++ s.pageClause)]

end Select

end RecordMapper.Sql
