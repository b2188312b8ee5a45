import RecordMapper.Expr
import RecordMapper.Sql.Fragment
/-!
Filter conditions over column names and bound values, and their tokens. Binary operations and null
tests stand in parentheses; negation puts its operand in parentheses; the presence test, the
membership test and the pattern test stand bare.
-/

namespace RecordMapper.Sql

inductive Filter
  | column (name : String)
  | null
  | bound (value : Value)
  | conj (left right : Filter)
  | disj (left right : Filter)
  | neg (operand : Filter)
  | binary (op : Operator) (left right : Filter)
  | hasValue (operand : Filter)
  | nullTest (negated : Bool) (operand : Filter)
  | member (operand : Filter) (items : List Value)
  | like (column pattern : String)
  deriving Repr

inductive Token
  | opening | closing | comma
  | conj | disj | neg
  | isNull | isNotNull | isIn | isLike
  | op (op : Operator)
  | null
  | name (name : String)
  | bound (value : Value)
  deriving Repr

/-- The spelling of a token with the blanks around it. -/
def Token.fragment : Token → Fragment
  | opening => .text "("
  | closing => .text ")"
  | comma => .text ", "
  | conj => .text " AND "
  | disj => .text " OR "
  | neg => .text "NOT "
  | isNull => .text " IS NULL"
  | isNotNull => .text " IS NOT NULL"
  | isIn => .text " IN "
  | isLike => .text " LIKE "
  | op o => .text (" " ++ o.symbol ++ " ")
  | null => .text "NULL"
  | name n => .text n
  | bound value => .bound value

namespace Filter

def tokens : Filter → List Token
  | column name => [.name name]
  | null => [.null]
  | bound value => [.bound value]
  | conj l r => .opening :: l.tokens ++ .conj :: r.tokens ++ [.closing]
  | disj l r => .opening :: l.tokens ++ .disj :: r.tokens ++ [.closing]
  | neg e => .neg :: .opening :: e.tokens ++ [.closing]
  | binary op l r => .opening :: l.tokens ++ .op op :: r.tokens ++ [.closing]
  | hasValue e => e.tokens ++ [.isNotNull]
  | nullTest negated e =>
    .opening :: e.tokens ++ [if negated then .isNotNull else .isNull, .closing]
  | member e items =>
    e.tokens ++ .isIn :: .opening :: (items.map Token.bound).intersperse .comma ++ [.closing]
  | like name pattern => [.name name, .isLike, .bound (.text pattern)]

def fragments (f : Filter) : List Fragment := f.tokens.map Token.fragment

end Filter

end RecordMapper.Sql
