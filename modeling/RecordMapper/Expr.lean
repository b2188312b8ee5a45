import RecordMapper.Value
/-!
Expression trees of queries. Field references name native fields of the root record; what the
caller has evaluated already is a constant.
-/

namespace RecordMapper

inductive Operator
  | eq | ne | ge | gt | le | lt | add | sub | mul | div | rem
  deriving DecidableEq, Repr

namespace Operator

def symbol : Operator → String
  | eq => "="
  | ne => "!="
  | ge => ">="
  | gt => ">"
  | le => "<="
  | lt => "<"
  | add => "+"
  | sub => "-"
  | mul => "*"
  | div => "/"
  | rem => "%"

def isArithmetic : Operator → Bool
  | add | sub | mul | div | rem => true
  | _ => false

end Operator

inductive PatternKind
  | contains | startsWith | endsWith
  deriving DecidableEq, Repr

namespace PatternKind

def name : PatternKind → String
  | contains => "contains"
  | startsWith => "starts_with"
  | endsWith => "ends_with"

/-- The text between the wildcards of the kind. -/
def wrap : PatternKind → String → String
  | contains, text => "%" ++ text ++ "%"
  | startsWith, text => text ++ "%"
  | endsWith, text => "%" ++ text

end PatternKind

inductive Expr
  | conj (left right : Expr)
  | disj (left right : Expr)
  | neg (operand : Expr)
  | binary (op : Operator) (left right : Expr)
  | cast (operand : Expr) (type : NativeType)
  | field (name : String)
  | call (name : String) (args : List Expr)
  | hasValue (operand : Expr)
  | nullTest (negated : Bool) (operand : Expr)
  | member (operand list : Expr)
  | pattern (kind : PatternKind) (operand text : Expr)
  /-- Record construction, each field under an alias. -/
  | record (fields : List (String × Expr))
  | constant (value : Value)
  | vectorDistance (operand vector : Expr)
  deriving Repr

namespace Expr

/-- How errors name an expression. -/
def describe : Expr → String
  | conj .. => "AND"
  | disj .. => "OR"
  | neg _ => "NOT"
  | binary op .. => "operator `" ++ op.symbol ++ "`"
  | cast _ type => "cast to " ++ type.name
  | field name => "field `" ++ name ++ "`"
  | call name _ => "method `" ++ name ++ "`"
  | hasValue _ => "has_value"
  | nullTest .. => "null test"
  | member .. => "list membership"
  | pattern kind .. => "pattern `" ++ kind.name ++ "`"
  | record _ => "record construction"
  | constant _ => "constant"
  | vectorDistance .. => "vector_distance"

/-- The expression under any number of casts. -/
def stripCasts : Expr → Expr
  | cast operand _ => operand.stripCasts
  | e => e

/-- What does not see casts is the same without them. -/
theorem apply_stripCasts {α : Type} {f : Expr → α} (h : ∀ e type, f (cast e type) = f e)
    (e : Expr) : f e.stripCasts = f e := by
  fun_induction stripCasts e with
  | case1 operand type ih => rw [ih, h]
  | case2 => rfl

def isConstant : Expr → Bool
  | constant _ => true
  | _ => false

def isNullConstant : Expr → Bool
  | constant .null => true
  | _ => false

def isField : Expr → Bool
  | field _ => true
  | _ => false

def isEquality : Expr → Bool
  | binary .eq .. => true
  | _ => false

def isNegation : Expr → Bool
  | neg _ => true
  | _ => false

def isCast : Expr → Bool
  | cast .. => true
  | _ => false

def fieldName? : Expr → Option String
  | field name => some name
  | _ => none

mutual

/-- Equality that compares float constants as numbers. -/
def same : Expr → Expr → Bool
  | conj a b, conj c d => same a c && same b d
  | disj a b, disj c d => same a c && same b d
  | neg a, neg b => same a b
  | binary op a b, binary op' c d => op == op' && same a c && same b d
  | cast a s, cast b t => same a b && s == t
  | field a, field b => a == b
  | call f as, call g bs => f == g && sameArgs as bs
  | hasValue a, hasValue b => same a b
  | nullTest p a, nullTest q b => p == q && same a b
  | member a b, member c d => same a c && same b d
  | pattern k a b, pattern l c d => k == l && same a c && same b d
  | record as, record bs => sameFields as bs
  | constant a, constant b => a.same b
  | vectorDistance a b, vectorDistance c d => same a c && same b d
  | _, _ => false

def sameArgs : List Expr → List Expr → Bool
  | [], [] => true
  | a :: as, b :: bs => same a b && sameArgs as bs
  | _, _ => false

def sameFields : List (String × Expr) → List (String × Expr) → Bool
  | [], [] => true
  | (m, a) :: as, (n, b) :: bs => m == n && same a b && sameFields as bs
  | _, _ => false

end

end Expr

end RecordMapper
