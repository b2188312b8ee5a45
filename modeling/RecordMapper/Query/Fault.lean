import RecordMapper.Expr
import RecordMapper.Number.Numeral
import RecordMapper.Schema.JoinTarget
/-!
Why a query has no statement.
-/

namespace RecordMapper

/-- The operations that take a row count. -/
inductive PageOp
  | take | skip
  deriving DecidableEq, Repr

def PageOp.name : PageOp → String
  | take => "take"
  | skip => "skip"

inductive QueryFault
  | unresolvedRoot (name : String) (cause : Error)
  | rootWithoutTable (record : String)
  | unknownJoinField (record field : String)
  | join (fault : JoinFault)
  | joinWithoutTable (target : String)
  | unmappedField (record field : String)
  | expression (e : Expr)
  | operator (op : Operator)
  | listConstant
  | membershipAgainst (list : Expr)
  | emptyMembership
  | patternOn (kind : PatternKind) (operand : Expr)
  | patternWith (kind : PatternKind) (text : Expr)
  | patternConstant (kind : PatternKind)
  | projected (e : Expr)
  | orderedBy (e : Expr)
  | noVectorSearch
  | distanceOver (operand : Expr)
  | distanceVector
  | sumSelector (selector : Expr)
  | negativeCount (op : PageOp) (count : Int)
  | countConstant (op : PageOp) (count : Expr)
  deriving Repr

namespace QueryFault

def noMappedField (record field : String) : String :=
  "record `" ++ record ++ "` has no mapped field `" ++ field ++ "`"

def fault : QueryFault → Fault
  | unresolvedRoot name _ =>
    ⟨.schemaResolution, "cannot resolve the root record `" ++ name ++ "`"⟩
  | rootWithoutTable record => ⟨.schemaResolution, "record `" ++ record ++ "` has no table name"⟩
  | unknownJoinField record field =>
    ⟨.schemaResolution, "join from `" ++ record ++ "` names unknown field `" ++ field ++ "`"⟩
  | join f => f.fault
  | joinWithoutTable target =>
    ⟨.schemaResolution, "join target `" ++ target ++ "` has no table name"⟩
  | unmappedField record field => ⟨.schemaResolution, noMappedField record field⟩
  | expression e => ⟨.unsupportedExpression, e.describe⟩
  | operator op => ⟨.unsupportedExpression, "operator `" ++ op.symbol ++ "`"⟩
  | listConstant => ⟨.unsupportedExpression, "list constant outside a membership test"⟩
  | membershipAgainst list =>
    ⟨.unsupportedExpression, "membership test against " ++ list.describe⟩
  | emptyMembership => ⟨.invalidArgument, "membership test requires a non-empty list"⟩
  | patternOn kind operand =>
    ⟨.unsupportedExpression, kind.name ++ " on " ++ operand.describe⟩
  | patternWith kind text =>
    ⟨.unsupportedExpression, kind.name ++ " with " ++ text.describe ++ " as pattern"⟩
  | patternConstant kind =>
    ⟨.invalidArgument, kind.name ++ " requires a non-null scalar pattern"⟩
  | projected e => ⟨.unsupportedExpression, e.describe ++ " in a projection"⟩
  | orderedBy e => ⟨.unsupportedExpression, "ordering by " ++ e.describe⟩
  | noVectorSearch =>
    ⟨.unsupportedExpression, "vector_distance on an engine without vector search"⟩
  | distanceOver operand =>
    ⟨.unsupportedExpression, "vector_distance over " ++ operand.describe⟩
  | distanceVector => ⟨.invalidArgument, "vector_distance requires a literal vector"⟩
  | sumSelector selector =>
    ⟨.invalidArgument, "sum requires a field selector, found " ++ selector.describe⟩
  | negativeCount op count =>
    ⟨.invalidArgument, op.name ++ " count must not be negative, got " ++ Numeral.ofInt count⟩
  | countConstant op count =>
    ⟨.invalidArgument,
      op.name ++ " count must be an integer constant, found " ++ count.describe⟩

/-- The fault around what caused it. -/
def toError (q : QueryFault) : Error :=
  match q with
  | unresolvedRoot _ cause => cause.context q.fault
  | join f => f.toError
  | _ => ⟨q.fault, []⟩

end QueryFault

end RecordMapper
