import RecordMapper.Derive.Grammar.Pattern
/-!
Operators, and what their right operands reach to.
-/

namespace RecordMapper.Derive.Grammar

open Reader

/-- The marks between two operands, those that begin with another one before it. -/
def operators : List (String × Precedence) :=
  [("+=", .assignment), ("-=", .assignment), ("*=", .assignment), ("/=", .assignment),
    ("%=", .assignment), ("^=", .assignment), ("&=", .assignment), ("|=", .assignment),
    ("<<=", .assignment), (">>=", .assignment), ("&&", .conjunction), ("||", .disjunction),
    ("<<", .shift), (">>", .shift), ("==", .comparison), ("<=", .comparison), ("!=", .comparison),
    (">=", .comparison), ("+", .sum), ("-", .sum), ("*", .product), ("/", .product),
    ("%", .product), ("^", .bitXor), ("&", .bitAnd), ("|", .bitOr), ("<", .comparison),
    (">", .comparison)]

def operator? (tokens : List Token) : Option (String × Precedence) :=
  operators.find? fun (text, _) => atMark text tokens

def atAssignment (tokens : List Token) : Bool := atMark "=" tokens && !atMark "=>" tokens

/-- The precedence of what follows, the weakest where it is no operator. -/
def precedenceAhead (tokens : List Token) : Precedence :=
  match operator? tokens with
  | some (_, precedence) => precedence
  | none =>
    if atAssignment tokens then .assignment
    else if atMark ".." tokens then .range
    else if atWord "as" tokens then .cast
    else .weakest

/-- What an expression can begin with. -/
def startsExpression (tokens : List Token) : Bool :=
  let but (text : String) (others : List String) : Bool :=
    atMark text tokens && !others.any fun other => atMark other tokens
  atAnyWord tokens || atGroup .parenthesis tokens || atGroup .bracket tokens ||
    atGroup .brace tokens || atLiteral tokens || but "!" ["!="] || but "-" ["-=", "->"] ||
    but "*" ["*="] || but "|" ["|="] || but "&" ["&="] || atMark ".." tokens ||
    but "<" ["<=", "<<="] || atMark "::" tokens || atLifetime tokens || atMark "#" tokens

/-- What comes after a range without an end. -/
def endsRange (braces : Bool) (tokens : List Token) : Bool :=
  tokens.isEmpty || atDot tokens || !braces && atGroup .brace tokens || atWord "as" tokens ||
    [",", ";", "?", "=>", "=", "+", "/", "%", "^", ">", "<=", "!=", "-=", "*=", "&=", "|=",
      "<<="].any fun text => atMark text tokens

/-- What follows an operator: an operand, with all that binds it more strongly than the operator.
Assignments associate to the right. -/
def rightOperand (c : Rules) (braces : Bool) (precedence : Precedence) : Reader Unit := do
  let first ← c.read (.operand braces)
  let _ ← iterate (fun right => do
    let before ← look
    let ahead := precedenceAhead before
    if precedence.rank < ahead.rank || ahead = .assignment && precedence = .assignment then
      let right ← c.read (.operations braces ahead right)
      return (right, (← look).length < before.length)
    return (right, false)) first

/-- The dots of a range and its end. -/
def rangeEnd (c : Rules) (braces : Bool) : Reader Unit := do
  let found ← limits
  if !(found = .halfOpen && endsRange braces (← look)) then rightOperand c braces .range

/-- No call, index, member or question mark may follow the type of a cast. -/
def followsNoCast (tokens : List Token) : Bool :=
  atDot tokens || atMark "?" tokens || atGroup .bracket tokens || atGroup .parenthesis tokens

/-- The operators that are no weaker than `base`, one after the other, with what follows each. A
range is no left operand, and comparisons are not chained. -/
def operations (c : Rules) (braces : Bool) (base : Precedence) (left : ExpressionForm) :
    Reader ExpressionForm :=
  iterate (fun (left : ExpressionForm) => do
    let tokens ← look
    if left.kind = .range then return (left, false)
    match operator? tokens with
    | some (text, precedence) =>
      if precedence.rank < base.rank then return (left, false)
      if precedence = .comparison && left.kind = .comparison then fail
      mark text
      rightOperand c braces precedence
      let kind := if precedence = .comparison then .comparison else .other
      return (⟨kind, left.raw⟩, true)
    | none =>
      if base.rank ≤ Precedence.assignment.rank && atAssignment tokens then
        mark "="
        rightOperand c braces .assignment
        return (⟨.other, left.raw⟩, true)
      else if base.rank ≤ Precedence.range.rank && atMark ".." tokens then
        rangeEnd c braces
        return (.range, true)
      else if atWord "as" tokens then
        anyWord
        let _ ← c.read (.type false)
        if followsNoCast (← look) then fail
        return (⟨.other, left.raw⟩, true)
      else return (left, false)) left

def expression (c : Rules) (braces : Bool) : Reader ExpressionForm := do
  let first ← c.read (.operand braces)
  c.read (.operations braces .weakest first)

end RecordMapper.Derive.Grammar
