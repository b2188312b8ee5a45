import RecordMapper.Derive.Grammar.Operator
/-!
Expressions without operators between operands: literals, paths, structs, closures, blocks and
jumps, with the calls, members and indexes after them and the signs before them.
-/

namespace RecordMapper.Derive.Grammar

open Reader

/-- An expression of which nothing is told. -/
def anyExpression (c : Rules) : Reader Unit := do
  let _ ← c.read (.expression true)

/-- An expression that ends before a brace, as one before a body does. -/
def head (c : Rules) : Reader Unit := do
  let _ ← c.read (.expression false)

/-- Branches, each but the last with a condition. -/
def conditional (c : Rules) : Reader Unit := repeated do
  word "if"
  head c
  block c
  if !(← optionalWord "else") then return false
  if atWord "if" (← look) then return true
  block c
  return false

/-- One arm of a match. A comma follows it, unless it is a block or the last one. -/
def arm (c : Rules) : Reader Unit := do
  let _ ← attributes c
  let _ ← alternatives c
  if ← optionalWord "if" then anyExpression c
  mark "=>"
  let form ← c.read .leading
  if !(← optionalMark ",") && form.kind ≠ .block && !(← look).isEmpty then fail

def loop (c : Rules) : Reader Unit := do
  if ← optionalWord "while" then head c
  else if ← optionalWord "for" then
    let _ ← alternatives c
    word "in"
    head c
  else word "loop"
  body c

def labelled (c : Rules) : Reader Unit := do
  lifetime
  mark ":"
  if atGroup .brace (← look) then body c else loop c

/-- An expression that ends in a block of its own follows. -/
def startsBlock (tokens : List Token) : Bool :=
  let braced := atGroup .brace (skip tokens)
  atOneOf ["if", "while", "loop", "match", "unsafe"] tokens ||
    atWord "for" tokens && !startsParameters (skip tokens) ||
    atOneOf ["try", "const"] tokens && braced || atGroup .brace tokens || atLifetime tokens

def blockExpression (c : Rules) : Reader Unit := do
  let tokens ← look
  if atWord "if" tokens then conditional c
  else if atWord "match" tokens then
    anyWord
    head c
    inside .brace do
      innerAttributes c
      toEnd (arm c)
  else if atWord "try" tokens then
    anyWord
    block c
  else if atOneOf ["unsafe", "const"] tokens then
    anyWord
    body c
  else if atLifetime tokens then labelled c
  else if atGroup .brace tokens then body c
  else loop c

/-- An argument of a closure. -/
def closureArgument (c : Rules) : Reader Unit := do
  let (_, before) ← captured (attributes c)
  let (form, pattern) ← captured (c.read .pattern)
  let typed := atMark ":" (← look)
  if typed || form ≠ .raw then write before
  write pattern
  if typed then
    mark ":"
    let _ ← c.read (.type true)

/-- A closure follows. -/
def startsClosure (tokens : List Token) : Bool :=
  let after := skip tokens
  atMark "|" tokens || atOneOf ["move", "static"] tokens ||
    atWord "for" tokens && startsParameters after ||
    atWord "const" tokens && !atGroup .brace after ||
    atWord "async" tokens && (atMark "|" after || atWord "move" after)

/-- Arguments between bars, and an expression. A type after an arrow asks for a block. -/
def closure (c : Rules) (braces : Bool) : Reader Unit := do
  let _ ← forAll c
  let _ ← optionalWord "const"
  let _ ← optionalWord "static"
  let _ ← optionalWord "async"
  let _ ← optionalWord "move"
  mark "|"
  repeated do
    if atMark "|" (← look) then return false
    closureArgument c
    if atMark "|" (← look) then return false
    mark ","
    return true
  mark "|"
  if atMark "->" (← look) then
    returned c true
    block c
  else
    let _ ← c.read (.expression braces)

/-- A field of a struct expression, its name alone or with a value. -/
def fieldValue (c : Rules) : Reader Unit := do
  let _ ← attributes c
  if !(← member) || atMark ":" (← look) then
    mark ":"
    anyExpression c

/-- Fields with values. Two dots stand for the others, after all of them. -/
def fieldValues (c : Rules) : Reader Unit := repeated do
  if (← look).isEmpty then return false
  if ← optionalMark ".." then
    if !(← look).isEmpty then anyExpression c
    return false
  fieldValue c
  if (← look).isEmpty then return false
  mark ","
  return true

/-- A path, a call by the mark `!`, or a struct. -/
def pathExpression (c : Rules) (braces : Bool) : Reader ExpressionForm := do
  let found ← anyPath c true
  let tokens ← look
  if invoked found tokens then
    return if (← invocation) = .brace then .invocation else .other
  if braces && atGroup .brace tokens then inside .brace (fieldValues c)
  return .other

def startsPathExpression (tokens : List Token) : Bool :=
  let after := skip tokens
  atPlace tokens || atMark "::" tokens || atMark "<" tokens || atWord "Self" tokens ||
    atWord "try" tokens && (atMark "!" after || atMark "::" after)

/-- Expressions with commas between them, or one that is repeated. -/
def elements (c : Rules) : Reader Unit := do
  if !(← look).isEmpty then
    anyExpression c
    if ← optionalMark ";" then anyExpression c
    else if ← optionalMark "," then listed (anyExpression c)

/-- What is left by a break, a return or a yield, if there is something. -/
def leaving (c : Rules) (braces : Bool) : Reader Unit := do
  let tokens ← look
  if startsExpression tokens && (braces || !atGroup .brace tokens) then anyExpression c

/-- An operand without what may stand before or after it. -/
def atom (c : Rules) (braces : Bool) : Reader ExpressionForm := do
  let tokens ← look
  let after := skip tokens
  if atLiteral tokens then
    literal
    return .other
  if startsBlock tokens then
    blockExpression c
    return .block
  if atWord "async" tokens &&
      (atGroup .brace after || atWord "move" after && atGroup .brace (skip after)) then
    anyWord
    let _ ← optionalWord "move"
    block c
    return .other
  if startsClosure tokens then
    closure c braces
    return .other
  if atBuiltin tokens then
    builtin
    return .unread
  if startsPathExpression tokens then return ← pathExpression c braces
  if atMark ".." tokens then
    rangeEnd c braces
    return .range
  match tokens with
  | .group .parenthesis _ :: _ =>
    inside .parenthesis (listed (anyExpression c))
    return .other
  | .group .bracket _ :: _ =>
    inside .bracket (elements c)
    return .other
  | .word "break" :: _ =>
    anyWord
    if atLifetime after && atMark ":" (skip after) then fail
    optionalLifetime
    leaving c braces
    return .other
  | .word "continue" :: _ =>
    anyWord
    optionalLifetime
    return .other
  | .word "return" :: _ | .word "yield" :: _ =>
    anyWord
    leaving c true
    return .other
  | .word "become" :: _ =>
    anyWord
    anyExpression c
    return .unread
  | .word "let" :: _ =>
    anyWord
    let _ ← alternatives c
    mark "="
    let first ← c.read (.operand braces)
    let _ ← c.read (.operations braces .comparison first)
    return .other
  | .word "_" :: _ =>
    anyWord
    return .other
  | _ => fail

/-- A member by its name or place, or a call of one. -/
def memberSuffix (c : Rules) : Reader Unit := do
  if !(← optionalWord "await") then
    if ← member then
      let tokens ← look
      let applied := atMark "::" tokens
      if applied then
        let _ ← c.read .arguments
      if applied || atGroup .parenthesis tokens then
        inside .parenthesis (listed (anyExpression c))

/-- What comes after a dot. A number with a point stands for places one after the other; if it ends
in its point, a member follows that. -/
def afterDot (c : Rules) : Reader Unit := do
  match ← look with
  | .literal (.real written) :: _ =>
    let _ ← captured (take 1)
    let parts := written.splitOn "."
    let goesOn := parts.getLast? = some ""
    match tupleIndexes? (if goesOn then parts.dropLast else parts) with
    | none => fail
    | some indexes =>
      write indexes
      if goesOn then
        write [.mark '.' false]
        memberSuffix c
  | _ => memberSuffix c

/-- Calls, indexes, members and question marks. A range takes neither of the last two. -/
def suffixes (c : Rules) (form : ExpressionForm) : Reader ExpressionForm :=
  iterate (fun (form : ExpressionForm) => do
    let tokens ← look
    if atGroup .parenthesis tokens then
      inside .parenthesis (listed (anyExpression c))
      return (.other, true)
    else if atDot tokens && form.kind ≠ .range then
      mark "."
      afterDot c
      return (.other, true)
    else if atGroup .bracket tokens then
      inside .bracket (anyExpression c)
      return (.other, true)
    else if atMark "?" tokens && form.kind ≠ .range then
      mark "?"
      return (.other, true)
    else return (form, false)) form

/-- An operand with what stands before it: attributes, references and signs. Attributes do not go
with a range. -/
def operand (c : Rules) (braces : Bool) : Reader ExpressionForm :=
  asTakenWhen (fun found => found.raw) do
    let attributed := !(← attributes c).isEmpty
    let tokens ← look
    if atMark "&" tokens then
      mark "&"
      let after ← look
      if atWord "raw" after && atOneOf ["mut", "const"] (skip after) then take 2
      else
        let _ ← optionalWord "mut"
      let _ ← c.read (.operand braces)
      return .other
    if atMark "*" tokens || atMark "!" tokens || atMark "-" tokens then
      take 1
      let _ ← c.read (.operand braces)
      return .other
    let form ← suffixes c (← atom c braces)
    if attributed && form.kind = .range then fail
    return form

/-- An expression that begins a statement or makes an arm. -/
def leading (c : Rules) : Reader ExpressionForm := do
  let (_, before) ← captured (attributes c)
  if startsBlock (← look) then
    write before
    blockExpression c
    let tokens ← look
    if !(atDot tokens || atMark "?" tokens) then return .block
    let form ← suffixes c .block
    c.read (.operations true .weakest form)
  else
    let (form, written) ← captured (c.read (.operand true))
    if !form.raw then write before
    write written
    c.read (.operations true .weakest form)

end RecordMapper.Derive.Grammar
