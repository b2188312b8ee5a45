import RecordMapper.Derive.Grammar.Member
/-!
Patterns: names, literals and ranges, paths with what they hold, tuples and slices, and several of
them with bars between.
-/

namespace RecordMapper.Derive.Grammar

open Reader

/-- One more pattern follows. -/
def atAlternative (tokens : List Token) : Bool :=
  atMark "|" tokens && !atMark "||" tokens && !atMark "|=" tokens

/-- Patterns with bars between them. A bar may stand before the first one. -/
def alternatives (c : Rules) : Reader PatternForm := do
  let barred ← optionalMark "|"
  let first ← c.read .pattern
  iterate (fun form => do
    if !atAlternative (← look) then return (form, false)
    mark "|"
    let _ ← c.read .pattern
    return (.other, true)) (if barred then .other else first)

/-- What comes after a range without an end. -/
def endsRangePattern (tokens : List Token) : Bool :=
  tokens.isEmpty || atMark "|" tokens || atMark "=" tokens || atColon tokens ||
    atMark "," tokens || atMark ";" tokens || atWord "if" tokens

/-- A block that is constant. -/
def constantBlock (c : Rules) : Reader Unit := do
  word "const"
  body c

/-- A start or an end of a range, which may be missing. Whether it is there. -/
def rangeLimit (c : Rules) : Reader Bool := do
  let tokens ← look
  if endsRangePattern tokens then return false
  if atLiteral tokens then literal
  else if atPlace tokens || atWord "Self" tokens || atMark "::" tokens || atMark "<" tokens then
    let _ ← anyPath c true
  else constantBlock c
  return true

/-- The dots of a range and its end. -/
def restOfRange (c : Rules) : Reader PatternForm := do
  let limits ← patternLimits
  if ← rangeLimit c then return .other
  if limits = .closed then fail
  return .openRange

/-- A pattern in braces for the field of that name. -/
def fieldPattern (c : Rules) : Reader Unit := do
  let boxed := atWord "box" (← look)
  let _ ← optionalWord "box"
  let borrowed ← optionalWord "ref"
  let mutable ← optionalWord "mut"
  if boxed || borrowed || mutable then name
  else if !(← member) || atMark ":" (← look) then
    mark ":"
    let _ ← alternatives c

/-- Patterns of fields. Two dots stand for the others, after all of them. -/
def fieldPatterns (c : Rules) : Reader Unit := repeated do
  if (← look).isEmpty then return false
  let _ ← attributes c
  if ← optionalMark ".." then return false
  fieldPattern c
  if (← look).isEmpty then return false
  mark ","
  return true

/-- A pattern that begins with a path. -/
def pathPattern (c : Rules) : Reader PatternForm := do
  let found ← anyPath c true
  let tokens ← look
  if invoked found tokens then
    let _ ← invocation
    return .other
  if atGroup .brace tokens then
    inside .brace (fieldPatterns c)
    return .other
  if atGroup .parenthesis tokens then
    inside .parenthesis <| listed do
      let _ ← alternatives c
    return .other
  if atMark ".." tokens then restOfRange c else return .other

/-- A name that the pattern gives to what it stands for. -/
def namePattern (c : Rules) : Reader Unit := do
  let _ ← optionalWord "ref"
  let _ ← optionalWord "mut"
  if atWord "self" (← look) then anyWord else name
  if ← optionalMark "@" then
    let _ ← c.read .pattern

/-- A pattern in brackets. Ranges without a start or an end stand in parentheses there. -/
def slicePattern (c : Rules) : Reader Unit :=
  inside .bracket <| listed do
    if (← alternatives c) = .openRange then fail

/-- What a path begins with, where it is no name of its own. -/
def startsPathPattern (tokens : List Token) : Bool :=
  let after := skip tokens
  atName tokens &&
      (atGroup .brace after || atGroup .parenthesis after ||
        ["::", "!", ".."].any fun text => atMark text after) ||
    atWord "self" tokens && atMark "::" after || atMark "::" tokens || atMark "<" tokens ||
    atOneOf ["Self", "super", "crate"] tokens

/-- A pattern that is not several ones. -/
def pattern (c : Rules) : Reader PatternForm := do
  let tokens ← look
  if startsPathPattern tokens then pathPattern c
  else if atWord "_" tokens then
    anyWord
    return .other
  else if atWord "box" tokens then
    asTakenWhen (fun _ => true) do
      anyWord
      let _ ← c.read .pattern
      return .raw
  else if atMark "-" tokens || atLiteral tokens || atWord "const" tokens then
    let _ ← rangeLimit c
    if atMark ".." (← look) then restOfRange c else return .other
  else if atOneOf ["ref", "mut", "self"] tokens || atName tokens then
    namePattern c
    return .other
  else if atMark "&" tokens then
    mark "&"
    let _ ← optionalWord "mut"
    let _ ← c.read .pattern
    return .other
  else
    match tokens with
    | .group .parenthesis _ :: _ =>
      inside .parenthesis <| listed do
        let _ ← alternatives c
      return .other
    | .group .bracket _ :: _ =>
      slicePattern c
      return .other
    | _ =>
      let found ← limits
      if ← rangeLimit c then return .openRange
      if found = .closed then fail
      return .rest

end RecordMapper.Derive.Grammar
