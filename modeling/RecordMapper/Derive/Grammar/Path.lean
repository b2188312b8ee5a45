import RecordMapper.Derive.Grammar.Attribute
/-!
Paths with arguments. In an expression arguments stand behind `::`, in a type that mark may be left
out.
-/

namespace RecordMapper.Derive.Grammar

open Reader

/-- The arguments of a segment. -/
inductive SegmentForm
  | bare
  /-- Angles with nothing in them. They are not written yet. -/
  | hollow (angles : List Token)
  | full

namespace SegmentForm

/-- What is left to write. -/
def pending : SegmentForm → List Token
  | hollow angles => angles
  | bare | full => []

def isBare : SegmentForm → Bool
  | bare => true
  | hollow _ | full => false

end SegmentForm

structure PathForm where
  /-- One segment, and no mark before it. -/
  single : Bool
  /-- No segment has arguments. -/
  plain : Bool
  last : SegmentForm

def startsArguments (inExpression : Bool) (tokens : List Token) : Bool :=
  (!inExpression && atMark "<" tokens && !atMark "<=" tokens && !atMark "<<=" tokens) ||
    atMark "::" tokens && atMark "<" (skipTwo tokens)

/-- One name in a path. -/
def segment (c : Rules) (inExpression : Bool) : Reader SegmentForm := do
  let tokens ← look
  if atOneOf ["super", "self", "crate", "try"] tokens then
    anyWord
    return .bare
  if atWord "Self" tokens then anyWord else name
  if startsArguments inExpression (← look) then
    let (any, angles) ← captured (c.read .arguments)
    if !any then return .hollow angles
    write angles
    return .full
  return .bare

/-- A path whose last segment is not written out, if it has angles with nothing in them. Parentheses
behind `::` are no part of it. -/
def openPath (c : Rules) (inExpression : Bool) : Reader PathForm := do
  let rooted ← optionalMark "::"
  let first ← segment c inExpression
  iterate (fun (path : PathForm) => do
    let tokens ← look
    if !atMark "::" tokens || atGroup .parenthesis (skipTwo tokens) then return (path, false)
    write path.last.pending
    mark "::"
    let next ← segment c inExpression
    return (⟨false, path.plain && next.isBare, next⟩, true)) ⟨!rooted, first.isBare, first⟩

def path (c : Rules) (inExpression : Bool) : Reader PathForm := do
  let found ← openPath c inExpression
  write found.last.pending
  return found

/-- A path through a type in angles. -/
def qualifiedPath (c : Rules) (inExpression : Bool) : Reader Unit := do
  mark "<"
  let _ ← c.read (.type true)
  if ← optionalWord "as" then
    let _ ← path c false
  mark ">"
  mark "::"
  repeated do
    let found ← segment c inExpression
    write found.pending
    optionalMark "::"

/-- A path, or one through a type, of which nothing more is told. -/
def anyPath (c : Rules) (inExpression : Bool) : Reader (Option PathForm) := do
  if atMark "<" (← look) then
    qualifiedPath c inExpression
    return none
  return some (← path c inExpression)

/-- A path can be called by the mark `!`, which follows. -/
def invoked (found : Option PathForm) (tokens : List Token) : Bool :=
  found.any (·.plain) && atInvocation tokens

/-- The mark `!` and the group after it. -/
def invocation : Reader Delimiter := do
  mark "!"
  anyGroup

/-- An argument in angles. Whether it is a lifetime. A single path may be the name of what follows
it. -/
def argument (c : Rules) : Reader Bool := do
  let tokens ← look
  if atLifetime tokens && !atMark "+" (skip tokens) then
    lifetime
    return true
  if atConstant tokens then constantArgument c
  else
    match ← c.read (.type true) with
    | .path true =>
      if ← optionalMark "=" then
        if atConstant (← look) then constantArgument c
        else
          let _ ← c.read (.type true)
      else if ← optionalMark ":" then
        let _ ← summed (fun tokens => atMark "," tokens || atMark ">" tokens) do
          let _ ← c.read (.bound false true)
    | _ => pure ()
  return false

/-- Arguments in angles. -/
def arguments (c : Rules) : Reader Bool := do
  let _ ← optionalMark "::"
  sortedAngled (argument c)

end RecordMapper.Derive.Grammar
