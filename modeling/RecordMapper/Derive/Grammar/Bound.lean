import RecordMapper.Derive.Grammar.Path
/-!
Bounds, parameters with their bounds, and conditions.
-/

namespace RecordMapper.Derive.Grammar

open Reader

/-- Parameters that a type or a bound is read for all of. Whether they are there. -/
def forAll (c : Rules) : Reader Bool := do
  if !(← optionalWord "for") then return false
  angled do
    let _ ← attributes c
    let _ ← c.read .parameter
  return true

/-- The type after an arrow, if there is one. -/
def returned (c : Rules) (plus : Bool) : Reader Unit := do
  if ← optionalMark "->" then
    let _ ← c.read (.type plus)

/-- Types in parentheses, and the type that comes of them. -/
def calledTypes (c : Rules) : Reader Unit := do
  inside .parenthesis <| listed do
    let _ ← c.read (.type true)
  returned c false

/-- `const` before a bound, in brackets or without them. Whether it is there. -/
def constancy : Reader Bool := do
  if atGroup .bracket (← look) then
    inside .bracket (word "const")
    return true
  optionalWord "const"

/-- A path with what may stand before it in a bound. Parameters do not go with a question mark.
Types in parentheses take the place of angles with nothing in them, and the mark before them is not
written. Whether the bound is a constant one. -/
def pathBound (c : Rules) (constant : Bool) : Reader Bool := do
  let before ← forAll c
  let found ← constancy
  let relaxed ← optionalMark "?"
  let behind ← if relaxed && !before then forAll c else pure false
  let path ← openPath c false
  let tokens ← look
  let hollow := match path.last with
    | .full => false
    | .bare | .hollow _ => true
  let called := atGroup .parenthesis tokens ||
    atMark "::" tokens && atGroup .parenthesis (skipTwo tokens)
  if hollow && called then
    let _ ← captured (optionalMark "::")
    calledTypes c
  else write path.last.pending
  if found && !constant || relaxed && (before || behind) then fail
  return found

/-- Lifetimes and names that a type captures. The lifetimes are written first. -/
def capture : Reader Unit := do
  word "use"
  let _ ← sortedAngled do
    let tokens ← look
    if atLifetime tokens then
      lifetime
      return true
    if atWord "Self" tokens then anyWord else name
    return false

def bound (c : Rules) (captures constant : Bool) : Reader BoundForm := do
  let tokens ← look
  if atLifetime tokens then
    lifetime
    return .lifetime
  if atWord "use" tokens then
    if !captures then fail
    capture
    return .capture
  asTakenWhen (fun found => found matches .constant) do
    let read := noted (pathBound c constant)
    let (found, written) ← if atGroup .parenthesis tokens then inside .parenthesis read else read
    return if found then .constant else .plain written

/-- What a bound can begin with. -/
def startsBound (constant : Bool) (tokens : List Token) : Bool :=
  atAnyWord tokens || atMark "::" tokens || atMark "?" tokens || atLifetime tokens ||
    atGroup .parenthesis tokens || constant && atGroup .bracket tokens

/-- Bounds, with plus signs between them where `plus` is set. The last plus sign may stand alone.
One of the bounds at least is neither a lifetime nor a capture. -/
def bounds (c : Rules) (plus captures constant : Bool) : Reader Unit := do
  let found ← iterate (fun (found : Bool) => do
    let form ← c.read (.bound captures constant)
    let found := found || form matches .plain _ || form matches .constant
    if plus && (← optionalMark "+") then return (found, startsBound constant (← look))
    return (found, false)) false
  if !found then fail

/-- A bound on a parameter, a supertrait, or one on an associated type. -/
def itemBound (c : Rules) : Reader Unit := do
  let _ ← c.read (.bound false true)

def endsParameter (tokens : List Token) : Bool := atMark "," tokens || atMark ">" tokens

/-- A parameter after its attributes. Whether it is a lifetime. -/
def parameter (c : Rules) : Reader Bool := do
  let tokens ← look
  if atLifetime tokens then
    lifetime
    afterColon (summed endsParameter lifetime)
    return true
  if ← optionalWord "const" then
    name
    mark ":"
    let _ ← c.read (.type true)
    if ← optionalMark "=" then constantArgument c
  else
    name
    afterColon (summed (fun tokens => endsParameter tokens || atMark "=" tokens) (itemBound c))
    if ← optionalMark "=" then
      let _ ← c.read (.type true)
  return false

/-- The parameters of an item. Angles with nothing in them are not written. Whether there is a
parameter. -/
def parameters (c : Rules) : Reader Bool := do
  if !atMark "<" (← look) then return false
  let (any, written) ← captured <| sortedAngled do
    let _ ← attributes c
    if ← optionalWord "_" then return false
    c.read .parameter
  if any then write written
  return any

/-- Parameters stand at the front, and not a type in angles. -/
def startsParameters (tokens : List Token) : Bool :=
  let second := skip tokens
  let third := skip second
  atMark "<" tokens &&
    (atMark ">" second || atMark "#" second || atWord "const" second ||
      (atLifetime second || atName second) &&
        (atMark ">" third || atMark "," third || atColon third || atMark "=" third))

/-- What comes after conditions, or after the bounds of one. -/
def endsConditions (tokens : List Token) : Bool :=
  tokens.isEmpty || atGroup .brace tokens || atMark "," tokens || atMark ";" tokens ||
    atColon tokens || atMark "=" tokens

/-- A condition on a lifetime or on a type. -/
def condition (c : Rules) : Reader Unit := do
  let tokens ← look
  if atLifetime tokens && atMark ":" (skip tokens) then
    lifetime
    mark ":"
    let _ ← summed (fun tokens => endsConditions tokens || atMark ":" tokens) lifetime
  else
    let _ ← forAll c
    let _ ← c.read (.type true)
    mark ":"
    let _ ← summed endsConditions (itemBound c)

/-- Conditions, which may be missing. The word is not written without any condition. Whether the
word is there. -/
def conditions (c : Rules) : Reader Bool := do
  if !atWord "where" (← look) then return false
  let (any, written) ← captured do
    word "where"
    if startsParameters (← look) then fail
    iterate (fun any => do
      if endsConditions (← look) then return (any, false)
      condition c
      return (true, ← optionalMark ",")) false
  if any then write written
  return true

end RecordMapper.Derive.Grammar
