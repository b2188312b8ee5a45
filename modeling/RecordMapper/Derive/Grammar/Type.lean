import RecordMapper.Derive.Grammar.Bound
/-!
Types: paths and the bounds added to them, functions, tuples, slices and arrays, pointers and
references. What may be added to a type depends on what it is, so each rule tells that.
-/

namespace RecordMapper.Derive.Grammar

open Reader

/-- Text that only the language itself gives a meaning to. It is written as it was taken. -/
def builtin : Reader Unit := do
  word "builtin"
  mark "#"
  name
  if atGroup .parenthesis (← look) then take 1 else fail

def atBuiltin (tokens : List Token) : Bool := atWord "builtin" tokens && atMark "#" (skip tokens)

/-- A calling convention, which may be missing. -/
def convention : Reader Unit := do
  if ← optionalWord "extern" then
    if atText (← look) then take 1

/-- An argument of a function type, its name before it or not. The first one may be `mut self`, and
is then written as it was taken. -/
def functionTypeArgument (c : Rules) (first : Bool) : Reader Unit := do
  let tokens ← look
  let mutable := first && atWord "mut" tokens && atWord "self" (skip tokens)
  let _ ← asTakenWhen (fun _ => mutable) do
    if mutable then word "mut"
    let tokens ← look
    let after := skip tokens
    if (atName tokens || atWord "_" tokens || first && atWord "self" tokens) && atColon after then
      anyWord
      mark ":"
      let _ ← c.read (.type true)
    else if mutable then word "self"
    else
      let _ ← c.read (.type true)

/-- Dots stand for more arguments, a name before them or not. -/
def atDots (tokens : List Token) : Bool :=
  let after := skip tokens
  atMark "..." tokens ||
    (atName tokens || atWord "_" tokens) && atMark ":" after && atMark "..." (skip after)

/-- The arguments of a function type. Dots come after all others. -/
def functionTypeArguments (c : Rules) : Reader Unit := do
  let _ ← iterate (fun first => do
    if (← look).isEmpty then return (first, false)
    let _ ← attributes c
    if atDots (← look) then
      if atAnyWord (← look) then
        anyWord
        mark ":"
      mark "..."
      let _ ← optionalMark ","
      return (false, false)
    functionTypeArgument c first
    if (← look).isEmpty then return (false, false)
    mark ","
    return (false, true)) true

def functionType (c : Rules) : Reader Unit := do
  let _ ← optionalWord "unsafe"
  convention
  word "fn"
  inside .parenthesis (functionTypeArguments c)
  returned c false

/-- Bounds behind a plus sign each. Whether there is one. -/
def addedBounds (c : Rules) : Reader Bool :=
  iterate (fun found => do
    if !(← optionalMark "+") then return (found, false)
    let _ ← c.read (.bound true true)
    return (true, true)) false

/-- What stands in parentheses before more bounds, or alone. -/
inductive Inner
  | tuple
  | type (form : TypeForm)

/-- A type, or several with commas between them. -/
def innerTypes (c : Rules) : Reader Inner := do
  let first ← c.read (.type true)
  if !(← optionalMark ",") then return .type first
  listed do
    let _ ← c.read (.type true)
  return .tuple

/-- A tuple, a bound, or a type of its own. Bounds may be added to a path and to a sole bound; its
own parentheses are not written then. -/
def parenthesized (c : Rules) (plus : Bool) (body : List Token) : Reader TypeForm := do
  if body.isEmpty then
    take 1
    return .other
  if atLifetime body then
    inside .parenthesis (bounds c true false false)
    return .other
  if atMark "?" body then
    let (_, written) ← inside .parenthesis (noted (pathBound c false))
    return if ← addedBounds c then .other else .sole written
  let (inner, written) ← captured (inside .parenthesis (innerTypes c))
  let added := plus && atMark "+" (← look)
  match inner with
  | .type (.sole bound) => write (if added then [.group .parenthesis bound] else written)
  | .type (.path _) | .type .other | .tuple => write written
  match inner with
  | .type (.sole _) | .type (.path _) =>
    if added then
      let _ ← addedBounds c
  | .type .other | .tuple => pure ()
  return .other

/-- A type that a path names, or that a call gives, or that is the first of several bounds.
Parameters that have been read before it are not written with a call. -/
def namedType (c : Rules) (plus : Bool) (before : List Token) : Reader TypeForm := do
  let (found, written) ← captured (anyPath c false)
  let tokens ← look
  if invoked found tokens then
    write written
    let _ ← invocation
    return .other
  write (before ++ written)
  match found with
  | none => return .other
  | some path =>
    if before.isEmpty && !(plus && atMark "+" tokens) then return .path path.single
    let added ← iterate (fun added => do
      if !(plus && (← optionalMark "+")) then return (added, false)
      if !startsBound false (← look) then return (true, false)
      let _ ← c.read (.bound false false)
      return (true, true)) false
    return if added then .other else .sole (before ++ written)

/-- What parameters may be read before. -/
def takesParameters (tokens : List Token) : Bool :=
  atPlace tokens || atOneOf ["Self", "fn", "unsafe", "extern"] tokens

def type (c : Rules) (plus : Bool) : Reader TypeForm := do
  let (quantified, before) ← captured (forAll c)
  let tokens ← look
  if quantified && !takesParameters tokens then fail
  match tokens with
  | .group .parenthesis body :: _ => parenthesized c plus body
  | .group .bracket _ :: _ =>
    inside .bracket do
      let _ ← c.read (.type true)
      if ← optionalMark ";" then
        let _ ← c.read (.expression true)
    return .other
  | _ =>
    if atOneOf ["fn", "unsafe", "extern"] tokens then
      write before
      functionType c
      return .other
    if atBuiltin tokens then
      write before
      builtin
      return .other
    if atPlace tokens || atWord "Self" tokens || atMark "::" tokens || atMark "<" tokens then
      namedType c plus before
    else if atWord "dyn" tokens then
      let starred := atMark "*" (skip tokens)
      asTakenWhen (fun _ => starred) do
        word "dyn"
        let _ ← optionalMark "*"
        bounds c plus false false
        return .other
    else if atMark "*" tokens then
      mark "*"
      if !(← optionalWord "const") then word "mut"
      let _ ← c.read (.type false)
      return .other
    else if atMark "&" tokens then
      mark "&"
      optionalLifetime
      let _ ← optionalWord "mut"
      let _ ← c.read (.type false)
      return .other
    else if atMark "!" tokens && !atMark "=" tokens then
      mark "!"
      return .other
    else if atWord "impl" tokens then
      word "impl"
      bounds c plus true true
      return .other
    else if atWord "_" tokens then
      anyWord
      return .other
    else
      if !atLifetime tokens then fail
      bounds c true false false
      return .other

end RecordMapper.Derive.Grammar
