import RecordMapper.Derive.Grammar.Expression
/-!
What functions declare: the words before them, their parameters, arguments and conditions, and the
type that they give.
-/

namespace RecordMapper.Derive.Grammar

open Reader

/-- The first argument of a method, the value that it is called on. -/
def receiver (c : Rules) : Reader Unit := do
  let borrowed ← optionalMark "&"
  if borrowed then optionalLifetime
  let _ ← optionalWord "mut"
  word "self"
  if !borrowed then
    if ← optionalMark ":" then
      let _ ← c.read (.type true)

/-- What an argument of a function turned out to be. -/
inductive ArgumentForm
  | receiver
  | typed
  /-- It stands for more arguments, and none follows it. -/
  | dots
  deriving DecidableEq

/-- An argument after its attributes. A type alone, where it begins with a name and angles, has the
pattern `_` written before it. -/
def functionArgument (c : Rules) : Reader ArgumentForm := do
  if ← optionalMark "..." then return .dots
  if (← attempt (receiver c)).isSome then return .receiver
  let tokens ← look
  if atName tokens && atMark "<" (skip tokens) then
    write [.word "_", .mark ':' false]
    let _ ← c.read (.type true)
    return .typed
  let _ ← c.read .pattern
  mark ":"
  if ← optionalMark "..." then return .dots
  let _ ← c.read (.type true)
  return .typed

/-- The arguments of a function. Only the first one may be a receiver. -/
def functionArguments (c : Rules) : Reader Unit := do
  let _ ← iterate (fun first => do
    if (← look).isEmpty then return (first, false)
    let _ ← attributes c
    let form ← functionArgument c
    if form = .receiver && !first then fail
    if (← look).isEmpty then return (false, false)
    mark ","
    return (false, form ≠ .dots)) true

/-- The words before `fn`, if it follows them. Where `safe` is set, that word may be one of them. -/
def startsFunction (safe : Bool) (tokens : List Token) : Bool :=
  let without (text : String) (tokens : List Token) : List Token :=
    if atWord text tokens then tokens.tail else tokens
  let tokens := without "async" (without "const" tokens)
  let tokens :=
    if safe && atWord "safe" tokens then tokens.tail else without "unsafe" tokens
  let after := without "extern" tokens
  atWord "fn" (if atWord "extern" tokens && atText after then after.tail else after)

/-- A function without its body. Whether it says that it is safe. -/
def signature (c : Rules) (safe : Bool) : Reader Bool := do
  let _ ← optionalWord "const"
  let _ ← optionalWord "async"
  let risky ← optionalWord "unsafe"
  let trusted ← if safe && !risky then optionalWord "safe" else pure false
  convention
  word "fn"
  name
  let _ ← parameters c
  inside .parenthesis (functionArguments c)
  returned c true
  let _ ← conditions c
  return trusted

end RecordMapper.Derive.Grammar
