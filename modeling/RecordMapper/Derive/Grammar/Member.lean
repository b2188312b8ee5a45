import RecordMapper.Derive.Grammar.Type
import RecordMapper.Derive.Literal
/-!
Members of structs and tuples, and ranges, which patterns and expressions have in common.
-/

namespace RecordMapper.Derive.Grammar

open Reader

/-- The place in a tuple that a number without a suffix stands for, in decimal. -/
def tupleIndex? (written : String) : Option Token :=
  match Literal.integerDigits? written.toList with
  | some (value, []) =>
    if value < UInt32.size then some (.literal (.integer ⟨toString value⟩)) else none
  | _ => none

/-- The place in a tuple. -/
def tupleIndex : Reader Unit := do
  match ← look with
  | .literal (.integer literal) :: _ =>
    let _ ← captured (take 1)
    match tupleIndex? literal.written with
    | some index => write [index]
    | none => fail
  | _ => fail

/-- A name or a place in a tuple. Whether it is a name. -/
def member : Reader Bool := do
  if atName (← look) then
    name
    return true
  tupleIndex
  return false

/-- The places that a number with a point stands for, each before a dot, and the last one. -/
def tupleIndexes? : List String → Option (List Token)
  | [] => none
  | [last] => (tupleIndex? last).map fun index => [index]
  | next :: others => do
    return (← tupleIndex? next) :: .mark '.' false :: (← tupleIndexes? others)

/-- How a range ends. -/
inductive Limits
  | halfOpen
  | closed
  deriving DecidableEq

def limits : Reader Limits := do
  let tokens ← look
  if atMark "..=" tokens then
    mark "..="
    return .closed
  if atMark ".." tokens && !atMark "..." tokens then
    mark ".."
    return .halfOpen
  fail

/-- In patterns three dots may stand for `..=`, which is written then. -/
def patternLimits : Reader Limits := do
  if atMark "..." (← look) then
    let _ ← captured (mark "...")
    write [.mark '.' true, .mark '.' true, .mark '=' false]
    return .closed
  limits

end RecordMapper.Derive.Grammar
