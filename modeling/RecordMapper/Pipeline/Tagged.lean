import RecordMapper.Json.Basic
/-!
Objects that say in their member `type` which alternative they hold. Members that the alternative
does not know are ignored. Inside another tagged object the tag may also be the position of the
alternative.
-/

namespace RecordMapper.Tagged

/-- Whether a tagged object stands inside another one. -/
inductive Place
  | outer | inner
  deriving DecidableEq, Repr

/-- The position of the alternative that a tag names. -/
def position? (place : Place) (names : List String) : Json → Option Nat
  | .string s => names.findIdx? (· == s)
  | .integer i =>
    if place = .inner ∧ 0 ≤ i ∧ i.toNat < names.length then some i.toNat else none
  | _ => none

/-- The alternative of an object and its members. -/
def read? (place : Place) (names : List String) (v : Json) : Option (Nat × Json.Members) := do
  let members ← v.asObject?
  let tag ← Json.requiredMember? members "type"
  return (← position? place names tag, members)

end RecordMapper.Tagged
