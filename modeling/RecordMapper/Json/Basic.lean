import RecordMapper.Number.Binary
/-!
JSON values. Members of an object keep their order and may repeat; the canonical form has them
sorted by name, the last of a name in place of all.
-/

namespace RecordMapper

inductive Json
  | null
  | bool (b : Bool)
  /-- A number written without fraction and exponent, in the range of 64-bit words. -/
  | integer (i : Int)
  | float (x : Binary64)
  | string (s : String)
  | array (items : List Json)
  | object (members : List (String × Json))
  deriving Repr

namespace Json

abbrev Members := List (String × Json)

/-- Puts a member at its place in a sorted list, over one of the same name. -/
def insertMember (name : String) (value : Json) : Members → Members
  | [] => [(name, value)]
  | (n, v) :: rest =>
    if name = n then (name, value) :: rest
    else if name < n then (name, value) :: (n, v) :: rest
    else (n, v) :: insertMember name value rest

mutual

def canonical : Json → Json
  | array items => array (canonicalItems items)
  | object members => object (canonicalMembers [] members)
  | null => null
  | bool b => bool b
  | integer i => integer i
  | float x => float x
  | string s => string s

def canonicalItems : List Json → List Json
  | [] => []
  | v :: rest => v.canonical :: canonicalItems rest

/-- The members so far, sorted, and those to come. -/
def canonicalMembers (sorted : Members) : List (String × Json) → Members
  | [] => sorted
  | (name, v) :: rest => canonicalMembers (insertMember name v.canonical sorted) rest

end

/-- The only member of a name: fails when the name repeats, and is `none` when it is missing. -/
def onlyMember? (members : Members) (name : String) : Option (Option Json) :=
  match members.filter (·.1 == name) with
  | [] => some none
  | [(_, v)] => some (some v)
  | _ => none

/-- The only member of a name, which must be there. -/
def requiredMember? (members : Members) (name : String) : Option Json :=
  (onlyMember? members name).join

def asString? : Json → Option String
  | string s => some s
  | _ => none

def asArray? : Json → Option (List Json)
  | array items => some items
  | _ => none

def asObject? : Json → Option Members
  | object members => some members
  | _ => none

/-- Any number as a float. -/
def asFloat? : Json → Option Binary64
  | integer i => some (.ofInt i)
  | float x => some x
  | _ => none

/-- A string or nothing, where null and a missing member are nothing. -/
def optionalString? (members : Members) (name : String) : Option (Option String) := do
  match ← onlyMember? members name with
  | none | some null => some none
  | some v => v.asString?.map some

end Json

end RecordMapper
