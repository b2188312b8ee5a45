import RecordMapper.Value
/-!
Native records: named fields, each a slot of its native type. A required slot always holds
something; an optional one may be empty.
-/

namespace RecordMapper

inductive Slot (α : Type)
  | required (content : α)
  | optional (content : Option α)
  deriving DecidableEq, Repr

namespace Slot

variable {α : Type}

def get? : Slot α → Option α
  | required x => some x
  | optional x => x

def isOptional : Slot α → Bool
  | required _ => false
  | optional _ => true

def set (x : α) : Slot α → Slot α
  | required _ => required x
  | optional _ => optional (some x)

/-- Empties an optional slot. A required slot has nothing to give up. -/
def clear : Slot α → Slot α
  | required x => required x
  | optional _ => optional none

theorem get?_set (x : α) (s : Slot α) : (s.set x).get? = some x := by
  cases s <;> rfl

theorem isOptional_set (x : α) (s : Slot α) : (s.set x).isOptional = s.isOptional := by
  cases s <;> rfl

end Slot

/-- A field of a record. A read-only field is no destination for decoding. -/
structure Field where
  name : String
  type : NativeType
  slot : Slot type.Carrier
  readOnly : Bool := false

namespace Field

def value (f : Field) : Value :=
  match f.slot.get? with
  | some x => .ofNative f.type x
  | none => .null

/-- The field as it starts out: empty when optional. -/
def fresh (f : Field) : Field :=
  let slot :=
    match f.slot with
    | .required _ => .required f.type.initial
    | .optional _ => .optional none
  { f with slot }

end Field

abbrev Record := List Field

namespace Record

/-- The first field of a name. -/
def field? (r : Record) (name : String) : Option Field := r.find? (·.name == name)

def value? (r : Record) (name : String) : Option Value := (r.field? name).map Field.value

/-- The field as a destination for decoding. -/
def target? (r : Record) (name : String) : Option Field :=
  (r.field? name).bind fun f => if f.readOnly then none else some f

/-- The record with the first field of a name replaced. -/
def put (name : String) (field : Field) : Record → Record
  | [] => []
  | f :: rest => if f.name = name then field :: rest else f :: put name field rest

theorem field?_put_ne {name other : String} {f : Field} (h : f.name = name) (hne : other ≠ name)
    (r : Record) : field? (r.put name f) other = field? r other := by
  induction r with
  | nil => rfl
  | cons g rest ih =>
    simp only [put]
    split
    next hg => simp [field?, h, hg, Ne.symm hne]
    next =>
      have ih' : List.find? (·.name == other) (put name f rest) = rest.find? (·.name == other) := ih
      simp only [field?, List.find?_cons, ih']

theorem field?_put {name : String} {f : Field} (h : f.name = name) {r : Record} {g : Field}
    (hg : field? r name = some g) : field? (r.put name f) name = some f := by
  induction r with
  | nil => simp [field?] at hg
  | cons g' rest ih =>
    simp only [put]
    split
    next => simp [field?, h]
    next hne =>
      have hg' : rest.find? (·.name == name) = some g := by
        simpa [field?, List.find?_cons, hne] using hg
      have ih' : List.find? (·.name == name) (put name f rest) = some f := ih hg'
      simp [field?, hne, ih']

def fresh (r : Record) : Record := r.map Field.fresh

/-- The names of the fields with their values. -/
def contents (r : Record) : List (String × Value) := r.map fun f => (f.name, f.value)

end Record

end RecordMapper
