import RecordMapper.Derive.Token
/-!
A struct item: its attributes, its name and its fields. Types and visibilities are kept as the
tokens they are written with, attributes as the tokens they carry.
-/

namespace RecordMapper.Derive

/-- What an attribute carries after its path. -/
inductive Attribute.Content
  | nothing
  | arguments (body : List Token)
  | value (tokens : List Token)
  deriving Repr

/-- An attribute. One whose path is more than a single name has no `name`. -/
structure Attribute where
  name : Option String
  content : Attribute.Content
  deriving Repr

/-- A field. Its name is kept as written. -/
structure ItemField where
  attributes : List Attribute
  visibility : List Token
  name : String
  type : List Token
  deriving Repr

inductive ItemFields
  | named (fields : List ItemField)
  /-- The fields of a tuple, or none at all. -/
  | unnamed
  deriving Repr

structure Item where
  attributes : List Attribute
  visibility : List Token
  name : String
  /-- Whether the item has parameters. -/
  generic : Bool
  fields : ItemFields
  deriving Repr

end RecordMapper.Derive
