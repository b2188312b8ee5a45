/-!
What is wrong with an item that is to be a record.
-/

namespace RecordMapper.Derive

/-- The attributes that a field may carry. -/
inductive FieldMark
  | key
  | column
  | unique
  | index
  | vector
  | skip
  deriving DecidableEq, Repr

def FieldMark.name : FieldMark → String
  | key => "key"
  | column => "column"
  | unique => "unique"
  | index => "index"
  | vector => "vector"
  | skip => "skip"

/-- The two fields of a join. -/
inductive Side
  | left
  | right
  deriving DecidableEq, Repr

def Side.name : Side → String
  | left => "left"
  | right => "right"

/-- The storage classes that an attribute can ask for. -/
inductive PlainStorage
  | integer
  | real
  | text
  | blob
  deriving DecidableEq, Repr

def PlainStorage.name : PlainStorage → String
  | integer => "Integer"
  | real => "Real"
  | text => "Text"
  | blob => "Blob"

inductive ItemFault
  /-- The tokens do not have the form that is asked for. -/
  | malformed
  | unnamedFields
  | generic
  | duplicateTable
  | tableForm
  | emptyTable
  | duplicateSide (side : Side)
  | duplicateIndexFlag
  | missingSide (side : Side)
  | duplicateMark (mark : FieldMark)
  | duplicateColumnName
  | duplicateStorage
  | emptyColumnName
  | indexForm
  | emptyIndexName
  | emptyVector
  | markedSkip
  | vectorStorage (storage : PlainStorage)
  | twoKeys
  | columnTaken
  | unknownJoinField
  deriving DecidableEq, Repr

namespace ItemFault

/-- The text of a fault. A malformed item has none of its own. -/
def message? : ItemFault → Option String
  | malformed => none
  | unnamedFields => some "record fields must be named"
  | generic => some "record generics are not supported"
  | duplicateTable => some "duplicate `table` attribute"
  | tableForm => some "expected `table = \"table_name\"`"
  | emptyTable => some "table name cannot be empty"
  | duplicateSide side => some ("duplicate `" ++ side.name ++ "` field")
  | duplicateIndexFlag => some "duplicate `index` flag"
  | missingSide side => some ("join is missing `" ++ side.name ++ " = field`")
  | duplicateMark mark => some ("duplicate #[" ++ mark.name ++ "] attribute")
  | duplicateColumnName => some "duplicate column name"
  | duplicateStorage => some "duplicate column storage"
  | emptyColumnName => some "column name cannot be empty"
  | indexForm => some "expected `#[index]` or `#[index(\"name\")]`"
  | emptyIndexName => some "index name cannot be empty"
  | emptyVector => some "vector size must be positive"
  | markedSkip => some "a skipped field cannot carry other record attributes"
  | vectorStorage storage =>
    some ("#[vector] conflicts with the `" ++ storage.name ++ "` storage override")
  | twoKeys => some "a record has exactly one #[key] field"
  | columnTaken => some "column name is already used by another field"
  | unknownJoinField => some "join refers to an unknown or skipped field"

end ItemFault

end RecordMapper.Derive
