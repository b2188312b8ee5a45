import RecordMapper.Derive.Fault
import RecordMapper.Derive.Grammar
import RecordMapper.Text.Blank
/-!
The arguments of record attributes: tables, joins, columns, indexes and vector sizes. Arguments are
read from first to last, and the first one that is wrong is the fault.
-/

namespace RecordMapper.Derive

/-- An identifier without the mark that makes it raw. -/
def unraw (name : String) : String :=
  match name.toList with
  | 'r' :: '#' :: rest => String.ofList rest
  | _ => name

namespace Attribute

/-- The tokens in parentheses, which stand after the path of the attribute. -/
def arguments (a : Attribute) : Except ItemFault (List Token) :=
  match a.content with
  | .arguments body => .ok body
  | .nothing | .value _ => .error .malformed

end Attribute

def soleText : List Token → Except ItemFault TextLiteral
  | [.literal (.text literal)] => .ok literal
  | _ => .error .malformed

/-- A name may not be blank. -/
def named (fault : ItemFault) (literal : TextLiteral) : Except ItemFault TextLiteral :=
  if Text.isBlankText literal.value then .error fault else .ok literal

/-- The table name of `#[table = "name"]` or `#[table("name")]`. -/
def tableName (a : Attribute) : Except ItemFault TextLiteral :=
  match a.content with
  | .arguments body => soleText body >>= named .emptyTable
  | .value [.literal (.text literal)] => named .emptyTable literal
  | .value _ | .nothing => .error .tableForm

/-- The name of `#[index("name")]`, or none for `#[index]`. -/
def indexName (a : Attribute) : Except ItemFault (Option TextLiteral) :=
  match a.content with
  | .nothing => .ok none
  | .arguments body => (soleText body >>= named .emptyIndexName).map some
  | .value _ => .error .indexForm

/-- The size of `#[vector(size)]`, a machine word other than zero. -/
def vectorSize (a : Attribute) : Except ItemFault IntegerLiteral := do
  match ← a.arguments with
  | [.literal (.integer literal)] =>
    if UInt64.size ≤ literal.value then .error .malformed
    else if literal.value = 0 then .error .emptyVector
    else .ok literal
  | _ => .error .malformed

/-- The arguments of `#[column(..)]`. -/
structure ColumnArguments where
  name : Option String := none
  storage : Option PlainStorage := none
  deriving DecidableEq, Repr

namespace ColumnArguments

def storageWord? (word : String) : Option PlainStorage :=
  if word = "integer" then some .integer
  else if word = "real" then some .real
  else if word = "text" then some .text
  else if word = "blob" then some .blob
  else none

def withName (c : ColumnArguments) (literal : TextLiteral) : Except ItemFault ColumnArguments :=
  if c.name.isSome then .error .duplicateColumnName
  else (named .emptyColumnName literal).map fun literal => { c with name := some literal.value }

def withStorage (c : ColumnArguments) (storage : PlainStorage) :
    Except ItemFault ColumnArguments :=
  if c.storage.isSome then .error .duplicateStorage else .ok { c with storage := some storage }

/-- One argument after those of `c`: a name, with or without `name =`, or a storage class. -/
def next (c : ColumnArguments) : List Token → Except ItemFault (ColumnArguments × List Token)
  | .literal (.text literal) :: rest => (c.withName literal).map fun c => (c, rest)
  | .word word :: rest =>
    if word = "name" then
      if c.name.isSome then .error .duplicateColumnName
      else
        match rest with
        | .mark '=' _ :: .literal (.text literal) :: rest =>
          (c.withName literal).map fun c => (c, rest)
        | _ => .error .malformed
    else
      match storageWord? word with
      | some storage => (c.withStorage storage).map fun c => (c, rest)
      | none => .error .malformed
  | _ => .error .malformed

/-- At most `bound` arguments after those of `c`, one at least, with commas between them. -/
def readUpTo : Nat → ColumnArguments → List Token → Except ItemFault ColumnArguments
  | 0, _, _ => .error .malformed
  | bound + 1, c, tokens => do
    let (c, rest) ← c.next tokens
    match rest with
    | [] => .ok c
    | .mark ',' _ :: rest => readUpTo bound c rest
    | _ => .error .malformed

def read (tokens : List Token) : Except ItemFault ColumnArguments :=
  readUpTo (tokens.length + 1) {} tokens

end ColumnArguments

/-- The arguments of `#[join(Target, left = field, right = field, index)]` after the target. Fields
are named without the mark of raw identifiers. -/
structure JoinArguments where
  left : Option String := none
  right : Option String := none
  index : Bool := false
  deriving DecidableEq, Repr

namespace JoinArguments

def field (j : JoinArguments) : Side → Option String
  | .left => j.left
  | .right => j.right

def withField (j : JoinArguments) (name : String) : Side → JoinArguments
  | .left => { j with left := some (unraw name) }
  | .right => { j with right := some (unraw name) }

/-- The field of a side, after its word. -/
def nextField (j : JoinArguments) (side : Side) :
    List Token → Except ItemFault (JoinArguments × List Token)
  | .mark '=' _ :: rest =>
    if (j.field side).isSome then .error (.duplicateSide side)
    else
      match rest with
      | .word name :: rest =>
        if keywords.contains name then .error .malformed
        else .ok (j.withField name side, rest)
      | _ => .error .malformed
  | _ => .error .malformed

def next (j : JoinArguments) : List Token → Except ItemFault (JoinArguments × List Token)
  | .word word :: rest =>
    if word = "left" then j.nextField .left rest
    else if word = "right" then j.nextField .right rest
    else if word = "index" then
      if j.index then .error .duplicateIndexFlag else .ok ({ j with index := true }, rest)
    else .error .malformed
  | _ => .error .malformed

/-- At most `bound` arguments after those of `j`, each behind a comma. A last comma may end them. -/
def readUpTo : Nat → JoinArguments → List Token → Except ItemFault JoinArguments
  | 0, _, _ => .error .malformed
  | _ + 1, j, [] => .ok j
  | _ + 1, j, [.mark ',' _] => .ok j
  | bound + 1, j, .mark ',' _ :: rest => do
    let (j, rest) ← j.next rest
    readUpTo bound j rest
  | _ + 1, _, _ => .error .malformed

def read (tokens : List Token) : Except ItemFault JoinArguments :=
  readUpTo (tokens.length + 1) {} tokens

end JoinArguments

/-- A join to the record type `target`. -/
structure JoinSpec where
  target : List Token
  left : String
  right : String
  index : Bool
  deriving Repr

def JoinSpec.ofAttribute (a : Attribute) : Except ItemFault JoinSpec := do
  let tokens ← a.arguments
  match typePath tokens with
  | none => .error .malformed
  | some path =>
    let found ← JoinArguments.read path.rest
    match found.left, found.right with
    | none, _ => .error (.missingSide .left)
    | _, none => .error (.missingSide .right)
    | some left, some right => .ok ⟨path.written, left, right, found.index⟩

end RecordMapper.Derive
