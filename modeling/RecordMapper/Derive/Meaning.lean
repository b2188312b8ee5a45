import RecordMapper.Derive.Expansion
import RecordMapper.Schema.Declaration
/-!
What the mapping of an expansion declares when it runs, read from the expanded tokens: methods are
called on a builder and on columns and joins. What the program knows of the types it names is given:
the native type of a field and whether it may be null, and the record that a path leads to.
-/

namespace RecordMapper

/-- What is known of types by their tokens. -/
structure Derive.TypeFacts where
  native : List Derive.Token → NativeType
  nullable : List Derive.Token → Bool
  record : List Derive.Token → RecordRef

open Derive (Token TypeFacts)

namespace Derive

/-- The names of a path at the front, and what follows it. -/
def path? : List Token → List String × List Token
  | .word name :: .mark ':' _ :: .mark ':' _ :: rest =>
    let (names, rest) := path? rest
    (name :: names, rest)
  | .word name :: rest => ([name], rest)
  | tokens => ([], tokens)

/-- A path at the front that leads to an item of the library, as the path within the library. -/
def library? (tokens : List Token) : Option (List String × List Token) :=
  match path? tokens with
  | ("_burrow" :: "codegen_support" :: names, rest) => some (names, rest)
  | _ => none

/-- What stands before and after the last token of a kind. -/
def splitLast? (kind : Token → Bool) : List Token → Option (List Token × List Token)
  | [] => none
  | token :: rest =>
    match splitLast? kind rest with
    | some (before, after) => some (token :: before, after)
    | none => if kind token then some ([], rest) else none

def Token.isWord (text : String) : Token → Bool
  | .word found => found == text
  | _ => false

def Token.isMark (char : Char) : Token → Bool
  | .mark found _ => found == char
  | _ => false

/-- The type before an `as`, when what stands after it is an item of the types that fields may
have. -/
def seenAs? (item : String) (sides : List Token × List Token) : Option (List Token) := do
  match ← library? sides.2 with
  | (["Primitive"], [.mark '>' _, .mark ':' _, .mark ':' _, .word found]) =>
    if found = item then some sides.1 else none
  | _ => none

/-- The type of which an item is meant, seen as a type that fields may have. -/
def primitive? (item : String) : List Token → Option (List Token)
  | .mark '<' _ :: rest => (splitLast? (Token.isWord "as") rest).bind (seenAs? item)
  | _ => none

/-- Calls methods one after the other. -/
def runCalls? {σ : Type} (method : σ → String → List Token → Option σ) (s : σ) :
    List Token → Option σ
  | [] => some s
  | .mark '.' _ :: .word name :: .group .parenthesis arguments :: rest =>
    (method s name arguments).bind (runCalls? method · rest)
  | _ => none

end Derive

open Derive

def StorageClass.ofTokens? (facts : TypeFacts) (tokens : List Token) : Option StorageClass := do
  match ← library? tokens with
  | (["StorageClass", "FixedVector"], [.group .parenthesis [.literal (.integer size)]]) =>
    some (.vector size.value.toUInt64)
  | (["StorageClass", "Integer"], []) => some .integer
  | (["StorageClass", "Real"], []) => some .real
  | (["StorageClass", "Text"], []) => some .text
  | (["StorageClass", "Blob"], []) => some .blob
  | (["StorageClass", "from_type"], [.group .parenthesis arguments]) =>
    (primitive? "TYPE" arguments).map fun type => .ofNative (facts.native type)
  | _ => none

namespace Column

/-- A method of columns. -/
def method? (facts : TypeFacts) (c : Column) (name : String) (arguments : List Token) :
    Option Column :=
  match name, arguments with
  | "column_name", [.literal (.text name)] => some { c with name := name.value }
  | "nullable", arguments =>
    (primitive? "NULLABLE" arguments).map fun type => { c with nullable := facts.nullable type }
  | "primary_key", [] => some { c with primaryKey := true }
  | "unique", [] => some { c with unique := true }
  | "indexed", [] => some { c with index := some {} }
  | "indexed_as", [.literal (.text name)] => some { c with index := some ⟨some name.value⟩ }
  | _, _ => none

/-- A new column is named after its field. -/
def ofTokens? (facts : TypeFacts) (tokens : List Token) : Option Column := do
  match ← library? tokens with
  | (["Column", "new"],
      .group .parenthesis (.literal (.text field) :: .mark ',' _ :: storage) :: calls) =>
    let storage ← StorageClass.ofTokens? facts storage
    runCalls? (method? facts) { field := field.value, storage } calls
  | _ => none

end Column

namespace RecordRef

/-- The record of a type, and what follows the call behind the type. -/
def ofType? (facts : TypeFacts) (sides : List Token × List Token) :
    Option (RecordRef × List Token) :=
  match sides.2 with
  | .group .parenthesis [] :: rest => some (facts.record sides.1, rest)
  | _ => none

def ofTokens? (facts : TypeFacts) (tokens : List Token) : Option (RecordRef × List Token) := do
  match ← library? tokens with
  | (["RecordRef", "of"], .mark '<' _ :: rest) =>
    (splitLast? (Token.isMark '>') rest).bind (ofType? facts)
  | _ => none

end RecordRef

namespace Join

def method? (j : Join) : String → List Token → Option Join
  | "with_foreign_key_index", [] => some { j with indexed := true }
  | _, _ => none

/-- A join with a record, the field of which stands behind it, and the calls on it. -/
def ofRight? (left : String) (calls : List Token) (right : RecordRef × List Token) : Option Join :=
  match right.2 with
  | [.mark ',' _, .literal (.text field), .mark ',' _] =>
    runCalls? method? { leftField := left, right := right.1, rightField := field.value } calls
  | _ => none

def ofTokens? (facts : TypeFacts) (tokens : List Token) : Option Join := do
  match ← library? tokens with
  | (["JoinNavigation", "new"],
      .group .parenthesis (.literal (.text left) :: .mark ',' _ :: rest) :: calls) =>
    (RecordRef.ofTokens? facts rest).bind (ofRight? left.value calls)
  | _ => none

end Join

namespace Declaration

/-- A method of the builder of a mapping. -/
def method? (facts : TypeFacts) (d : Declaration) (name : String) (arguments : List Token) :
    Option Declaration :=
  match name, arguments with
  | "table", [.literal (.text name)] => some { d with table := some name.value }
  | "column", arguments =>
    (Column.ofTokens? facts arguments).map fun c => { d with columns := d.columns ++ [c] }
  | "join", arguments =>
    (Join.ofTokens? facts arguments).map fun j => { d with joins := d.joins ++ [j] }
  | _, _ => none

/-- What the calls before the last one give, when that one builds. -/
def ofCalls? (facts : TypeFacts) (name : String) (sides : List Token × List Token) :
    Option Declaration :=
  match sides.2 with
  | [.word "build", .group .parenthesis []] => runCalls? (method? facts) { name } sides.1
  | _ => none

/-- A declaration that is given call by call and built by the last one. -/
def ofTokens? (facts : TypeFacts) (tokens : List Token) : Option Declaration := do
  match ← library? tokens with
  | (["RecordMapping", "builder"], .group .parenthesis [.literal (.text name)] :: calls) =>
    (splitLast? (Token.isMark '.') calls).bind (ofCalls? facts name.value)
  | _ => none

end Declaration

namespace Derive

/-- The body of the function of a name, in what an `impl` holds. -/
def functionBody? (name : String) : List Token → Option (List Token)
  | [] => none
  | .word "fn" :: .word found :: rest =>
    if found = name then
      rest.findSome? fun
        | .group .brace body => some body
        | _ => none
    else functionBody? name rest
  | _ :: rest => functionBody? name rest

/-- What the last braces hold. -/
def lastBraces? (tokens : List Token) : Option (List Token) :=
  tokens.reverse.findSome? fun
    | .group .brace body => some body
    | _ => none

/-- The body of the mapping: the last item of an expansion is a constant whose last item is the
`impl` that the mapping is a function of. -/
def mappingBody? (expansion : List Token) : Option (List Token) := do
  functionBody? "mapping" (← lastBraces? (← lastBraces? expansion))

end Derive

end RecordMapper
