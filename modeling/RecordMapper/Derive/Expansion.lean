import RecordMapper.Derive.Lexeme
import RecordMapper.Derive.Spec
import RecordMapper.Text.Printable
/-!
The program text that an item expands to, as tokens: a struct with an expression for each field, the
mapping of the record, and access to its fields by name.
-/

namespace RecordMapper.Derive

namespace Token

/-- A mark that stands alone. -/
def sign (char : Char) : Token := .mark char false

def comma : Token := sign ','

def parens (body : List Token) : Token := .group .parenthesis body

def brackets (body : List Token) : Token := .group .bracket body

def braces (body : List Token) : Token := .group .brace body

/-- A text as a literal of its own. -/
def ofText (s : String) : Token := .literal (.text ⟨Text.quote s⟩)

end Token

open Token

/-- Two marks that make one, such as `::`. -/
def twoMarks (first second : Char) : List Token := [.mark first true, .mark second false]

def colons : List Token := twoMarks ':' ':'

/-- Names with `::` between them. -/
def path : List String → List Token
  | [] => []
  | [name] => [.word name]
  | name :: rest => .word name :: (colons ++ path rest)

/-- An item of the library by the name under which expanded text reaches it. -/
def library (item : List String) : List Token := path ("_burrow" :: "codegen_support" :: item)

/-- A method called on what stands before. -/
def call (method : String) (arguments : List Token) : List Token :=
  [sign '.', .word method, parens arguments]

/-- A word of an attribute with arguments. -/
def directive (name : String) (arguments : List String) : List Token :=
  [sign '#', brackets [.word name, parens ((arguments.map Token.word).intersperse comma)]]

namespace FieldSpec

/-- An item of the type of the field seen as a type that fields may have. -/
def primitive (f : FieldSpec) (item : String) : List Token :=
  [sign '<'] ++ f.type ++ [.word "as"] ++ library ["Primitive"] ++ [sign '>'] ++ colons ++
    [.word item]

/-- The size of a vector goes before a storage class asked for, and that before the one of the
type. -/
def storageTokens (f : FieldSpec) : List Token :=
  match f.marks.vector, f.marks.storage? with
  | some size, _ => library ["StorageClass", "FixedVector"] ++ [parens [.literal (.integer size)]]
  | none, some storage => library ["StorageClass", storage.name]
  | none, none => library ["StorageClass", "from_type"] ++ [parens (f.primitive "TYPE")]

def columnNameCall (f : FieldSpec) : List Token :=
  match f.marks.columnName? with
  | some name => call "column_name" [ofText name]
  | none => []

def indexCall (f : FieldSpec) : List Token :=
  match f.marks.index with
  | some (some name) => call "indexed_as" [.literal (.text name)]
  | some none => call "indexed" []
  | none => []

/-- The column of the field. -/
def columnTokens (f : FieldSpec) : List Token :=
  library ["Column", "new"] ++ [parens ([ofText f.name, comma] ++ f.storageTokens)] ++
    f.columnNameCall ++
    call "nullable" (f.primitive "NULLABLE") ++
    (if f.marks.key then call "primary_key" [] else []) ++
    (if f.marks.unique then call "unique" [] else []) ++
    f.indexCall

/-- The function that gives the field as an expression. -/
def accessor (visibility : List Token) (f : FieldSpec) : List Token :=
  visibility ++ [.word "fn", .word f.ident, parens [sign '&', .word "self"]] ++ twoMarks '-' '>' ++
    colons ++ path ["burrow", "codegen_support", "Expr"] ++
    [braces (colons ++ path ["burrow", "codegen_support", "Expr", "field"] ++
      [parens [ofText f.name]])]

/-- The case of the field among its fellows: what `item` makes of the place `self.field`. -/
def choice (item : String) (borrow : List Token) (f : FieldSpec) : List Token :=
  [ofText f.name] ++ twoMarks '=' '>' ++
    [.word "Some", parens (f.primitive item ++
      [parens (borrow ++ [.word "self", sign '.', .word f.ident])]), comma]

end FieldSpec

def JoinSpec.joinTokens (j : JoinSpec) : List Token :=
  library ["JoinNavigation", "new"] ++
    [parens (ofText j.left :: comma :: (library ["RecordRef", "of"] ++ colons ++ [sign '<'] ++
      j.target ++ [sign '>', parens [], comma, ofText j.right, comma]))] ++
    if j.index then call "with_foreign_key_index" [] else []

namespace RecordSpec

def mapped (r : RecordSpec) : List FieldSpec := mappedFields r.fields

/-- The struct of expressions is named after the record. -/
def fieldStruct (r : RecordSpec) : Token := .word (r.name ++ "Fields")

/-- The only member of the struct of expressions, which keeps it from being made elsewhere. -/
def privateMember : List Token := [.word "_priv", sign ':', parens []]

/-- The struct of expressions, its functions, and the constant through which it is reached. -/
def fieldStructTokens (r : RecordSpec) : List Token :=
  directive "derive" ["Debug", "Clone", "Copy"] ++ r.visibility ++
    [.word "struct", r.fieldStruct, braces (privateMember ++ [comma])] ++
    directive "allow" ["dead_code"] ++
    [.word "impl", r.fieldStruct, braces (r.mapped.flatMap (·.accessor r.visibility))] ++
    directive "allow" ["dead_code"] ++
    [.word "impl", .word r.name, braces (r.visibility ++
      [.word "const", .word "FIELDS", sign ':', r.fieldStruct, sign '=', r.fieldStruct,
        braces privateMember, sign ';'])]

def tableCall (r : RecordSpec) : List Token :=
  match r.table with
  | some table => call "table" [.literal (.text table)]
  | none => []

/-- The mapping, declared call by call and built in the end. -/
def mappingTokens (r : RecordSpec) : List Token :=
  library ["RecordMapping", "builder"] ++ [parens [ofText r.name]] ++ r.tableCall ++
    r.mapped.flatMap (fun f => call "column" f.columnTokens) ++
    r.joins.flatMap (fun j => call "join" j.joinTokens) ++ call "build" []

/-- A choice among the fields by name. -/
def choices (r : RecordSpec) (item : String) (borrow : List Token) : List Token :=
  [.word "match", .word "field", braces (r.mapped.flatMap (·.choice item borrow) ++
    [.word "_"] ++ twoMarks '=' '>' ++ [.word "None", comma])]

/-- What `impl` holds: the mapping, and the fields as destinations and as values. -/
def implementation (r : RecordSpec) : List Token :=
  [.word "fn", .word "mapping", parens []] ++ twoMarks '-' '>' ++ library ["Result"] ++
    [sign '<'] ++ library ["RecordMapping"] ++ [sign '>', braces r.mappingTokens] ++
    [.word "fn", .word "target", parens [sign '&', .word "mut", .word "self", comma,
      .word "field", sign ':', sign '&', .word "str"]] ++ twoMarks '-' '>' ++
    [.word "Option", sign '<'] ++ library ["Target"] ++
    [sign '<', .mark '\'' true, .word "_", sign '>', sign '>',
      braces (r.choices "target" [sign '&', .word "mut"])] ++
    [.word "fn", .word "value", parens [sign '&', .word "self", comma,
      .word "field", sign ':', sign '&', .word "str"]] ++ twoMarks '-' '>' ++
    [.word "Option", sign '<'] ++ library ["Value"] ++
    [sign '>', braces (r.choices "to_value" [sign '&'])]

/-- All that the record expands to. -/
def expansion (r : RecordSpec) : List Token :=
  r.fieldStructTokens ++
    [.word "const", .word "_", sign ':', parens [], sign '=',
      braces ([.word "use", .word "burrow", .word "as", .word "_burrow", sign ';', .word "impl"] ++
        library ["Record"] ++ [.word "for", .word r.name, braces r.implementation]),
      sign ';']

end RecordSpec

/-- Why an item does not expand. -/
inductive Refusal
  /-- The text is no sequence of tokens. -/
  | notTokens
  | refused (faults : List ItemFault)
  deriving DecidableEq, Repr

/-- Reads one struct item and describes the record it is to be. -/
def recordSpec (source : String) : Except Refusal RecordSpec :=
  match tokens? source with
  | none => .error .notTokens
  | some tokens =>
    match Item.ofTokens? tokens with
    | none => .error (.refused [.malformed])
    | some item => (RecordSpec.ofItem item).mapError .refused

/-- The program text that one struct item expands to. -/
def expand (source : String) : Except Refusal (List Token) :=
  (recordSpec source).map RecordSpec.expansion

end RecordMapper.Derive
