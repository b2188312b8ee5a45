import RecordMapper.Derive.Grammar.Item
/-!
Statements: items, names for values, and expressions. An expression ends in a semicolon, in a brace
of its own, or at the end of the block.
-/

namespace RecordMapper.Derive.Grammar

open Reader

/-- What a statement turned out to be. -/
inductive StatementForm
  | complete
  /-- An expression that only the end of the block may follow. -/
  | last
  /-- An item that is written as it was taken. -/
  | raw
  deriving DecidableEq

/-- An item begins here, and no expression. -/
def startsItem (tokens : List Token) : Bool :=
  let after := skip tokens
  let later := skip after
  atOneOf ["pub", "extern", "use", "fn", "mod", "type", "struct", "enum", "trait", "impl", "macro"]
      tokens ||
    atWord "crate" tokens && !atMark "::" after ||
    atWord "static" tokens && (atWord "mut" after || atName after) ||
    atWord "const" tokens &&
      !(atGroup .brace after || atOneOf ["static", "move"] after || atMark "|" after ||
        atWord "async" after && !atOneOf ["unsafe", "extern", "fn"] later) ||
    atWord "unsafe" tokens && !atGroup .brace after ||
    atWord "async" tokens && atOneOf ["unsafe", "extern", "fn"] after ||
    atWord "union" tokens && atName after ||
    atWord "auto" tokens && atWord "trait" after ||
    atWord "default" tokens && atOneOf ["unsafe", "impl"] after

/-- The tokens after the mark of a call, if the text begins with one. -/
def afterCall? (tokens : List Token) : Option (List Token) :=
  match plainPath tokens with
  | some ⟨_, _, rest⟩ => if atMark "!" rest then some (skip rest) else none
  | none => none

/-- A call with braces that no member and no question mark follows. -/
def startsStatementCall (tokens : List Token) : Bool :=
  (afterCall? tokens).any fun called =>
    atGroup .brace called && !(atDot (skip called) || atMark "?" (skip called))

/-- A call that gives a name. -/
def startsNamedCall (tokens : List Token) : Bool :=
  (afterCall? tokens).any fun called => atName called || atWord "try" called

def endsInBrace (tokens : List Token) : Bool :=
  match tokens.getLast? with
  | some (.group .brace _) => true
  | _ => false

/-- Names for the parts of a value. A block may follow a value that does not end in a brace. -/
def localNames (c : Rules) : Reader Unit := do
  word "let"
  let _ ← c.read .pattern
  if ← optionalMark ":" then
    let _ ← c.read (.type true)
  if ← optionalMark "=" then
    let (_, value) ← noted (c.read (.expression true))
    if atWord "else" (← look) && !endsInBrace value then
      anyWord
      block c
  mark ";"

/-- A statement that does not begin with a semicolon. -/
def statement (c : Rules) : Reader StatementForm :=
  asTakenWhen (fun form => form matches .raw) do
    let (_, before) ← captured (attributes c)
    let tokens ← look
    if startsStatementCall tokens then
      write before
      plainPath
      let _ ← invocation
      let _ ← optionalMark ";"
      return .complete
    if atWord "let" tokens then
      write before
      localNames c
      return .complete
    if startsItem tokens || startsNamedCall tokens then
      write before
      return if ← restOfItem c then .raw else .complete
    let (form, written) ← captured (c.read .leading)
    if !form.raw then write before
    write written
    let ended ← optionalMark ";"
    return if ended || form.kind = .block || form.kind = .invocation then .complete else .last

/-- Statements, to the end of a block. -/
def statements (c : Rules) : Reader Unit := repeated do
  repeated (optionalMark ";")
  if (← look).isEmpty then return false
  let form ← statement c
  if (← look).isEmpty then return false
  if form = .last then fail
  return true

end RecordMapper.Derive.Grammar
