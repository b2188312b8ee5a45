import RecordMapper.Derive.Grammar.Function
/-!
Structs and other types, constants, and use declarations.
-/

namespace RecordMapper.Derive.Grammar

open Reader

/-- The type of a field that has no name. Fields in braces are written as they were taken. -/
def unnamedFieldType (c : Rules) : Reader Unit := do
  let tokens ← look
  if atWord "struct" tokens || atWord "union" tokens && atGroup .brace (skip tokens) then
    asTakenWhen (fun _ => true) do
      anyWord
      let _ ← inside .brace (c.read .fields)
  else
    let _ ← c.read (.type true)

/-- A field in braces. -/
def namedField (c : Rules) : Reader ItemField := do
  let attributes ← attributes c
  let (_, visibility) ← noted visibility
  let unnamed := atWord "_" (← look)
  let (_, ident) ← noted (if unnamed then anyWord else name)
  mark ":"
  let (_, type) ← noted <|
    if unnamed then unnamedFieldType c
    else do
      let _ ← c.read (.type true)
  return { attributes, visibility, name := (soleWord ident).getD "", type }

/-- The fields in braces. -/
def fields (c : Rules) : Reader (List ItemField) :=
  iterate (fun found => do
    if (← look).isEmpty then return (found, false)
    let found := found ++ [← namedField c]
    if (← look).isEmpty then return (found, false)
    mark ","
    return (found, true)) []

/-- The fields in parentheses. -/
def tupleFields (c : Rules) : Reader Unit := inside .parenthesis <| listed do
  let _ ← attributes c
  let _ ← visibility
  let _ ← c.read (.type true)

/-- The fields of a struct, with conditions before or after them. -/
def structFields (c : Rules) : Reader ItemFields := do
  let conditioned ← conditions c
  match ← look with
  | .group .brace _ :: _ => return .named (← inside .brace (c.read .fields))
  | tokens =>
    if !conditioned && atGroup .parenthesis tokens then
      tupleFields c
      let _ ← conditions c
    mark ";"
    return .unnamed

/-- A struct after its attributes. -/
def structItem (c : Rules) (attributes : List Attribute) : Reader Item := do
  let (_, visibility) ← noted visibility
  word "struct"
  let (_, ident) ← noted name
  let generic ← parameters c
  return { attributes, visibility, name := (soleWord ident).getD "", generic,
           fields := ← structFields c }

/-- A variant of an enumeration. Its visibility is not written. -/
def variant (c : Rules) : Reader Unit := do
  let _ ← attributes c
  let _ ← captured visibility
  name
  let tokens ← look
  if atGroup .brace tokens then
    let _ ← inside .brace (c.read .fields)
  else if atGroup .parenthesis tokens then tupleFields c
  if ← optionalMark "=" then anyExpression c

def enumeration (c : Rules) : Reader Unit := do
  let _ ← visibility
  word "enum"
  name
  let _ ← parameters c
  let _ ← conditions c
  inside .brace (listed (variant c))

def union (c : Rules) : Reader Unit := do
  let _ ← visibility
  word "union"
  name
  let _ ← parameters c
  let _ ← conditions c
  let _ ← inside .brace (c.read .fields)

/-- A name after `as`. -/
def newName : Reader Unit := do
  if !(← optionalWord "_") then name

/-- What a use declaration names. Whether some part of it begins with a mark. -/
def useTree (c : Rules) (rooted : Bool) : Reader Bool := do
  let tokens ← look
  if atPlace tokens || atWord "try" tokens then
    anyWord
    if ← optionalMark "::" then
      let _ ← c.read (.useTree false)
    else if ← optionalWord "as" then newName
    return false
  if ← optionalMark "*" then return false
  inside .brace <| iterate (fun found => do
    if (← look).isEmpty then return (found, false)
    let marked ← if rooted then optionalMark "::" else pure false
    let found := (← c.read (.useTree (rooted && !marked))) || marked || found
    if (← look).isEmpty then return (found, false)
    mark ","
    return (found, true)) false

/-- A use declaration. Whether some part of it, but not the whole, begins with a mark. -/
def use (c : Rules) : Reader Bool := do
  let _ ← visibility
  word "use"
  let marked ← optionalMark "::"
  let found ← c.read (.useTree !marked)
  mark ";"
  return found

/-- A static. Whether it lacks its type or its value. -/
def static (c : Rules) : Reader Bool := do
  let _ ← visibility
  word "static"
  let _ ← optionalWord "mut"
  name
  let typed ← optionalMark ":"
  if typed then
    let _ ← c.read (.type true)
  let given ← optionalMark "="
  if given then anyExpression c
  else if !typed then fail
  mark ";"
  return !(typed && given)

/-- What a constant has besides its type. -/
structure ConstantForm where
  /-- Angles or conditions, with or without something in them. -/
  general : Bool
  given : Bool

/-- A constant after its visibility. -/
def constant (c : Rules) : Reader ConstantForm := do
  word "const"
  if !(← optionalWord "_") then name
  let angled := atMark "<" (← look)
  let _ ← parameters c
  mark ":"
  let _ ← c.read (.type true)
  let given ← optionalMark "="
  if given then anyExpression c
  let conditioned ← conditions c
  mark ";"
  return ⟨angled || conditioned, given⟩

/-- Where conditions on a type may stand. -/
inductive Conditions
  | beforeValue
  | afterValue
  | both
  deriving DecidableEq

/-- What a type item has besides its name. -/
structure AliasForm where
  /-- A colon, with or without bounds behind it. -/
  bounded : Bool
  given : Bool

/-- A type that is given a name, or only named. -/
def typeItem (c : Rules) (place : Conditions) : Reader AliasForm := do
  let _ ← visibility
  word "type"
  name
  let _ ← parameters c
  let bounded := atMark ":" (← look)
  afterColon <| summed
    (fun tokens => atWord "where" tokens || atMark "=" tokens || atMark ";" tokens) (itemBound c)
  let conditioned ← if place ≠ .afterValue then conditions c else pure false
  let given ← optionalMark "="
  if given then
    let _ ← c.read (.type true)
  if place ≠ .beforeValue && !conditioned then
    let _ ← conditions c
  mark ";"
  return ⟨bounded, given⟩

end RecordMapper.Derive.Grammar
