import RecordMapper.Derive.Grammar.Definition
/-!
Items of every kind, with their members. Those that say more than their kind allows are written as
they were taken.
-/

namespace RecordMapper.Derive.Grammar

open Reader

/-- Items in braces, after the attributes of what they belong to. -/
def members (c : Rules) (item : Reader Unit) : Reader Unit := inside .brace do
  innerAttributes c
  toEnd item

/-- A call by the mark `!` in the place of an item. Where `named` is set, it may give a name. A
semicolon ends it, unless a brace does. -/
def calledItem (named : Bool) : Reader Unit := do
  plainPath
  mark "!"
  let tokens ← look
  if named && (atWord "try" tokens || atName tokens) then anyWord
  if (← anyGroup) ≠ .brace then mark ";"

/-- What else may begin a call in the place of an item. -/
def startsCall (visible : Bool) (tokens : List Token) : Bool :=
  !visible && (atPlace tokens || atMark "::" tokens)

/-- A member of a trait. -/
def traitMember (c : Rules) : Reader Unit := do
  let _ ← asTakenWhen id do
    let _ ← attributes c
    let visible ← visibility
    let defaulted ← optionalWord "default"
    let special := visible || defaulted
    let tokens ← look
    if startsFunction false tokens then
      let _ ← signature c false
      if atGroup .brace (← look) then body c else mark ";"
      return special
    if atWord "const" tokens then
      return (← constant c).general || special
    if atWord "type" tokens then
      let _ ← typeItem c .afterValue
      return special
    if !startsCall special tokens then fail
    calledItem false
    return special

/-- A member of an implementation. -/
def implementationMember (c : Rules) : Reader Unit := do
  let _ ← asTakenWhen id do
    let _ ← attributes c
    let visible ← visibility
    let tokens ← look
    let defaulted := atWord "default" tokens && !atMark "!" (skip tokens)
    if defaulted then anyWord
    let tokens ← look
    if startsFunction false tokens then
      let _ ← signature c false
      if ← optionalMark ";" then return true
      body c
      return false
    if atWord "const" tokens then
      let form ← constant c
      return form.general || !form.given
    if atWord "type" tokens then
      let form ← typeItem c .afterValue
      return form.bounded || !form.given
    if !startsCall (visible || defaulted) tokens then fail
    calledItem false
    return false

/-- A member of a foreign block. -/
def foreignMember (c : Rules) : Reader Unit := do
  let _ ← asTakenWhen id do
    let _ ← attributes c
    let visible ← visibility
    let tokens ← look
    if startsFunction true tokens then
      let trusted ← signature c true
      if atGroup .brace (← look) then
        body c
        return true
      mark ";"
      return trusted
    if atWord "static" tokens ||
        atOneOf ["unsafe", "safe"] tokens && atWord "static" (skip tokens) then
      let marked := !atWord "static" tokens
      if marked then anyWord
      word "static"
      let _ ← optionalWord "mut"
      name
      mark ":"
      let _ ← c.read (.type true)
      let given ← optionalMark "="
      if given then anyExpression c
      mark ";"
      return marked || given
    if atWord "type" tokens then
      let form ← typeItem c .both
      return form.bounded || form.given
    if !startsCall visible tokens then fail
    calledItem false
    return false

/-- Declarations of what is defined elsewhere, by other conventions. -/
def foreignBlock (c : Rules) : Reader Unit := do
  let _ ← optionalWord "unsafe"
  if !atWord "extern" (← look) then fail
  convention
  members c (foreignMember c)

/-- The name of another library, and the name that it is given. -/
def foreignLibrary : Reader Unit := do
  let _ ← visibility
  word "extern"
  word "crate"
  if atWord "self" (← look) then anyWord else name
  if ← optionalWord "as" then newName
  mark ";"

def module (c : Rules) : Reader Unit := do
  let _ ← visibility
  let _ ← optionalWord "unsafe"
  word "mod"
  if atWord "try" (← look) then anyWord else name
  if !(← optionalMark ";") then members c (c.read .item)

/-- Supertraits and conditions, and the members of the trait. -/
def restOfTrait (c : Rules) : Reader Unit := do
  afterColon <| summed (fun tokens => atWord "where" tokens || atGroup .brace tokens) (itemBound c)
  let _ ← conditions c
  members c (traitMember c)

/-- A trait, or a name for bounds. -/
def trait (c : Rules) : Reader Unit := do
  let _ ← visibility
  let risky ← optionalWord "unsafe"
  let automatic ← optionalWord "auto"
  word "trait"
  name
  let _ ← parameters c
  if !risky && !automatic && atMark "=" (← look) then
    mark "="
    let _ ← summed (fun tokens => atWord "where" tokens || atMark ";" tokens) do
      let _ ← c.read (.bound false false)
    let _ ← conditions c
    mark ";"
  else restOfTrait c

/-- An implementation. Whether it has a visibility, is constant, or is for a trait that is no
path. -/
def implementation (c : Rules) : Reader Bool := do
  let visible ← visibility
  let _ ← optionalWord "default"
  let _ ← optionalWord "unsafe"
  word "impl"
  if startsParameters (← look) then
    let _ ← parameters c
  let tokens ← look
  let constant := atWord "const" tokens || atMark "?" tokens && atWord "const" (skip tokens)
  if constant then
    let _ ← optionalMark "?"
    word "const"
  let tokens ← look
  let negative := atMark "!" tokens && !atGroup .brace (skip tokens)
  if negative then mark "!"
  let form ← c.read (.type true)
  let ofTrait ← optionalWord "for"
  if ofTrait then
    let _ ← c.read (.type true)
  else if negative then fail
  let _ ← conditions c
  members c (implementationMember c)
  return visible || constant || ofTrait && !(form matches .path _)

/-- A rule for calls by the mark `!`. What it holds is not read. -/
def callRule : Reader Unit := do
  let _ ← visibility
  anyWord
  name
  if atGroup .parenthesis (← look) then take 1
  if atGroup .brace (← look) then take 1 else fail

/-- A function with its body. Whether that is missing. -/
def function (c : Rules) : Reader Bool := do
  let _ ← visibility
  let _ ← signature c false
  if ← optionalMark ";" then return true
  body c
  return false

/-- The tokens after a visibility. -/
def afterVisibility : Reader (List Token) := fun tokens =>
  (visibility tokens).map fun found => ⟨found.rest, [], tokens⟩

/-- An item after its attributes. Whether it is written as it was taken. -/
def restOfItem (c : Rules) : Reader Bool := do
  let visible := atWord "pub" (← look)
  let tokens ← afterVisibility
  let after := skip tokens
  let foreign (tokens : List Token) : Bool :=
    atGroup .brace tokens || atText tokens && atGroup .brace (skip tokens)
  if startsFunction false tokens then function c
  else if atWord "extern" tokens then
    if atWord "crate" after then foreignLibrary
    else if foreign after then foreignBlock c
    else fail
    return false
  else if atWord "use" tokens then use c
  else if atWord "static" tokens then static c
  else if atWord "const" tokens then
    let _ ← visibility
    let form ← constant c
    return form.general || !form.given
  else if atWord "mod" tokens || atWord "unsafe" tokens && atWord "mod" after then
    module c
    return false
  else if atWord "trait" tokens || atWord "auto" tokens && atWord "trait" after ||
      atWord "unsafe" tokens &&
        (atWord "trait" after || atWord "auto" after && atWord "trait" (skip after)) then
    trait c
    return false
  else if atWord "unsafe" tokens && atWord "extern" after then
    foreignBlock c
    return false
  else if atWord "impl" tokens || atWord "unsafe" tokens && atWord "impl" after ||
      atWord "default" tokens && !atMark "!" after then implementation c
  else if atWord "type" tokens then
    let form ← typeItem c .beforeValue
    return form.bounded || !form.given
  else if atWord "struct" tokens then
    let _ ← structItem c []
    return false
  else if atWord "enum" tokens then
    enumeration c
    return false
  else if atWord "union" tokens && atName after then
    union c
    return false
  else if atWord "macro" tokens then
    callRule
    return true
  else
    if !startsCall visible tokens then fail
    calledItem true
    return false

def item (c : Rules) : Reader Unit := do
  let _ ← asTakenWhen id do
    let _ ← attributes c
    restOfItem c

end RecordMapper.Derive.Grammar
