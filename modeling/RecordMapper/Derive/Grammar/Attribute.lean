import RecordMapper.Derive.Grammar.Phrase
/-!
Attributes, and what else begins an item: paths without arguments, and visibilities.
-/

namespace RecordMapper.Derive.Grammar

open Reader

/-- A path without arguments. -/
def plainPath : Reader Unit := do
  let _ ← optionalMark "::"
  repeated do
    let tokens ← look
    if atName tokens || atOneOf ["super", "self", "Self", "crate"] tokens then anyWord else fail
    optionalMark "::"

/-- A call by the mark `!` follows. -/
def atInvocation (tokens : List Token) : Bool := atMark "!" tokens && !atMark "!=" tokens

/-- The value of an attribute: a literal or another expression, which does not begin with an
attribute. -/
def attributeValue (c : Rules) : Reader Unit := do
  let tokens ← look
  if (literal tokens).any (·.rest.isEmpty) then literal
  else if atMark "#" tokens && atGroup .bracket (skip tokens) then fail
  else
    let _ ← c.read (.expression true)

/-- What follows the path of an attribute. -/
def attributeContent (c : Rules) : Reader Attribute.Content := do
  match ← look with
  | .group _ body :: _ =>
    let _ ← anyGroup
    return .arguments body
  | tokens =>
    if atMark "=" tokens then
      mark "="
      let ((), value) ← noted (attributeValue c)
      return .value value
    else return .nothing

def soleWord : List Token → Option String
  | [.word name] => some name
  | _ => none

/-- What stands in the brackets of an attribute. -/
def attributeBody (c : Rules) : Reader Attribute := do
  let ((), path) ← noted (do if !(← optionalWord "unsafe") then plainPath)
  return { name := soleWord path, content := ← attributeContent c }

/-- Attributes of what comes after them. -/
def attributes (c : Rules) : Reader (List Attribute) :=
  iterate (fun found => do
    if !(← optionalMark "#") then return (found, false)
    return (found ++ [← inside .bracket (attributeBody c)], true)) []

/-- Attributes of what they stand in. -/
def innerAttributes (c : Rules) : Reader Unit := repeated do
  let tokens ← look
  if !(atMark "#" tokens && atMark "!" (skip tokens)) then return false
  take 2
  let _ ← inside .bracket (attributeBody c)
  return true

/-- A visibility, which may be missing. Whether it is there. In parentheses stands a place; if
something else does, they belong to what follows. -/
def visibility : Reader Bool := do
  if !(← optionalWord "pub") then return false
  match ← look with
  | .group .parenthesis (.word "in" :: _) :: _ =>
    inside .parenthesis do
      word "in"
      plainPath
  | .group .parenthesis [.word place] :: _ =>
    if ["crate", "self", "super"].contains place then take 1
  | _ => pure ()
  return true

/-- Statements in braces. -/
def block (c : Rules) : Reader Unit := inside .brace (c.read .statements)

/-- Statements in braces, after the attributes of what they belong to. -/
def body (c : Rules) : Reader Unit := inside .brace do
  innerAttributes c
  c.read .statements

/-- A constant argument: a literal, a name or a block. -/
def constantArgument (c : Rules) : Reader Unit := do
  let tokens ← look
  if atLiteral tokens then literal
  else if atName tokens then name
  else body c

end RecordMapper.Derive.Grammar
