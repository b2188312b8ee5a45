import RecordMapper.Json.Basic
import RecordMapper.Number.Layout
import RecordMapper.Number.Numeral
/-!
Compact JSON text. Strings escape the quotation mark, the backslash and control characters, and
nothing else.
-/

namespace RecordMapper.Json

def hexDigit (n : Nat) : Char := Char.ofNat (if n < 10 then 48 + n else 87 + n)

def escape (c : Char) : List Char :=
  if c = '"' then ['\\', '"']
  else if c = '\\' then ['\\', '\\']
  else if c = '\n' then ['\\', 'n']
  else if c = '\r' then ['\\', 'r']
  else if c = '\t' then ['\\', 't']
  else if c.toNat = 8 then ['\\', 'b']
  else if c.toNat = 12 then ['\\', 'f']
  else if c.toNat < 32 then ['\\', 'u', '0', '0', hexDigit (c.toNat / 16), hexDigit (c.toNat % 16)]
  else [c]

def quoted (s : String) : List Char := '"' :: s.toList.flatMap escape ++ ['"']

mutual

def chars : Json → List Char
  | null => "null".toList
  | bool b => (if b then "true" else "false").toList
  | integer i => (Numeral.ofInt i).toList
  | float x => x.jsonText.toList
  | string s => quoted s
  | array [] => ['[', ']']
  | array (v :: rest) => '[' :: v.chars ++ itemChars rest
  | object [] => [Char.ofNat 123, Char.ofNat 125]
  | object ((name, v) :: rest) =>
    Char.ofNat 123 :: quoted name ++ ':' :: v.chars ++ memberChars rest

/-- The items after the first and the closing bracket. -/
def itemChars : List Json → List Char
  | [] => [']']
  | v :: rest => ',' :: v.chars ++ itemChars rest

/-- The members after the first and the closing brace. -/
def memberChars : List (String × Json) → List Char
  | [] => [Char.ofNat 125]
  | (name, v) :: rest => ',' :: quoted name ++ ':' :: v.chars ++ memberChars rest

end

def print (v : Json) : String := String.ofList v.chars

end RecordMapper.Json
