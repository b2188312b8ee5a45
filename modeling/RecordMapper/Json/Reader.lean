import RecordMapper.Json.NumberReader
import RecordMapper.Number.Numeral
/-!
Reading strict JSON: one value with blanks around it and nothing after it. Arrays and objects nest
at most 127 deep, and escapes spell whole characters.
-/

namespace RecordMapper.Json

def isSpace (c : Char) : Bool := c == ' ' || c == '\n' || c == '\r' || c == '\t'

def skipSpace (text : List Char) : List Char := text.dropWhile isSpace

/-- One unit of a string literal: a character as it stands, or the UTF-16 unit of an escape. -/
inductive StringUnit
  | plain (c : Char)
  | code (n : Nat)
  deriving DecidableEq, Repr

def hexUnit? (a b c d : Char) : Option Nat := do
  let a ← Numeral.hexDigit? a
  let b ← Numeral.hexDigit? b
  let c ← Numeral.hexDigit? c
  let d ← Numeral.hexDigit? d
  return ((a * 16 + b) * 16 + c) * 16 + d

/-- The character of a one-letter escape. -/
def shortEscape? (c : Char) : Option Char :=
  match c with
  | '"' | '\\' | '/' => some c
  | 'b' => some (Char.ofNat 8)
  | 'f' => some (Char.ofNat 12)
  | 'n' => some '\n'
  | 'r' => some '\r'
  | 't' => some '\t'
  | _ => none

/-- The units of a string literal up to its closing quotation mark. -/
def units? : List Char → Option (List StringUnit × List Char)
  | [] => none
  | '"' :: rest => some ([], rest)
  | '\\' :: 'u' :: a :: b :: c :: d :: rest => do
    let n ← hexUnit? a b c d
    let (units, rest) ← units? rest
    return (.code n :: units, rest)
  | '\\' :: c :: rest => do
    let c ← shortEscape? c
    let (units, rest) ← units? rest
    return (.plain c :: units, rest)
  | c :: rest =>
    if c.toNat < 32 then none
    else do
      let (units, rest) ← units? rest
      return (.plain c :: units, rest)

def isHighSurrogate (n : Nat) : Bool := 0xd800 ≤ n && n ≤ 0xdbff

def isLowSurrogate (n : Nat) : Bool := 0xdc00 ≤ n && n ≤ 0xdfff

/-- The characters that units spell. A surrogate without its partner spells nothing. -/
def spell? : List StringUnit → Option (List Char)
  | [] => some []
  | .plain c :: rest => (spell? rest).map (c :: ·)
  | .code high :: .code low :: rest =>
    if isHighSurrogate high then
      if isLowSurrogate low then
        (spell? rest).map (Char.ofNat (0x10000 + (high - 0xd800) * 0x400 + (low - 0xdc00)) :: ·)
      else none
    else if isLowSurrogate high then none
    else (spell? (.code low :: rest)).map (Char.ofNat high :: ·)
  | .code n :: rest =>
    if isHighSurrogate n || isLowSurrogate n then none
    else (spell? rest).map (Char.ofNat n :: ·)

/-- Reads a string after its opening quotation mark. -/
def stringBody? (text : List Char) : Option (String × List Char) := do
  let (units, rest) ← units? text
  return (String.ofList (← spell? units), rest)

/-- Reads a fixed word. -/
def word? (word : List Char) (v : Json) (text : List Char) : Option (Json × List Char) :=
  if word.isPrefixOf text then some (v, text.drop word.length) else none

def openBrace : Char := Char.ofNat 123

def closeBrace : Char := Char.ofNat 125

/-- Reads a member name and the colon after it. -/
def memberName? (text : List Char) : Option (String × List Char) :=
  match skipSpace text with
  | '"' :: rest => do
    let (name, rest) ← stringBody? rest
    match skipSpace rest with
    | ':' :: rest => some (name, rest)
    | _ => none
  | _ => none

mutual

/-- Reads a value. `depth` arrays and objects may still be opened. -/
def value? : Nat → Nat → List Char → Option (Json × List Char)
  | 0, _, _ => none
  | fuel + 1, depth, text =>
    match skipSpace text with
    | [] => none
    | '"' :: rest => (stringBody? rest).map fun (s, rest) => (.string s, rest)
    | '[' :: rest =>
      if depth = 0 then none
      else
        match skipSpace rest with
        | ']' :: rest => some (.array [], rest)
        | rest => (items? fuel (depth - 1) rest).map fun (items, rest) => (.array items, rest)
    | c :: rest =>
      if c = openBrace then
        if depth = 0 then none
        else
          match skipSpace rest with
          | d :: rest' =>
            if d = closeBrace then some (.object [], rest')
            else (members? fuel (depth - 1) rest).map fun (ms, rest) => (.object ms, rest)
          | [] => none
      else if c = 'n' then word? "null".toList .null (c :: rest)
      else if c = 't' then word? "true".toList (.bool true) (c :: rest)
      else if c = 'f' then word? "false".toList (.bool false) (c :: rest)
      else number? (c :: rest)

/-- Reads the items of an array that has some, and the closing bracket. -/
def items? : Nat → Nat → List Char → Option (List Json × List Char)
  | 0, _, _ => none
  | fuel + 1, depth, text => do
    let (v, rest) ← value? fuel depth text
    match skipSpace rest with
    | ']' :: rest => some ([v], rest)
    | ',' :: rest =>
      let (vs, rest) ← items? fuel depth rest
      some (v :: vs, rest)
    | _ => none

/-- Reads the members of an object that has some, and the closing brace. -/
def members? : Nat → Nat → List Char → Option (Members × List Char)
  | 0, _, _ => none
  | fuel + 1, depth, text => do
    let (name, rest) ← memberName? text
    let (v, rest) ← value? fuel depth rest
    match skipSpace rest with
    | [] => none
    | c :: rest =>
      if c = closeBrace then some ([(name, v)], rest)
      else if c = ',' then
        let (ms, rest) ← members? fuel depth rest
        some ((name, v) :: ms, rest)
      else none

end

/-- Reads a whole text. Every step of the reading consumes a character or opens a container. -/
def parse? (text : String) : Option Json :=
  let cs := text.toList
  match value? (2 * cs.length + 2) 127 cs with
  | some (v, rest) => if (skipSpace rest).isEmpty then some v else none
  | none => none

end RecordMapper.Json
