import RecordMapper.Derive.Token
import RecordMapper.Number.Numeral
import RecordMapper.Text.Identifier
/-!
Literals at the front of program text: texts, quoted or raw, bytes and characters, and numbers. A
literal may end in a suffix, an identifier glued to it.
-/

namespace RecordMapper.Derive

namespace Literal

/-- What may stand in quotes: characters as they are, and code points given by an escape of two
digits or of up to six. -/
structure Alphabet where
  plain : Char → Bool
  short : Nat → Bool
  long : Nat → Bool

def characters : Alphabet := ⟨fun _ => true, (· < 128), fun _ => true⟩

def bytes : Alphabet := ⟨(·.toNat < 128), fun _ => true, fun _ => false⟩

/-- Texts that end in a NUL hold none. -/
def terminated : Alphabet := ⟨(·.toNat ≠ 0), (· ≠ 0), (· ≠ 0)⟩

/-- The code point of an escape after its opening brace, `count` digits having made `value`. It has
one to six digits, and underscores after the first. -/
def longEscape? (value count : Nat) : List Char → Option (Nat × List Char)
  | [] => none
  | '\x7d' :: rest => if 0 < count ∧ value.isValidChar then some (value, rest) else none
  | '_' :: rest => if 0 < count then longEscape? value count rest else none
  | c :: rest => do
    let digit ← Numeral.hexDigit? c
    if count < 6 then longEscape? (value * 16 + digit) (count + 1) rest else none

/-- What goes on after a backslash at the end of a line: the blanks up to the next character are
left out. A carriage return stands only before a line feed. -/
def nextLine? : List Char → Option (List Char)
  | [] => none
  | '\r' :: '\n' :: rest => nextLine? rest
  | '\r' :: _ => none
  | c :: rest => if c = ' ' ∨ c = '\t' ∨ c = '\n' then nextLine? rest else some (c :: rest)

/-- The character that an escape stands for, after the backslash. -/
def escape? (alphabet : Alphabet) : List Char → Option (Char × List Char)
  | 'x' :: a :: b :: rest => do
    let value := (← Numeral.hexDigit? a) * 16 + (← Numeral.hexDigit? b)
    if alphabet.short value then some (Char.ofNat value, rest) else none
  | 'u' :: '\x7b' :: rest => do
    let (value, rest) ← longEscape? 0 0 rest
    if alphabet.long value then some (Char.ofNat value, rest) else none
  | 'n' :: rest => some ('\n', rest)
  | 'r' :: rest => some ('\r', rest)
  | 't' :: rest => some ('\t', rest)
  | '0' :: rest => if alphabet.short 0 then some (Char.ofNat 0, rest) else none
  | c :: rest => if c = '\\' ∨ c = '\'' ∨ c = '"' then some (c, rest) else none
  | [] => none

/-- One step inside quotes: a character, an escape, a line end or a line that goes on. -/
def unit? (alphabet : Alphabet) : List Char → Option (List Char × List Char)
  | [] => none
  | '\r' :: '\n' :: rest => some (['\n'], rest)
  | '\r' :: _ => none
  | '\\' :: '\n' :: rest => (nextLine? ('\n' :: rest)).map fun rest => ([], rest)
  | '\\' :: '\r' :: rest => (nextLine? ('\r' :: rest)).map fun rest => ([], rest)
  | '\\' :: rest => (escape? alphabet rest).map fun (c, rest) => ([c], rest)
  | c :: rest => if alphabet.plain c then some ([c], rest) else none

/-- What stands in quotes, after the first of them. -/
def quoted? (alphabet : Alphabet) (text : List Char) : Option (List Char × List Char) :=
  if text.head? = some '"' then some ([], text.tail)
  else
    match unit? alphabet text with
    | none => none
    | some (value, rest) =>
      if rest.length < text.length then
        (quoted? alphabet rest).map fun (values, rest) => (value ++ values, rest)
      else none
termination_by text.length

/-- What stands between raw quotes, up to a quote with as many hashes after it as before the first
one. -/
def rawBody? (plain : Char → Bool) (hashes : Nat) : List Char → Option (List Char × List Char)
  | [] => none
  | '\r' :: '\n' :: rest =>
    (rawBody? plain hashes rest).map fun (value, rest) => ('\r' :: '\n' :: value, rest)
  | '\r' :: _ => none
  | c :: rest =>
    if c = '"' ∧ rest.take hashes = List.replicate hashes '#' then some ([], rest.drop hashes)
    else if plain c then (rawBody? plain hashes rest).map fun (value, rest) => (c :: value, rest)
    else none

/-- A raw text after its letter: at most 255 hashes, then quotes. -/
def raw? (plain : Char → Bool) (text : List Char) : Option (List Char × List Char) :=
  let hashes := (text.takeWhile (· == '#')).length
  match text.drop hashes with
  | '"' :: rest => if hashes ≤ 255 then rawBody? plain hashes rest else none
  | _ => none

/-- One character or escape between apostrophes, after the first of them. -/
def single? (alphabet : Alphabet) (text : List Char) : Option (List Char) :=
  let after :=
    match text with
    | [] => none
    | '\\' :: rest => (escape? alphabet rest).map (·.2)
    | c :: rest => if alphabet.plain c then some rest else none
  match after with
  | some ('\'' :: rest) => some rest
  | _ => none

def dropSuffix (text : List Char) : List Char :=
  match Text.identifier? text with
  | some (_, rest) => rest
  | none => text

/-- A number ends where no letter, digit or mark of an identifier follows its suffix. -/
def numberEnd? (text : List Char) : Option (List Char) :=
  match dropSuffix text with
  | [] => some []
  | c :: rest => if Text.continuesIdentifier c then none else some (c :: rest)

def isDigitOrScore (c : Char) : Bool := c.isDigit || c == '_'

/-- An exponent after its letter: a sign at most, and a digit at least. Underscores count for
nothing. -/
def exponent? (text : List Char) : Option (List Char) :=
  let unsigned :=
    match text.dropWhile (· == '_') with
    | '+' :: rest | '-' :: rest => rest
    | rest => rest
  if (unsigned.takeWhile isDigitOrScore).any Char.isDigit then
    some (unsigned.dropWhile isDigitOrScore)
  else none

/-- Digits with a point, an exponent, or both. No second point and no name may follow the point. -/
def realDigits? (text : List Char) : Option (List Char) :=
  match text with
  | [] => none
  | first :: _ =>
    if !first.isDigit then none
    else
      match text.dropWhile isDigitOrScore with
      | '.' :: rest =>
        if (rest.take 1).any fun c => c == '.' || Text.startsIdentifier c then none
        else
          match rest.dropWhile isDigitOrScore with
          | c :: rest =>
            if c = 'e' ∨ c = 'E' then some ((exponent? rest).getD (c :: rest)) else some (c :: rest)
          | [] => some []
      | c :: rest => if c = 'e' ∨ c = 'E' then exponent? rest else none
      | [] => none

/-- Digits in `base` after `value`, `some` once there is one. A letter that is no digit ends them; a
decimal digit that is none is refused. -/
def baseDigits? (base : Nat) (value : Option Nat) : List Char → Option (Nat × List Char)
  | [] => value.map fun value => (value, [])
  | c :: rest =>
    if c = '_' then
      if value.isNone ∧ base = 10 then none else baseDigits? base value rest
    else
      match Numeral.hexDigit? c with
      | some digit =>
        if digit < base then baseDigits? base (some (value.getD 0 * base + digit)) rest
        else if c.isDigit then none
        else value.map fun value => (value, c :: rest)
      | none => value.map fun value => (value, c :: rest)

def integerDigits? (text : List Char) : Option (Nat × List Char) :=
  match text with
  | '0' :: 'x' :: rest => baseDigits? 16 none rest
  | '0' :: 'o' :: rest => baseDigits? 8 none rest
  | '0' :: 'b' :: rest => baseDigits? 2 none rest
  | _ => baseDigits? 10 none text

/-- The text up to where `rest` begins. -/
def upTo (rest text : List Char) : String := String.ofList (text.take (text.length - rest.length))

/-- What a text at the front stands for, in quotes or in raw ones, and what follows it. -/
def text? : List Char → Option (List Char × List Char)
  | '"' :: rest => quoted? characters rest
  | 'r' :: rest => raw? characters.plain rest
  | _ => none

/-- The literal at the front, told by its first letters. -/
def quotedLiteral? (text : List Char) : Option (Literal × List Char) :=
  let literal (kind : String → Literal) (after : Option (List Char)) :
      Option (Literal × List Char) :=
    after.map fun rest =>
      let rest := dropSuffix rest
      (kind (upTo rest text), rest)
  let plainText := literal fun written => .text ⟨written⟩
  let otherText := literal .other
  match text with
  | '"' :: _ | 'r' :: _ => plainText ((text? text).map (·.2))
  | 'b' :: '"' :: rest => otherText ((quoted? bytes rest).map (·.2))
  | 'b' :: 'r' :: rest => otherText ((raw? bytes.plain rest).map (·.2))
  | 'b' :: '\'' :: rest => otherText (single? bytes rest)
  | 'c' :: '"' :: rest => otherText ((quoted? terminated rest).map (·.2))
  | 'c' :: 'r' :: rest => otherText ((raw? terminated.plain rest).map (·.2))
  | '\'' :: rest => otherText (single? characters rest)
  | _ => none

def real? (text : List Char) : Option (Literal × List Char) := do
  let rest ← numberEnd? (← realDigits? text)
  return (.real (upTo rest text), rest)

def integer? (text : List Char) : Option (Literal × List Char) := do
  let (_, rest) ← integerDigits? text
  let rest ← numberEnd? rest
  return (.integer ⟨upTo rest text⟩, rest)

/-- Splits off the literal at the front. -/
def ofFront? (text : List Char) : Option (Literal × List Char) :=
  quotedLiteral? text <|> real? text <|> integer? text

end Literal

/-- The characters that a text stands for. A suffix is no part of them. -/
def TextLiteral.value (literal : TextLiteral) : String :=
  ((Literal.text? literal.written.toList).map fun (chars, _) => String.ofList chars).getD ""

/-- The number that an integer stands for. -/
def IntegerLiteral.value (literal : IntegerLiteral) : Nat :=
  ((Literal.integerDigits? literal.written.toList).map fun (value, _) => value).getD 0

end RecordMapper.Derive
