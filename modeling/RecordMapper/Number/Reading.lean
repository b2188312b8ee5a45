import RecordMapper.Number.Binary
import RecordMapper.Number.Numeral
/-!
Reading a float from plain text: an optional sign, then the name of a special value in any case, or
digits with an optional point and an optional exponent.
-/

namespace RecordMapper

open Numeral

/-- A decimal numeral: `integral` and `fraction` digits and a power of ten. -/
structure FloatNumeral where
  negative : Bool
  integral : List Char
  fraction : List Char
  exponent : Int
  deriving Repr

namespace FloatNumeral

def value (n : FloatNumeral) : Binary64 :=
  Binary64.ofDecimal n.negative (digitsValue 0 (n.integral ++ n.fraction))
    (n.exponent - n.fraction.length)

/-- Reads an exponent part, which may be absent. -/
def exponent? : List Char → Option Int
  | [] => some 0
  | mark :: rest => if mark = 'e' ∨ mark = 'E' then integer? rest else none

/-- Reads a numeral without its sign. At least one digit stands beside the point. -/
def unsigned? (negative : Bool) (text : List Char) : Option FloatNumeral :=
  let integral := text.takeWhile isDigit
  let rest := text.dropWhile isDigit
  let (fraction, rest) :=
    match rest with
    | '.' :: rest => (rest.takeWhile isDigit, rest.dropWhile isDigit)
    | rest => ([], rest)
  if integral.isEmpty && fraction.isEmpty then none
  else (exponent? rest).map fun e => ⟨negative, integral, fraction, e⟩

end FloatNumeral

namespace Binary64

/-- Reads a magnitude: a special name in any ASCII case, or a numeral. -/
def ofMagnitude? (negative : Bool) (text : List Char) : Option Binary64 :=
  let name := text.map Char.toLower
  if name = "inf".toList ∨ name = "infinity".toList then some (infinity negative)
  else if name = "nan".toList then some nan
  else (FloatNumeral.unsigned? negative text).map FloatNumeral.value

/-- Reads a float that fills the text. Too large a number is infinite. -/
def ofText? : List Char → Option Binary64
  | '-' :: text => ofMagnitude? true text
  | '+' :: text => ofMagnitude? false text
  | text => ofMagnitude? false text

end Binary64

end RecordMapper
