import RecordMapper.Json.Basic
import RecordMapper.Number.Numeral
/-!
Reading JSON numbers. An integer literal within 64 bits stays an integer. Every other literal is a
float: its leading digits as far as they fit 64 bits, times or divided by a power of ten, each step
rounded. A literal beyond the range of floats is refused.
-/

namespace RecordMapper

namespace Binary64

/-- The product of two finite numbers, rounded. -/
def mul (x y : Binary64) : Binary64 :=
  match x.datum, y.datum with
  | .finite s m e, .finite t n f =>
    ⟨UInt64.ofNat (BinaryFormat.double.nearest (s != t) (scaleUp (m * n) (e + f))
      (scaleUp 1 (-(e + f))))⟩
  | _, _ => nan

/-- The quotient of two finite numbers, the second one not zero, rounded. -/
def div (x y : Binary64) : Binary64 :=
  match x.datum, y.datum with
  | .finite s m e, .finite t n f =>
    ⟨UInt64.ofNat (BinaryFormat.double.nearest (s != t) (scaleUp m (e - f))
      (scaleUp n (f - e)))⟩
  | _, _ => nan

def neg (x : Binary64) : Binary64 := ⟨x.word ^^^ 0x8000000000000000⟩

/-- The number nearest to a power of ten. -/
def tenPower (k : Nat) : Binary64 := ofDecimal false 1 k

end Binary64

namespace Json

open Numeral

/-- The parts of a number literal. `exponent` is none where the literal has no exponent part. -/
structure NumberLiteral where
  negative : Bool
  integral : List Char
  fraction : List Char
  exponent : Option Int
  deriving Repr

/-- Reads on while the number fits 64 bits. Also counts the digits that were read. -/
def fittingDigits (acc count : Nat) : List Char → Nat × Nat
  | [] => (acc, count)
  | c :: rest =>
    let next := acc * 10 + (digit? c).getD 0
    if next ≤ 18446744073709551615 then fittingDigits next (count + 1) rest else (acc, count)

/-- Divides by powers of ten up to `10 ^ 308` until the exponent is used up or nothing is left. -/
def scaleDown : Nat → Binary64 → Nat → Binary64
  | 0, x, _ => x
  | fuel + 1, x, k =>
    if k ≤ 308 then x.div (.tenPower k)
    else if x.datum.isZero then x
    else scaleDown fuel (x.div (.tenPower 308)) (k - 308)

/-- `n * 10 ^ e` in rounded steps. -/
def scaled? (n : Nat) (e : Int) : Option Binary64 :=
  let x := Binary64.ofInt n
  if e < 0 then some (scaleDown (e.natAbs / 308 + 1) x e.natAbs)
  else if 308 < e then if n = 0 then some x else none
  else
    let y := x.mul (.tenPower e.toNat)
    if y.datum.isFinite then some y else none

namespace NumberLiteral

/-- The float that a literal stands for. An exponent of more than 31 bits decides alone. -/
def float? (l : NumberLiteral) : Option Binary64 :=
  let (head, read) := fittingDigits 0 0 l.integral
  let (n, readMore) := fittingDigits head 0 l.fraction
  let e := (l.integral.length - read : Int) - readMore
  let x? :=
    match l.exponent with
    | none => scaled? n e
    | some f =>
      if f.natAbs ≤ 2147483647 then
        scaled? n (max (-2147483648) (min 2147483647 (e + f)))
      else if n ≠ 0 ∧ 0 < f then none
      else some .zero
  x?.map fun x => if l.negative then x.neg else x

def value? (l : NumberLiteral) : Option Json :=
  if l.fraction.isEmpty && l.exponent.isNone then
    let n := digitsValue 0 l.integral
    if l.negative then
      if n = 0 then some (.float (Binary64.zero.neg))
      else if n ≤ 9223372036854775808 then some (.integer (-n))
      else l.float?.map .float
    else if n ≤ 18446744073709551615 then some (.integer n)
    else l.float?.map .float
  else l.float?.map .float

end NumberLiteral

/-- Digits of an integer part: a zero alone, or digits that do not start with one. -/
def integralPart? (text : List Char) : Option (List Char × List Char) :=
  match text.takeWhile isDigit with
  | [] => none
  | '0' :: _ :: _ => none
  | digits => some (digits, text.dropWhile isDigit)

/-- A point with one or more digits, or nothing. -/
def fractionPart? : List Char → Option (List Char × List Char)
  | '.' :: text =>
    match text.takeWhile isDigit with
    | [] => none
    | digits => some (digits, text.dropWhile isDigit)
  | text => some ([], text)

/-- The sign of an exponent, which may be absent. -/
def exponentSign : List Char → Bool × List Char
  | '-' :: text => (true, text)
  | '+' :: text => (false, text)
  | text => (false, text)

/-- An exponent mark with an optional sign and one or more digits, or nothing. -/
def exponentPart? : List Char → Option (Option Int × List Char)
  | [] => some (none, [])
  | mark :: text =>
    if mark = 'e' ∨ mark = 'E' then
      let (negative, digits) := exponentSign text
      match natural? (digits.takeWhile isDigit) with
      | some n => some (some (if negative then -(n : Int) else n), digits.dropWhile isDigit)
      | none => none
    else some (none, mark :: text)

def numberLiteral? (negative : Bool) (text : List Char) :
    Option (NumberLiteral × List Char) := do
  let (integral, rest) ← integralPart? text
  let (fraction, rest) ← fractionPart? rest
  let (exponent, rest) ← exponentPart? rest
  return (⟨negative, integral, fraction, exponent⟩, rest)

/-- Reads a number at the start of a text. -/
def number? (text : List Char) : Option (Json × List Char) := do
  let (literal, rest) ←
    match text with
    | '-' :: text => numberLiteral? true text
    | text => numberLiteral? false text
  return (← literal.value?, rest)

end Json

end RecordMapper
