/-!
Binary floating-point numbers as bit words with an exact meaning. A format fixes the width of the
significand and of the exponent. Arithmetic is exact on the meaning and rounds once, to the
nearest number of the format, ties to the even significand.
-/

namespace RecordMapper

/-- What a word of a binary format denotes: `significand * 2 ^ exponent` when finite. -/
inductive Datum
  | nan
  | infinite (negative : Bool)
  | finite (negative : Bool) (significand : Nat) (exponent : Int)
  deriving DecidableEq, Repr

namespace Datum

def isFinite : Datum → Bool
  | finite .. => true
  | _ => false

def isZero : Datum → Bool
  | finite _ 0 _ => true
  | _ => false

/-- The integer that a finite number equals, if it has no fraction. -/
def integer? : Datum → Option Int
  | finite negative m e =>
    let magnitude : Option Nat :=
      if 0 ≤ e then some (m * Nat.pow 2 e.toNat)
      else if m % Nat.pow 2 (-e).toNat = 0 then some (m / Nat.pow 2 (-e).toNat)
      else none
    magnitude.map fun (n : Nat) => if negative then -(n : Int) else (n : Int)
  | _ => none

end Datum

/-- The quotient rounded to the nearest integer, ties to even. -/
def roundQuotient (num den : Nat) : Nat :=
  let q := num / den
  let r := num % den
  if 2 * r < den then q
  else if den < 2 * r then q + 1
  else if q % 2 = 0 then q
  else q + 1

/-- The numerator of a fraction scaled by a power of two. -/
def scaleUp (n : Nat) (e : Int) : Nat := n * Nat.pow 2 e.toNat

/-- Widths of the significand, its leading bit included, and of the exponent. -/
structure BinaryFormat where
  precision : Nat
  exponentWidth : Nat
  deriving DecidableEq, Repr

namespace BinaryFormat

def single : BinaryFormat := ⟨24, 8⟩

def double : BinaryFormat := ⟨53, 11⟩

variable (f : BinaryFormat)

/-- The number of words that share a sign and an exponent. -/
def fractionCount : Nat := Nat.pow 2 (f.precision - 1)

def exponentCount : Nat := Nat.pow 2 f.exponentWidth

def signPlace : Nat := f.exponentCount * f.fractionCount

/-- The exponent of the last place of the smallest numbers. -/
def leastExponent : Int := 3 - (Nat.pow 2 (f.exponentWidth - 1) : Nat) - f.precision

def infinityWord : Nat := (f.exponentCount - 1) * f.fractionCount

def nanWord : Nat := f.infinityWord + f.fractionCount / 2

def datum (word : Nat) : Datum :=
  let negative := f.signPlace ≤ word
  let field := word % f.signPlace / f.fractionCount
  let fraction := word % f.fractionCount
  if field = f.exponentCount - 1 then
    if fraction = 0 then .infinite negative else .nan
  else if field = 0 then .finite negative fraction f.leastExponent
  else .finite negative (f.fractionCount + fraction) (f.leastExponent + field - 1)

def withSign (negative : Bool) (magnitude : Nat) : Nat :=
  if negative then f.signPlace + magnitude else magnitude

/-- The exponent of the leading bit of a positive fraction. -/
def leadingExponent (num den : Nat) : Int :=
  let e : Int := (num.log2 : Int) - den.log2
  if scaleUp den e ≤ scaleUp num (-e) then e else e - 1

/-- The word nearest to `num / den`. A fraction beyond the largest number becomes infinity. -/
def nearest (negative : Bool) (num den : Nat) : Nat :=
  if num = 0 then f.withSign negative 0
  else
    let e := max (leadingExponent num den - (f.precision - 1)) f.leastExponent
    let significand := roundQuotient (scaleUp num (-e)) (scaleUp den e)
    let magnitude := (e - f.leastExponent).toNat * f.fractionCount + significand
    f.withSign negative (min magnitude f.infinityWord)

/-- The word nearest to a datum of any format. -/
def ofDatum : Datum → Nat
  | .nan => f.nanWord
  | .infinite negative => f.withSign negative f.infinityWord
  | .finite negative m e => f.nearest negative (scaleUp m e) (scaleUp 1 (-e))

def ofInt (i : Int) : Nat := f.nearest (i < 0) i.natAbs 1

/-- The word nearest to `n * 10 ^ e`. Powers beyond the range of the format are not computed. -/
def ofDecimal (negative : Bool) (n : Nat) (e : Int) : Nat :=
  let places := (Nat.toDigits 10 n).length
  if n = 0 then f.withSign negative 0
  else if 400 < e + places then f.withSign negative f.infinityWord
  else if e + places < -400 then f.withSign negative 0
  else f.nearest negative (n * Nat.pow 10 e.toNat) (Nat.pow 10 (-e).toNat)

end BinaryFormat

/-- A 32-bit float, kept as its word. -/
structure Binary32 where
  word : UInt32
  deriving DecidableEq, Repr

/-- A 64-bit float, kept as its word. -/
structure Binary64 where
  word : UInt64
  deriving DecidableEq, Repr

namespace Binary32

def datum (x : Binary32) : Datum := BinaryFormat.single.datum x.word.toNat

def zero : Binary32 := ⟨0⟩

/-- Equality of numbers: a NaN equals nothing and the two zeros are equal. -/
def numEq (x y : Binary32) : Bool :=
  match x.datum, y.datum with
  | .nan, _ => false
  | _, .nan => false
  | dx, dy => x == y || (dx.isZero && dy.isZero)

def widen (x : Binary32) : Binary64 := ⟨UInt64.ofNat (BinaryFormat.double.ofDatum x.datum)⟩

end Binary32

namespace Binary64

def datum (x : Binary64) : Datum := BinaryFormat.double.datum x.word.toNat

def zero : Binary64 := ⟨0⟩

/-- Equality of numbers: a NaN equals nothing and the two zeros are equal. -/
def numEq (x y : Binary64) : Bool :=
  match x.datum, y.datum with
  | .nan, _ => false
  | _, .nan => false
  | dx, dy => x == y || (dx.isZero && dy.isZero)

def ofInt (i : Int) : Binary64 := ⟨UInt64.ofNat (BinaryFormat.double.ofInt i)⟩

def ofDecimal (negative : Bool) (n : Nat) (e : Int) : Binary64 :=
  ⟨UInt64.ofNat (BinaryFormat.double.ofDecimal negative n e)⟩

def nan : Binary64 := ⟨UInt64.ofNat BinaryFormat.double.nanWord⟩

def infinity (negative : Bool) : Binary64 :=
  ⟨UInt64.ofNat (BinaryFormat.double.withSign negative BinaryFormat.double.infinityWord)⟩

/-- The nearest 32-bit number. Refuses what is not finite, what would become infinite, and what
would become zero without being zero. -/
def narrow? (x : Binary64) : Option Binary32 :=
  if x.datum.isFinite then
    let y : Binary32 := ⟨UInt32.ofNat (BinaryFormat.single.ofDatum x.datum)⟩
    if y.datum.isFinite && (x.datum.isZero || !y.datum.isZero) then some y else none
  else none

end Binary64

end RecordMapper
