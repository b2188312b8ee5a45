import RecordMapper.Number.Binary
/-!
The shortest decimal that reads back as a given binary number: the coarsest power-of-ten grid with
a point in the interval of reals that round to the number, and on it the point nearest to the
number.
-/

namespace RecordMapper

/-- Where an exact tie between two shortest decimals goes. -/
inductive TieRule
  | even
  | up
  deriving DecidableEq, Repr

/-- The positive number `digits * 10 ^ exponent`. -/
structure Decimal where
  digits : Nat
  exponent : Int
  deriving DecidableEq, Repr

/-- The fraction `num / den` and the reals around it that round to it, as `low / den` and
`high / den`, which belong to the interval when `closed`. -/
structure RoundingInterval where
  num : Nat
  den : Nat
  low : Nat
  high : Nat
  closed : Bool
  deriving Repr

namespace RoundingInterval

/-- The interval of `m * 2 ^ e`. The gap below a power of two is half the gap above it, unless the
power is the least of its format. -/
def ofBinary (f : BinaryFormat) (m : Nat) (e : Int) : RoundingInterval :=
  let below := if m = f.fractionCount ∧ f.leastExponent < e then 1 else 2
  let up := scaleUp 1 (e - 2)
  { num := 4 * m * up
    den := scaleUp 1 (2 - e)
    low := (4 * m - below) * up
    high := (4 * m + 2) * up
    closed := m % 2 = 0 }

/-- Whether `c * 10 ^ k` rounds to the number. -/
def contains (r : RoundingInterval) (c : Nat) (k : Int) : Bool :=
  let x := c * Nat.pow 10 k.toNat * r.den
  let unit := Nat.pow 10 (-k).toNat
  if r.closed then r.low * unit ≤ x && x ≤ r.high * unit
  else r.low * unit < x && x < r.high * unit

/-- The nearest point of the grid `10 ^ k` in the interval: one of the two neighbours of the
number. -/
def onGrid? (tie : TieRule) (r : RoundingInterval) (k : Int) : Option Nat :=
  let x := r.num * Nat.pow 10 (-k).toNat
  let unit := r.den * Nat.pow 10 k.toNat
  let c := x / unit
  match r.contains c k, r.contains (c + 1) k with
  | true, false => some c
  | false, true => some (c + 1)
  | false, false => none
  | true, true =>
    let rest := 2 * (x % unit)
    if rest < unit then some c
    else if unit < rest then some (c + 1)
    else
      match tie with
      | .up => some (c + 1)
      | .even => some (if c % 2 = 0 then c else c + 1)

/-- Tries the grids from `10 ^ k` to finer ones. -/
def shortestFrom (tie : TieRule) (r : RoundingInterval) : Nat → Int → Option Decimal
  | 0, _ => none
  | fuel + 1, k =>
    match r.onGrid? tie k with
    | some c => some ⟨c, k⟩
    | none => r.shortestFrom tie fuel (k - 1)

end RoundingInterval

namespace BinaryFormat

/-- A power of ten that the number `m * 2 ^ e` does not reach. -/
def ceilingExponent (m : Nat) (e : Int) : Int := ((m.log2 : Int) + 1 + e) * 1233 / 4096 + 2

/-- The shortest decimal of `m * 2 ^ e`, which is not zero. -/
def shortest (f : BinaryFormat) (tie : TieRule) (m : Nat) (e : Int) : Decimal :=
  ((RoundingInterval.ofBinary f m e).shortestFrom tie 24 (ceilingExponent m e)).getD ⟨m, e⟩

end BinaryFormat

end RecordMapper
