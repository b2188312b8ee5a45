import RecordMapper.Number.Shortest
/-!
How the digits of a float are laid out as text: always positional in plain text, and with an
exponent for large and small numbers in JSON.
-/

namespace RecordMapper

/-- The decisions of one float notation. A number whose leading digit stands for `10 ^ x` is
positional when `x` lies in `positional`. -/
structure FloatLayout where
  tie : TieRule
  positional : Int → Bool
  /-- Written after an integral positional number. -/
  integralMark : String

namespace FloatLayout

/-- Plain text: never an exponent, and nothing after an integral number. -/
def plain : FloatLayout := ⟨.up, fun _ => true, ""⟩

/-- JSON text: positional from `10 ^ -5` below `10 ^ 16`, with a fraction in every such number. -/
def json : FloatLayout := ⟨.even, fun x => -5 ≤ x && x ≤ 15, ".0"⟩

def zeros (n : Nat) : List Char := List.replicate n '0'

/-- Digits with the point after the first `point` of them. -/
def placePoint (integralMark : String) (digits : List Char) (point : Int) : List Char :=
  if point ≤ 0 then '0' :: '.' :: zeros (-point).toNat ++ digits
  else if digits.length ≤ point then
    digits ++ zeros (point.toNat - digits.length) ++ integralMark.toList
  else digits.take point.toNat ++ '.' :: digits.drop point.toNat

/-- One digit before the point and a signed exponent. -/
def scientific (digits : List Char) (x : Int) : List Char :=
  let mantissa :=
    match digits with
    | [] => []
    | [d] => [d]
    | d :: rest => d :: '.' :: rest
  mantissa ++ 'e' :: (if x < 0 then '-' else '+') :: Nat.toDigits 10 x.natAbs

def magnitude (layout : FloatLayout) (d : Decimal) : List Char :=
  let digits := Nat.toDigits 10 d.digits
  let point := d.exponent + digits.length
  if layout.positional (point - 1) then placePoint layout.integralMark digits point
  else scientific digits (point - 1)

/-- The text of a finite number. -/
def finite (layout : FloatLayout) (f : BinaryFormat) (negative : Bool) (m : Nat) (e : Int) :
    String :=
  let sign := if negative then ['-'] else []
  let body :=
    if m = 0 then '0' :: layout.integralMark.toList
    else layout.magnitude (f.shortest layout.tie m e)
  String.ofList (sign ++ body)

end FloatLayout

/-- The plain text of what a word denotes. -/
def Datum.plainText (f : BinaryFormat) : Datum → String
  | .nan => "NaN"
  | .infinite false => "inf"
  | .infinite true => "-inf"
  | .finite negative m e => FloatLayout.plain.finite f negative m e

def Binary32.plainText (x : Binary32) : String := x.datum.plainText .single

def Binary64.plainText (x : Binary64) : String := x.datum.plainText .double

/-- The JSON text of a float. JSON has no word for what is not finite. -/
def Binary64.jsonText (x : Binary64) : String :=
  match x.datum with
  | .finite negative m e => FloatLayout.json.finite .double negative m e
  | _ => "null"

end RecordMapper
