import JoinTrace.Scalar

namespace JoinTrace

structure Decimal where
  digits : Nat
  exponent : Int
  deriving DecidableEq

namespace Decimal

def text (number : Decimal) : String :=
  match number.exponent with
  | .ofNat zeros => toString number.digits ++ "".pushn '0' zeros
  | .negSucc last =>
    let places := last+1
    let written := toString number.digits
    let padded := "".pushn '0' (places+1 - written.length) ++ written
    let whole := padded.length - places
    String.ofList (padded.toList.take whole) ++ "." ++ String.ofList (padded.toList.drop whole)

-- The nearest binary64 number, a tie going to the even neighbour. Numbers far outside the range
-- are settled first, so no power of ten beyond it is ever computed.
def toFloat (number : Decimal) : Float :=
  if number.digits = 0 then 0.0
  else if number.exponent > 400 then Float.ofBits 0x7FF0000000000000
  else if (number.digits.log2 : Int) * 30103 / 100000 + 1 + number.exponent < -400 then 0.0
  else Float.ofScientific number.digits (number.exponent < 0) number.exponent.natAbs

end Decimal

namespace Binary64

-- A finite number is `mantissa · 2 ^ exponent`, its sign aside.
structure Magnitude where
  mantissa : Nat
  exponent : Int
  deriving DecidableEq

def magnitude (x : Float) : Magnitude :=
  let bits := x.toBits.toNat
  let field : Nat := bits / Nat.pow 2 52 % Nat.pow 2 11
  let fraction := bits % Nat.pow 2 52
  if field = 0 then ⟨fraction,-1074⟩ else ⟨Nat.pow 2 52 + fraction,(field : Int) - 1075⟩

def isNegative (x : Float) : Bool := x.toBits.toNat ≥ Nat.pow 2 63

-- The numbers that round to one binary64 number, over a common denominator. The ends themselves
-- belong to it when the mantissa is even.
structure Basin where
  low : Nat
  centre : Nat
  high : Nat
  denominator : Nat
  closed : Bool

def basin (size : Magnitude) : Basin :=
  let shift := size.exponent - 2
  let unit := Nat.pow 2 shift.toNat
  let below := if size.mantissa = Nat.pow 2 52 ∧ size.exponent > -1074 then 1 else 2
  ⟨(4*size.mantissa - below)*unit,4*size.mantissa*unit,(4*size.mantissa + 2)*unit,
    Nat.pow 2 (-shift).toNat,size.mantissa % 2 = 0⟩

-- The neighbours of the centre on the grid of step `10 ^ exponent`, if one of them lies in the
-- basin: the nearer of two, the upper at equal distance.
def Basin.onGrid (b : Basin) (exponent : Int) : Option Decimal :=
  let scale := Nat.pow 10 (-exponent).toNat
  let step := b.denominator * Nat.pow 10 exponent.toNat
  let inside (n : Nat) : Bool :=
    if b.closed then b.low*scale ≤ n*step && n*step ≤ b.high*scale
    else b.low*scale < n*step && n*step < b.high*scale
  let lower := b.centre*scale / step
  let upper := lower+1
  if inside lower then
    if inside upper && (2*lower+1)*step ≤ 2*b.centre*scale then some ⟨upper,exponent⟩
    else some ⟨lower,exponent⟩
  else if inside upper then some ⟨upper,exponent⟩
  else none

-- The fewest digits that read back. Grids are tried from one coarser than the number itself
-- downwards; seventeen digits always suffice.
def shortest (size : Magnitude) : Decimal :=
  let b := basin size
  let top := ((b.centre.log2 : Int) - b.denominator.log2 + 1) * 30103 / 100000 + 2
  ((List.range 22).findSome? fun i => b.onGrid (top - (i : Nat))).getD ⟨0,0⟩

def text (x : Float) : String :=
  if x.isNaN then "NaN"
  else
    let size := if x.isInf then "inf" else if x == 0 then "0" else (shortest (magnitude x)).text
    if isNegative x then "-" ++ size else size

end Binary64

namespace Numeral

def digitValue? (base : Nat) (c : Char) : Option Nat :=
  let value? :=
    if c.isDigit then some (c.toNat - '0'.toNat)
    else if 'a' ≤ c ∧ c ≤ 'f' then some (c.toNat - 'a'.toNat + 10)
    else if 'A' ≤ c ∧ c ≤ 'F' then some (c.toNat - 'A'.toNat + 10)
    else none
  value?.filter (· < base)

def isDigitOf (base : Nat) (c : Char) : Bool := (digitValue? base c).isSome

def value (base : Nat) (digits : List Char) : Nat :=
  digits.foldl (fun total c => total*base + (digitValue? base c).getD 0) 0

def decimal (whole fraction : List Char) (exponent : Int) : Decimal :=
  ⟨value 10 (whole ++ fraction),exponent - fraction.length⟩

def signed (negative : Bool) (size : Float) : Float := if negative then -size else size

end Numeral
end JoinTrace
