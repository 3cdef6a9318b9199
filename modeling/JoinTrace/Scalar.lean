namespace JoinTrace

-- Timestamps and durations are read through this interface only, so one definition of the
-- analysis serves binary64 (the running program) and exact numbers (its algebra).
-- Order tests are Boolean: on binary64 they all fail against a NaN, which `sortsBefore` alone
-- places, and `emptySum` is the negative zero that adds nothing to any first term.
class Scalar (α : Type) extends Add α, Sub α, Mul α, Div α where
  ofNat : Nat → α
  abs : α → α
  sqrt : α → α
  lt : α → α → Bool
  le : α → α → Bool
  eq : α → α → Bool
  sortsBefore : α → α → Bool
  emptySum : α
  floor : α → Nat

namespace Scalar
variable {α : Type} [Scalar α]

def isNaN (x : α) : Bool := !eq x x

def max (x y : α) : α := if lt x y || isNaN x then y else x
def min (x y : α) : α := if lt y x || isNaN x then y else x

def ceil (x : α) : Nat :=
  let below := floor x
  if lt (ofNat below) x then below+1 else below

def ofInt : Int → α
  | .ofNat n => ofNat n
  | .negSucc n => ofNat 0 - ofNat (n+1)

-- Left to right, so the rounding of a binary64 sum is that of the listed order.
def sum (values : List α) : α := values.foldl (· + ·) emptySum

def sorted (values : List α) : List α := values.mergeSort sortsBefore

end Scalar

namespace Binary64

-- Bit patterns in numeric order: negative numbers count down from the negative zero at -1.
-- There is one NaN here, above infinity. Where a difference of infinities has its sign set, as some
-- machines make it, a total order of bit patterns puts it below all numbers instead.
def totalKey (x : Float) : Int :=
  let bits := x.toBits.toNat
  if bits < Nat.pow 2 63 then bits else (Nat.pow 2 63 : Int) - 1 - bits

instance : Scalar Float where
  ofNat := Float.ofNat
  abs := Float.abs
  sqrt := Float.sqrt
  lt := Float.lt
  le := Float.le
  eq := Float.beq
  sortsBefore x y := totalKey x ≤ totalKey y
  emptySum := -0.0
  floor x := x.toUInt64.toNat

end Binary64
end JoinTrace
