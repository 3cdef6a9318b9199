import JoinTrace.Failable
import JoinTrace.Named

namespace JoinTrace

-- Summaries of a list of numbers. Too few values are a failure, never a NaN; only the sum has a
-- natural value for none.
namespace Aggregate
variable {α : Type} [Scalar α]

def noValues : String := "no values"

def mean (values : List α) : Failable α :=
  if values.isEmpty then fail noValues
  else .ok (Scalar.sum values / Scalar.ofNat values.length)

def max : List α → Failable α
  | [] => fail noValues
  | first :: rest => .ok (rest.foldl Scalar.max first)

def min : List α → Failable α
  | [] => fail noValues
  | first :: rest => .ok (rest.foldl Scalar.min first)

def variance (values : List α) : Failable α :=
  if values.length < 2 then fail "not enough values for stdev"
  else
    match mean values with
    | .error failure => .error failure
    | .ok centre =>
      .ok (Scalar.sum (values.map fun v => (v - centre) * (v - centre)) /
        Scalar.ofNat (values.length-1))

def stdev (values : List α) : Failable α := (variance values).map Scalar.sqrt

def rank (length : Nat) (percent : α) : α :=
  Scalar.ofNat (length-1) * (percent / Scalar.ofNat 100)

-- Percents are from 0 to 100. Only a larger one asks for a place that the list does not have: a
-- mistake of the caller's, without a result, that is listed here with the failure of an empty list.
def percentile (values : List α) (percent : α) : Failable α :=
  let sorted := Scalar.sorted values
  let place := rank sorted.length percent
  let lower := Scalar.floor place
  let part := place - Scalar.ofNat lower
  match sorted[lower]?,sorted[Scalar.ceil place]? with
  | some below,some above => .ok (below * (Scalar.ofNat 1 - part) + above * part)
  | _,_ => fail noValues

def median (values : List α) : Failable α :=
  let sorted := Scalar.sorted values
  let middle := sorted.length/2
  if sorted.length % 2 = 1 then
    match sorted[middle]? with
    | some value => .ok value
    | none => fail noValues
  else
    match sorted[middle-1]?,sorted[middle]? with
    | some below,some above => .ok ((below+above) / Scalar.ofNat 2)
    | _,_ => fail noValues

end Aggregate

inductive AggregateFn where
  | mean | max | min | sum | p95 | stdev
  deriving DecidableEq

namespace AggregateFn

def all : List AggregateFn := [.mean, .max, .min, .sum, .p95, .stdev]

def name : AggregateFn → String
  | .mean => "Mean"
  | .max => "Max"
  | .min => "Min"
  | .sum => "Sum"
  | .p95 => "95P"
  | .stdev => "Stdev"

def apply {α : Type} [Scalar α] (aggregate : AggregateFn) (values : List α) : Failable α :=
  match aggregate with
  | .mean => Aggregate.mean values
  | .max => Aggregate.max values
  | .min => Aggregate.min values
  | .sum => .ok (Scalar.sum values)
  | .p95 => Aggregate.percentile values (Scalar.ofNat 95)
  | .stdev => Aggregate.stdev values

end AggregateFn

instance : Named AggregateFn := ⟨AggregateFn.all,AggregateFn.name⟩

end JoinTrace
