import JoinTrace.Aggregate

namespace JoinTrace

-- A getter sees the container, the whole (possibly filtered) list and a place in it.
abbrev ElementGetter (C E V : Type) := C → (elements : List E) → Fin elements.length → Failable V

inductive Measurement (α C E : Type) where
  | bool (get : ElementGetter C E Bool)
  | float (get : ElementGetter C E α)

structure ElementMetric (α C E : Type) where
  name : String
  measurement : Measurement α C E

inductive MetricKind where
  | bool | float
  deriving DecidableEq

def MetricKind.name : MetricKind → String
  | .bool => "bool"
  | .float => "float"

def ElementMetric.kind {α C E : Type} (metric : ElementMetric α C E) : MetricKind :=
  match metric.measurement with
  | .bool _ => .bool
  | .float _ => .float

structure Filter (C E : Type) where
  name : String
  elements : C → Failable (List E)

structure SpecialAggregate (α C E : Type) where
  name : String
  evaluate : C → List E → Failable (MetricValue α)

inductive AggregateFamily where
  | count
  | pct
  | float (aggregate : AggregateFn)
  | special
  deriving DecidableEq

structure AggregateMetric where
  name : String
  family : AggregateFamily
  elementMetric : Option String
  filter : String
  isAggregate : Bool
  deriving DecidableEq

def ElementGetter.values {C E V : Type} (get : ElementGetter C E V) (container : C)
    (elements : List E) : Failable (List V) :=
  (List.finRange elements.length).mapM (get container elements)

namespace Measurement
variable {α C E : Type}

def count (get : ElementGetter C E Bool) (container : C) (elements : List E) : Failable Nat := do
  return (← get.values container elements).count true

variable [Scalar α]

def countOf (filter : Filter C E) (get : ElementGetter C E Bool) (container : C) :
    Failable (MetricValue α) := do
  let elements ← filter.elements container
  return .int (← count get container elements)

def pctOf (filter : Filter C E) (get : ElementGetter C E Bool) (container : C) :
    Failable (MetricValue α) := do
  let elements ← filter.elements container
  if elements.isEmpty then fail "can't get pct with no elements"
  else
    let counted ← count get container elements
    return .float (Scalar.ofNat 100 * Scalar.ofNat counted / Scalar.ofNat elements.length)

def floatOf (filter : Filter C E) (get : ElementGetter C E α) (aggregate : AggregateFn)
    (container : C) : Failable (MetricValue α) := do
  let elements ← filter.elements container
  return .float (← aggregate.apply (← get.values container elements))

def specialOf (filter : Filter C E) (special : SpecialAggregate α C E) (container : C) :
    Failable (MetricValue α) := do
  special.evaluate container (← filter.elements container)

def elementsWhere (all : C → Failable (List E)) (get : ElementGetter C E Bool) (container : C) :
    Failable (List E) := do
  let elements ← all container
  let flags ← get.values container elements
  return ((elements.zip flags).filter (·.2)).map (·.1)

end Measurement
end JoinTrace
