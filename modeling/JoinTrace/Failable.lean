import JoinTrace.Text.Decimal

namespace JoinTrace

-- Why a value is expectedly absent. Malformed input is no such thing: see `AnalysisError`.
structure Failure where
  reason : String
  deriving DecidableEq

def Failure.context (failure : Failure) (place : String) : Failure :=
  ⟨place ++ ": " ++ failure.reason⟩

def Failure.text (failure : Failure) : String := "error: " ++ failure.reason

abbrev Failable (α : Type) := Except Failure α

instance exceptDecidableEq {ε τ : Type} [DecidableEq ε] [DecidableEq τ] :
    DecidableEq (Except ε τ)
  | .ok left,.ok right => decidable_of_iff (left = right) ⟨congrArg _,Except.ok.inj⟩
  | .error left,.error right => decidable_of_iff (left = right) ⟨congrArg _,Except.error.inj⟩
  | .ok _,.error _ => isFalse nofun
  | .error _,.ok _ => isFalse nofun

def fail {α : Type} (reason : String) : Failable α := .error ⟨reason⟩

namespace Failable
variable {α : Type}

def context (place : String) (value : Failable α) : Failable α := value.mapError (·.context place)

def all (values : List (Failable α)) : Failable (List α) := values.mapM id

def text (shown : α → String) : Failable α → String
  | .ok value => shown value
  | .error failure => failure.text

end Failable

inductive MetricValue (α : Type) where
  | bool (value : Bool)
  | int (value : Int)
  | float (value : α)
  deriving DecidableEq

namespace MetricValue

def toScalar {α : Type} [Scalar α] : MetricValue α → α
  | .bool value => if value then Scalar.ofNat 1 else Scalar.ofNat 0
  | .int value => Scalar.ofInt value
  | .float value => value

def text : MetricValue Float → String
  | .bool value => if value then "true" else "false"
  | .int value => toString value
  | .float value => Binary64.text value

end MetricValue
end JoinTrace
