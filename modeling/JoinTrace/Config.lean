import JoinTrace.Named
import JoinTrace.Stage
import JoinTrace.Scalar

namespace JoinTrace

-- What becomes of a join whose end is not in the trace. Collectors routinely stop tracing inside
-- the closing `done` join; a lost event looks the same when it was the last of its heap.
inductive TrailingPolicy where
  | doneOnly | any | strict
  deriving DecidableEq

namespace TrailingPolicy

def all : List TrailingPolicy := [.doneOnly, .any, .strict]

def name : TrailingPolicy → String
  | .doneOnly => "done_only"
  | .any => "any"
  | .strict => "strict"

def tolerates (policy : TrailingPolicy) (stage : Stage) : Bool :=
  match policy with
  | .doneOnly => stage == .done
  | .any => true
  | .strict => false

end TrailingPolicy

instance : Named TrailingPolicy := ⟨TrailingPolicy.all,TrailingPolicy.name⟩

structure Config (α : Type) where
  policy : TrailingPolicy
  relativeTolerance : α
  absoluteTolerance : α
  deriving DecidableEq

namespace Config
variable {α : Type} [Scalar α]

def standard : Config α :=
  ⟨.doneOnly,Scalar.ofNat 1 / Scalar.ofNat 1000000000,Scalar.ofNat 1 / Scalar.ofNat 1000000⟩

def clocksAgree (config : Config α) (a b : α) : Bool :=
  let apart := Scalar.abs (a - b)
  Scalar.le apart config.absoluteTolerance ||
    Scalar.le apart (config.relativeTolerance * Scalar.max (Scalar.abs a) (Scalar.abs b))

end Config

namespace Logging

def standardFilter : String := "gcjoin=info"

def filter (verbose : Bool) : String := if verbose then "gcjoin=debug" else standardFilter

end Logging
end JoinTrace
