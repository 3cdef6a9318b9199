import JoinTrace.Event
import JoinTrace.Phase
import JoinTrace.Text.Decimal
import JoinTrace.Text.Quoted

namespace JoinTrace

inductive Imbalance where
  | initialWithoutEnd
  | initialNotEnded (kind : JoinKind) (edge : Edge)
  | strayOpening (kind : JoinKind) (edge : Edge) (stage : Stage)
  | noRestartStart (kind : JoinKind) (edge : Edge) (stage : Stage)
  | noRestartEnd (kind : JoinKind) (edge : Edge) (stage : Stage)
  | noJoinEnd (expected : Stage) (kind : JoinKind) (edge : Edge) (stage : Stage)
  | restartAsJoin
  | strayEnd (kind : JoinKind) (stage : Stage)
  deriving DecidableEq

namespace Imbalance

def seen (kind : JoinKind) (edge : Edge) : String := kind.label ++ " " ++ edge.label
def seenOf (kind : JoinKind) (edge : Edge) (stage : Stage) : String :=
  seen kind edge ++ " of " ++ stage.label

def message : Imbalance → String
  | .initialWithoutEnd => "generation_determined join start without an end"
  | .initialNotEnded kind edge => "expected generation_determined join end, found " ++ seen kind edge
  | .strayOpening kind edge stage => "trace starts with " ++ seenOf kind edge stage
  | .noRestartStart kind edge stage => "expected restart start, found " ++ seenOf kind edge stage
  | .noRestartEnd kind edge stage => "expected restart end, found " ++ seenOf kind edge stage
  | .noJoinEnd expected kind edge stage =>
    "expected join end of " ++ expected.label ++ ", found " ++ seenOf kind edge stage
  | .restartAsJoin => "restart handled as a join start"
  | .strayEnd kind stage =>
    "found " ++ kind.label ++ " end of " ++ stage.label ++ " where a join start was expected"

end Imbalance

inductive NameKind where
  | filter | elementMetric | aggregateMetric
  deriving DecidableEq

def NameKind.label : NameKind → String
  | .filter => "filter"
  | .elementMetric => "element metric"
  | .aggregateMetric => "aggregate metric"

structure FileFault where
  kind : String
  reason : String
  deriving DecidableEq

-- Hard stops: malformed trace data, unreadable input, a broken composition.
inductive AnalysisError (α : Type) where
  | negativeTolerance (relative absolute : α)
  | file (fault : FileFault)
  | json
  | toml
  | invalidStage (code : Int32)
  | invalidJoinType (code : Int32)
  | invalidJoinTime (code : Int32)
  | unbalanced (heap : HeapId) (index : Nat) (finding : Imbalance)
  | stageMismatch (heap : HeapId) (expected found : Stage)
  | truncated (heap : HeapId) (stage : Stage)
  | clockMismatch (stage : Stage) (heap : HeapId) (absolute relative : α)
  | duplicateHeap (heap : HeapId)
  | duplicateName (kind : NameKind) (name : String)
  | unknownMetric (name : String)
  | phaseConflict (stage : Stage) (first second : Phase)
  | stepBackRefused (position : Nat)
  deriving DecidableEq

def AnalysisError.message : AnalysisError Float → String
  | .negativeTolerance relative absolute =>
    "config error: clock tolerances must be non-negative (rel " ++ Binary64.text relative ++
      ", abs " ++ Binary64.text absolute ++ ")"
  | .file fault => "io error: " ++ fault.reason
  | .json => "json error"
  | .toml => "toml error"
  | .invalidStage code => "invalid join id " ++ toString code.toInt
  | .invalidJoinType code => "invalid join type " ++ toString code.toInt
  | .invalidJoinTime code => "invalid join time " ++ toString code.toInt
  | .unbalanced heap index finding =>
    "unbalanced join events on heap " ++ toString heap.toNat ++ " at event " ++ toString index ++
      ": " ++ finding.message
  | .stageMismatch heap expected found =>
    "join end for " ++ found.label ++ " does not match start of " ++ expected.label ++
      " on heap " ++ toString heap.toNat
  | .truncated heap stage =>
    "stage " ++ stage.label ++ " on heap " ++ toString heap.toNat ++
      " never ended before the trace did"
  | .clockMismatch stage heap absolute relative =>
    "clock mismatch on heap " ++ toString heap.toNat ++ " " ++ stage.label ++ ": abs " ++
      Binary64.text absolute ++ "ms, rel " ++ Binary64.text relative ++ "ms"
  | .duplicateHeap heap => "heap " ++ toString heap.toNat ++ " has more than one event history"
  | .duplicateName kind name => "duplicate " ++ kind.label ++ " name " ++ Quoted.quoted name
  | .unknownMetric name => "unknown metric " ++ Quoted.quoted name
  | .phaseConflict stage first second =>
    "stage " ++ stage.label ++ " listed under both " ++ first.label ++ " and " ++ second.label
  | .stepBackRefused position =>
    "EventCursor::unconsume without a preceding next (position " ++ toString position ++ ")"

end JoinTrace
