import JoinTrace.Aggregate
import JoinTrace.Cycle
import JoinTrace.PhaseTable

namespace JoinTrace

structure HeapSummary (α : Type) where
  heap : HeapId
  joinTimes : JoinTimes α
  phaseTotals : SortedMap Phase α
  ranAlone : Bool
  deriving DecidableEq

namespace HeapSummary
variable {α : Type}

def durations (summary : HeapSummary α) : List α := summary.joinTimes.durations

variable [Scalar α]

def ofJoinTimes (history : HeapHistory α) (table : PhaseTable) (times : JoinTimes α) :
    HeapSummary α where
  heap := history.heap
  joinTimes := times
  phaseTotals := table.stagesByPhase.map fun _ stages =>
    Scalar.sum (stages.filterMap times.get?).flatten
  ranAlone := history.events.any Event.isSingleThreadedStart

def ofHistory (history : HeapHistory α) (table : PhaseTable) (policy : TrailingPolicy) :
    Except (AnalysisError α) (HeapSummary α) :=
  (JoinTrace.joinTimes history.heap history.events policy).map (ofJoinTimes history table)

def someDurations (summary : HeapSummary α) : Failable (List α) :=
  if summary.durations.isEmpty then fail "empty join durations" else .ok summary.durations

def medianJoin (summary : HeapSummary α) : Failable α := do
  Aggregate.median (← summary.someDurations)

def maxJoin (summary : HeapSummary α) : Failable α := do
  Aggregate.max (← summary.someDurations)

def totalJoin (summary : HeapSummary α) : Failable α :=
  summary.someDurations.map Scalar.sum

def stageTotal (summary : HeapSummary α) (stage : Stage) : α :=
  match summary.joinTimes.get? stage with
  | some durations => Scalar.sum durations
  | none => Scalar.ofNat 0

def phaseTotal (summary : HeapSummary α) (phase : Phase) : α :=
  (summary.phaseTotals.get? phase).getD (Scalar.ofNat 0)

end HeapSummary

-- Replay errors surface when a summary is made, so its readers see expected absence only.
structure CycleSummary (α : Type) where
  gcNumber : UInt32
  heaps : Failable (List (HeapSummary α))
  deriving DecidableEq

-- Histories are summed up one by one; nothing is said about two of the same heap.
def CycleSummary.ofCycle {α : Type} [Scalar α] (cycle : Cycle α) (table : PhaseTable)
    (policy : TrailingPolicy) : Except (AnalysisError α) (CycleSummary α) :=
  match cycle.serverHeaps with
  | .error failure => .ok ⟨cycle.gcNumber,.error failure⟩
  | .ok heaps =>
    match heaps.mapM fun history => HeapSummary.ofHistory history table policy with
    | .error e => .error e
    | .ok summaries => .ok ⟨cycle.gcNumber,.ok summaries⟩

end JoinTrace
