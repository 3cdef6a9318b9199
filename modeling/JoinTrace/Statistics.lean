import JoinTrace.Aggregate
import JoinTrace.Cycle
import JoinTrace.PhaseTable

namespace JoinTrace

structure Deviation (α : Type) where
  absolute : α
  percentage : Failable α
  deriving DecidableEq

def Deviation.from {α : Type} [Scalar α] (value median : α) : Deviation α :=
  let absolute := Scalar.abs (value - median)
  ⟨absolute,
    if Scalar.eq median (Scalar.ofNat 0) then fail "pct deviation from a zero median"
    else .ok (absolute / median * Scalar.ofNat 100)⟩

structure Spread (α : Type) where
  median : α
  max : α
  min : α
  deriving DecidableEq

def Spread.of {α : Type} [Scalar α] (values : List α) : Failable (Spread α) := do
  return ⟨← Aggregate.median values,← Aggregate.max values,← Aggregate.min values⟩

structure StageStatistics (α : Type) where
  stage : Stage
  spread : Spread α
  heaps : SortedMap HeapId (Deviation α)
  deriving DecidableEq

structure PhaseStatistics (α : Type) where
  phase : Phase
  spread : Spread α
  deviation : Deviation α
  deriving DecidableEq

structure Statistics (α : Type) where
  overall : Spread α
  stages : SortedMap Stage (StageStatistics α)
  phases : SortedMap Phase (PhaseStatistics α)
  deriving DecidableEq

namespace Statistics
variable {α : Type} [Scalar α]

def ofStage (stage : Stage) (durations : SortedMap HeapId α) : Failable (StageStatistics α) := do
  let spread ← Spread.of durations.values
  return ⟨stage,spread,durations.map fun _ duration => .from duration spread.median⟩

def ofPhase (overall : Spread α) (phase : Phase) (durations : List α) :
    Failable (PhaseStatistics α) := do
  let spread ← Spread.of durations
  return ⟨phase,spread,.from spread.median overall.median⟩

def phaseDurations (last : LastDurations α) (table : PhaseTable) : SortedMap Phase (List α) :=
  table.stagesByPhase.filterMap fun _ stages =>
    let durations := (stages.filterMap last.get?).flatMap (·.values)
    if durations.isEmpty then none else some durations

def ofJoinTimes (all : HeapJoinTimes α) (table : PhaseTable) : Failable (Statistics α) := do
  let overall ← (Spread.of (all.values.flatMap JoinTimes.durations)).context "all joins"
  let last := all.lastDurations
  return ⟨overall,← last.traverse ofStage,← (phaseDurations last table).traverse (ofPhase overall)⟩

def compute (cycle : Cycle α) (table : PhaseTable) (policy : TrailingPolicy) :
    Except (AnalysisError α) (Failable (Statistics α)) :=
  (cycle.joinTimes policy).map fun all => all.bind (ofJoinTimes · table)

end Statistics
end JoinTrace
