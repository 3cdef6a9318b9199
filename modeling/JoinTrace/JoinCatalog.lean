import JoinTrace.Catalog
import JoinTrace.Summary

namespace JoinTrace

namespace JoinCatalog
variable {α : Type}

def joinTimeMetrics : List String :=
  ["MedianIndividualJoinMSec", "MaxIndividualJoinMSec", "TotalJoinMSec"]

def ranAloneMetric : String := "DidSingleThreadedJoin"

abbrev HeapMetric (α : Type) := ElementMetric α (CycleSummary α) (HeapSummary α)

def floatMetric (name : String) (read : HeapSummary α → Failable α) : HeapMetric α :=
  ⟨name,.float fun _ heaps place => read (heaps.get place)⟩

def boolMetric (name : String) (read : HeapSummary α → Bool) : HeapMetric α :=
  ⟨name,.bool fun _ heaps place => .ok (read (heaps.get place))⟩

variable [Scalar α]

def stageMetric (stage : Stage) : HeapMetric α :=
  floatMetric stage.name fun heap => .ok (heap.stageTotal stage)

def phaseMetric (phase : Phase) : HeapMetric α :=
  floatMetric phase.name fun heap => .ok (heap.phaseTotal phase)

def metrics (table : PhaseTable) : List (HeapMetric α) :=
  [floatMetric "MedianIndividualJoinMSec" HeapSummary.medianJoin,
    floatMetric "MaxIndividualJoinMSec" HeapSummary.maxJoin,
    floatMetric "TotalJoinMSec" HeapSummary.totalJoin] ++
  Stage.measured.map stageMetric ++ table.phases.map phaseMetric ++
  [boolMetric ranAloneMetric HeapSummary.ranAlone]

def heapCount : SpecialAggregate α (CycleSummary α) (HeapSummary α) :=
  ⟨"HeapCount",fun _ heaps => .ok (.int heaps.length)⟩

def builder (table : PhaseTable) : CatalogBuilder α (CycleSummary α) (HeapSummary α) :=
  ⟨CycleSummary.heaps,metrics table,[],[heapCount]⟩

def ofTable (table : PhaseTable) : Except (AnalysisError α) (Catalog α (CycleSummary α)) :=
  (builder table).build

end JoinCatalog

def heapAliases (table : PhaseTable) : List (String × List String) := [
  ("joinTimes",JoinCatalog.joinTimeMetrics),
  ("stages",Stage.measured.map Stage.name),
  ("phases",table.phases.map Phase.name)]

def cycleAliases (table : PhaseTable) : List (String × List String) := [
  ("joinTimes",["TotalJoinMSec_Max", "TotalJoinMSec_Mean"]),
  ("stages",Stage.measured.map fun stage => stage.name ++ "_Mean"),
  ("phases",table.phases.map fun phase => phase.name ++ "_Mean")]

end JoinTrace
