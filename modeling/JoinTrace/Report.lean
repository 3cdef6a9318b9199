import JoinTrace.JoinCatalog
import JoinTrace.Statistics
import JoinTrace.Timeline

namespace JoinTrace

structure Report (α : Type) where
  gcNumber : UInt32
  statistics : Failable (Statistics α)
  timeline : Timeline α
  heapMetrics : List (String × Failable (MetricValue α))
  deriving DecidableEq

structure Reporter (α : Type) where
  table : PhaseTable
  config : Config α
  catalog : Catalog α (CycleSummary α)

namespace Reporter
variable {α : Type} [Scalar α]

def make (table : PhaseTable) (config : Config α) : Except (AnalysisError α) (Reporter α) :=
  (JoinCatalog.ofTable table).map (⟨table,config,·⟩)

-- Replay errors come before those of the timeline.
def report (reporter : Reporter α) (cycle : Cycle α) : Except (AnalysisError α) (Report α) :=
  match Statistics.compute cycle reporter.table reporter.config.policy with
  | .error e => .error e
  | .ok statistics =>
    match Timeline.reconstruct reporter.config reporter.table cycle.pause cycle.eventLists with
    | .error e => .error e
    | .ok timeline =>
      match CycleSummary.ofCycle cycle reporter.table reporter.config.policy with
      | .error e => .error e
      | .ok summary =>
        .ok ⟨cycle.gcNumber,statistics,timeline,reporter.catalog.evaluateAll summary⟩

def aliasedMetrics (reporter : Reporter α) (short : String) (cycle : Cycle α) :
    Except (AnalysisError α) (List (String × Failable (MetricValue α))) :=
  match (cycleAliases reporter.table).lookup short with
  | none => .error (.unknownMetric short)
  | some names =>
    match CycleSummary.ofCycle cycle reporter.table reporter.config.policy with
    | .error e => .error e
    | .ok summary => reporter.catalog.evaluateSelected summary names

end Reporter
end JoinTrace
