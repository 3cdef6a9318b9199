import JoinTrace.Interchange.Statistics
import JoinTrace.Report

namespace JoinTrace
open JsonForm

instance : JsonForm (StageTiming Float) where
  write timing := .object [
    ("stage",write timing.stage), ("heap",write timing.heap), ("start_ms",write timing.start),
    ("end_ms",write timing.finish), ("n_starts",write timing.starts), ("n_ends",write timing.ends)]
  read? json := do
    let field ← json.record? ["stage", "heap", "start_ms", "end_ms", "n_starts", "n_ends"] []
    return ⟨← Json.required? field "stage",← Json.required? field "heap",
      ← Json.optional? field "start_ms",← Json.optional? field "end_ms",
      ← Json.required? field "n_starts",← Json.required? field "n_ends"⟩

instance : JsonForm (TimeAndHeap Float) where
  write found := .object [("time_ms",write found.time), ("heap",write found.heap)]
  read? json := do
    let field ← json.record? ["time_ms", "heap"] []
    return ⟨← Json.required? field "time_ms",← Json.required? field "heap"⟩

instance : JsonForm (StageSpan Float) where
  write span := .object [
    ("stage",write span.stage), ("start",write span.start), ("end",write span.finish)]
  read? json := do
    let field ← json.record? ["stage", "start", "end"] []
    return ⟨← Json.required? field "stage",← Json.optional? field "start",
      ← Json.optional? field "end"⟩

instance : JsonForm (PhaseTiming Float) where
  write timing := .object [
    ("phase",write timing.phase), ("start_ms",write timing.start), ("end_ms",write timing.finish)]
  read? json := do
    let field ← json.record? ["phase", "start_ms", "end_ms"] []
    return ⟨← Json.required? field "phase",← Json.optional? field "start_ms",
      ← Json.optional? field "end_ms"⟩

instance : JsonForm (Timeline Float) where
  write timeline := .object [
    ("stages",write timeline.stages), ("spans",write timeline.spans),
    ("phases",write timeline.phases)]
  read? json := do
    let field ← json.record? ["stages", "spans", "phases"] []
    return ⟨← Json.required? field "stages",← Json.required? field "spans",
      ← Json.required? field "phases"⟩

def Report.toJson (report : Report Float) : Json := .object [
  ("gc_number",write report.gcNumber), ("statistics",write report.statistics),
  ("timeline",write report.timeline),
  ("heap_metrics",.object (report.heapMetrics.map fun metric => (metric.1,write metric.2)))]

end JoinTrace
