import JoinTrace.Json
import JoinTrace.Statistics
import JoinTrace.Summary

namespace JoinTrace
open JsonForm

instance : JsonForm (Deviation Float) where
  write deviation := .object [
    ("absolute",write deviation.absolute), ("percentage",write deviation.percentage)]
  read? json := do
    let field ← json.record? ["absolute", "percentage"] []
    return ⟨← Json.required? field "absolute",← Json.required? field "percentage"⟩

instance : JsonForm (Spread Float) where
  write spread := .object [
    ("median_join_ms",write spread.median), ("max_join_ms",write spread.max),
    ("min_join_ms",write spread.min)]
  read? json := do
    let field ← json.record? ["median_join_ms", "max_join_ms", "min_join_ms"] []
    return ⟨← Json.required? field "median_join_ms",← Json.required? field "max_join_ms",
      ← Json.required? field "min_join_ms"⟩

instance : JsonForm (StageStatistics Float) where
  write found := .object [
    ("stage",write found.stage), ("median_heap_join_ms",write found.spread.median),
    ("min_heap_join_ms",write found.spread.min), ("max_heap_join_ms",write found.spread.max),
    ("heaps",write found.heaps)]
  read? json := do
    let field ← json.record? ["stage", "median_heap_join_ms", "min_heap_join_ms",
      "max_heap_join_ms", "heaps"] []
    return ⟨← Json.required? field "stage",
      ⟨← Json.required? field "median_heap_join_ms",← Json.required? field "max_heap_join_ms",
        ← Json.required? field "min_heap_join_ms"⟩,
      ← Json.required? field "heaps"⟩

instance : JsonForm (PhaseStatistics Float) where
  write found := .object [
    ("phase",write found.phase), ("median_phase_join_ms",write found.spread.median),
    ("max_phase_join_ms",write found.spread.max), ("min_phase_join_ms",write found.spread.min),
    ("deviation_from_median_join",write found.deviation)]
  read? json := do
    let field ← json.record? ["phase", "median_phase_join_ms", "max_phase_join_ms",
      "min_phase_join_ms", "deviation_from_median_join"] []
    return ⟨← Json.required? field "phase",
      ⟨← Json.required? field "median_phase_join_ms",← Json.required? field "max_phase_join_ms",
        ← Json.required? field "min_phase_join_ms"⟩,
      ← Json.required? field "deviation_from_median_join"⟩

instance : JsonForm (Statistics Float) where
  write statistics := .object [
    ("over_all_joins",write statistics.overall), ("stages",write statistics.stages),
    ("phases",write statistics.phases)]
  read? json := do
    let field ← json.record? ["over_all_joins", "stages", "phases"] []
    return ⟨← Json.required? field "over_all_joins",← Json.required? field "stages",
      ← Json.required? field "phases"⟩

instance : JsonForm (HeapSummary Float) where
  write summary := .object [
    ("heap",write summary.heap), ("join_times",write summary.joinTimes),
    ("phase_totals_ms",write summary.phaseTotals),
    ("did_single_threaded_join",write summary.ranAlone)]
  read? json := do
    let field ← json.record? ["heap", "join_times", "phase_totals_ms",
      "did_single_threaded_join"] []
    return ⟨← Json.required? field "heap",← Json.required? field "join_times",
      ← Json.required? field "phase_totals_ms",← Json.required? field "did_single_threaded_join"⟩

instance : JsonForm (CycleSummary Float) where
  write summary := .object [("gc_number",write summary.gcNumber), ("heaps",write summary.heaps)]
  read? json := do
    let field ← json.record? ["gc_number", "heaps"] []
    return ⟨← Json.required? field "gc_number",← Json.required? field "heaps"⟩

end JoinTrace
