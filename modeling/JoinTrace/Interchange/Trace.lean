import JoinTrace.Cycle
import JoinTrace.Json

namespace JoinTrace
open JsonForm

def writeEvent (event : Event Float) : Json :=
  .object <| [
    ("kind",write event.kind), ("edge",write event.edge), ("stage",write event.stage),
    ("heap_origin",write event.heapOrigin), ("timestamp_ms",write event.time)] ++
    match event.relative with
    | some relative => [("relative_timestamp_ms",write relative)]
    | none => []

def readEvent? (json : Json) : Option (Event Float) := do
  let field ← json.record? ["kind", "edge", "stage", "heap_origin", "timestamp_ms"]
    ["relative_timestamp_ms"]
  return ⟨← Json.required? field "kind",← Json.required? field "edge",
    ← Json.required? field "stage",← Json.required? field "heap_origin",
    ← Json.required? field "timestamp_ms",← Json.optional? field "relative_timestamp_ms"⟩

instance : JsonForm (Event Float) := ⟨writeEvent,readEvent?⟩

def writeRawEvent (raw : RawEvent Float) : Json := .object [
  ("join_type",write raw.joinType), ("join_time",write raw.joinTime),
  ("join_id",write raw.joinId), ("heap",write raw.heap),
  ("absolute_timestamp_ms",write raw.time), ("relative_timestamp_ms",write raw.relative)]

def readRawEvent? (json : Json) : Option (RawEvent Float) := do
  let field ← json.record? ["join_type", "join_time", "join_id", "heap", "absolute_timestamp_ms"]
    ["relative_timestamp_ms"]
  return ⟨← Json.required? field "join_type",← Json.required? field "join_time",
    ← Json.required? field "join_id",← Json.required? field "heap",
    ← Json.required? field "absolute_timestamp_ms",
    ← Json.optional? field "relative_timestamp_ms"⟩

instance : JsonForm (RawEvent Float) := ⟨writeRawEvent,readRawEvent?⟩

instance : JsonForm (HeapHistory Float) where
  write history := .object [("heap",write history.heap), ("events",write history.events)]
  read? json := do
    let field ← json.record? ["heap", "events"] []
    return ⟨← Json.required? field "heap",← Json.required? field "events"⟩

instance : JsonForm (Cycle Float) where
  write cycle := .object [
    ("gc_number",write cycle.gcNumber), ("heap_count",write cycle.heapCount),
    ("pause_duration_ms",write cycle.pause), ("heaps",write cycle.heaps)]
  read? json := do
    let field ← json.record? ["gc_number", "heap_count", "pause_duration_ms", "heaps"] []
    return ⟨← Json.required? field "gc_number",← Json.required? field "heap_count",
      ← Json.required? field "pause_duration_ms",← Json.required? field "heaps"⟩

instance : JsonForm (Config Float) where
  write config := .object [
    ("trailing_stage_policy",write config.policy),
    ("clock_rel_tolerance",write config.relativeTolerance),
    ("clock_abs_tolerance",write config.absoluteTolerance)]
  read? json := do
    let field ← json.record? []
      ["trailing_stage_policy", "clock_rel_tolerance", "clock_abs_tolerance"]
    let standard : Config Float := .standard
    return ⟨← Json.defaulted? field "trailing_stage_policy" standard.policy,
      ← Json.defaulted? field "clock_rel_tolerance" standard.relativeTolerance,
      ← Json.defaulted? field "clock_abs_tolerance" standard.absoluteTolerance⟩

end JoinTrace
