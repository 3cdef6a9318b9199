import JoinTrace.Interchange.Report
import JoinTrace.Interchange.Metric
import JoinTrace.Interchange.Trace
import JoinTrace.Proofs.JsonText

-- The documents exchanged with other programs give back the values they were written from.
namespace JoinTrace
open JsonForm Contents

section Names

instance : NamesApart Stage := ⟨fun stage => by cases stage <;> rfl⟩
instance : NamesApart Phase := ⟨fun phase => by cases phase <;> rfl⟩
instance : NamesApart JoinKind := ⟨fun kind => by cases kind <;> rfl⟩
instance : NamesApart Edge := ⟨fun edge => by cases edge <;> rfl⟩
instance : NamesApart TrailingPolicy := ⟨fun policy => by cases policy <;> rfl⟩
instance : NamesApart AggregateFn := ⟨fun aggregate => by cases aggregate <;> rfl⟩

end Names

section Records
variable {α β : Type} [JsonForm α] {fields : List (String × Json)} {name : String} {value : α}
  {result : Option β}

theorem record_then {always defaulted : List String} {next : (String → Option Json) → Option β}
    (found : next (fun name => fields.lookup name) = result) :
    (Json.record? always defaulted (.object fields) >>= next) = result := found

variable [Contents α] {levels : Nat}

theorem required_then [Faithful α levels] {next : α → Option β}
    (listed : fields.lookup name = some (write value))
    (fits : InRange value) (found : next value = result) :
    (Json.required? (fun name => fields.lookup name) name >>= next) = result := by
  simp [Json.required?,listed,Faithful.reads fits,found]

theorem defaulted_then [Faithful α levels] {next : α → Option β} {default : α}
    (listed : fields.lookup name = some (write value)) (fits : InRange value)
    (found : next value = result) :
    (Json.defaulted? (fun name => fields.lookup name) name default >>= next) = result := by
  simp [Json.defaulted?,listed,Faithful.reads fits,found]

theorem optional_then [Faithful α levels] [Present α] {value : Option α}
    {next : Option α → Option β}
    (listed : fields.lookup name = some (write value)) (fits : InRange value)
    (found : next value = result) :
    (Json.optional? (fun name => fields.lookup name) name >>= next) = result := by
  have read : readOption? (write value) = some value := Faithful.reads fits
  simp [Json.optional?,listed,read,found]

end Records

section Statistics

instance : Contents (Deviation Float) where
  numbers deviation := numbers deviation.absolute ++ numbers deviation.percentage

instance : Faithful (Deviation Float) 3 where
  reads {deviation} fits := by
    obtain ⟨absolute,percentage⟩ := List.forall_mem_append.mp fits
    apply record_then
    apply required_then rfl absolute
    apply required_then rfl percentage
    rfl
  writable {_ _ deviation} deep legible := by
    obtain ⟨absolute,percentage⟩ := List.forall_mem_append.mp legible
    exact ⟨by omega,by simp,Faithful.within absolute,Faithful.within percentage,trivial⟩

instance : Contents (Spread Float) where
  numbers spread := numbers spread.median ++ (numbers spread.max ++ numbers spread.min)

instance : Faithful (Spread Float) 1 where
  reads {spread} fits := by
    obtain ⟨median,others⟩ := List.forall_mem_append.mp fits
    obtain ⟨max,min⟩ := List.forall_mem_append.mp others
    apply record_then
    apply required_then rfl median
    apply required_then rfl max
    apply required_then rfl min
    rfl
  writable {_ _ spread} deep legible := by
    obtain ⟨median,others⟩ := List.forall_mem_append.mp legible
    obtain ⟨max,min⟩ := List.forall_mem_append.mp others
    exact ⟨by omega,by simp,Faithful.within median,Faithful.within max,Faithful.within min,trivial⟩

instance : Contents (StageStatistics Float) where
  numbers found := numbers found.spread ++ numbers found.heaps

instance : Faithful (StageStatistics Float) 5 where
  reads {found} fits := by
    obtain ⟨spread,heaps⟩ := List.forall_mem_append.mp fits
    obtain ⟨median,others⟩ := List.forall_mem_append.mp spread
    obtain ⟨max,min⟩ := List.forall_mem_append.mp others
    apply record_then
    apply required_then rfl (numberless rfl)
    apply required_then rfl median
    apply required_then rfl max
    apply required_then rfl min
    apply required_then rfl heaps
    rfl
  writable {_ _ found} deep legible := by
    obtain ⟨spread,heaps⟩ := List.forall_mem_append.mp legible
    obtain ⟨median,others⟩ := List.forall_mem_append.mp spread
    obtain ⟨max,min⟩ := List.forall_mem_append.mp others
    exact ⟨by omega,by simp,trivial,Faithful.within median,Faithful.within min,Faithful.within max,
      Faithful.within heaps,trivial⟩

instance : Contents (PhaseStatistics Float) where
  numbers found := numbers found.spread ++ numbers found.deviation

instance : Faithful (PhaseStatistics Float) 4 where
  reads {found} fits := by
    obtain ⟨spread,deviation⟩ := List.forall_mem_append.mp fits
    obtain ⟨median,others⟩ := List.forall_mem_append.mp spread
    obtain ⟨max,min⟩ := List.forall_mem_append.mp others
    apply record_then
    apply required_then rfl (numberless rfl)
    apply required_then rfl median
    apply required_then rfl max
    apply required_then rfl min
    apply required_then rfl deviation
    rfl
  writable {_ _ found} deep legible := by
    obtain ⟨spread,deviation⟩ := List.forall_mem_append.mp legible
    obtain ⟨median,others⟩ := List.forall_mem_append.mp spread
    obtain ⟨max,min⟩ := List.forall_mem_append.mp others
    exact ⟨by omega,by simp,trivial,Faithful.within median,Faithful.within max,Faithful.within min,
      Faithful.within deviation,trivial⟩

instance : Contents (Statistics Float) where
  numbers statistics := numbers statistics.overall ++
    (numbers statistics.stages ++ numbers statistics.phases)

instance : Faithful (Statistics Float) 7 where
  reads {statistics} fits := by
    obtain ⟨overall,others⟩ := List.forall_mem_append.mp fits
    obtain ⟨stages,phases⟩ := List.forall_mem_append.mp others
    apply record_then
    apply required_then rfl overall
    apply required_then rfl stages
    apply required_then rfl phases
    rfl
  writable {_ _ statistics} deep legible := by
    obtain ⟨overall,others⟩ := List.forall_mem_append.mp legible
    obtain ⟨stages,phases⟩ := List.forall_mem_append.mp others
    exact ⟨by omega,by simp,Faithful.within overall,Faithful.within stages,Faithful.within phases,
      trivial⟩

instance : Contents (HeapSummary Float) where
  numbers summary := numbers summary.joinTimes ++ numbers summary.phaseTotals

instance : Faithful (HeapSummary Float) 3 where
  reads {summary} fits := by
    obtain ⟨joinTimes,phaseTotals⟩ := List.forall_mem_append.mp fits
    apply record_then
    apply required_then rfl (numberless rfl)
    apply required_then rfl joinTimes
    apply required_then rfl phaseTotals
    apply required_then rfl (numberless rfl)
    rfl
  writable {_ _ summary} deep legible := by
    obtain ⟨joinTimes,phaseTotals⟩ := List.forall_mem_append.mp legible
    exact ⟨by omega,by simp,Faithful.bare rfl,Faithful.within joinTimes,Faithful.within phaseTotals,
      trivial,trivial⟩

instance : Contents (CycleSummary Float) where
  numbers summary := numbers summary.heaps

instance : Faithful (CycleSummary Float) 6 where
  reads {summary} fits := by
    have heaps : InRange summary.heaps := fits
    apply record_then
    apply required_then rfl (numberless rfl)
    apply required_then rfl heaps
    rfl
  writable {_ _ summary} deep legible := by
    have heaps : Legible _ summary.heaps := legible
    exact ⟨by omega,by simp,Faithful.bare rfl,Faithful.within heaps,trivial⟩

end Statistics

section Timelines

instance : Contents (StageTiming Float) where
  numbers timing := numbers timing.start ++ numbers timing.finish

instance : Faithful (StageTiming Float) 1 where
  reads {timing} fits := by
    obtain ⟨start,finish⟩ := List.forall_mem_append.mp fits
    apply record_then
    apply required_then rfl (numberless rfl)
    apply required_then rfl (numberless rfl)
    apply optional_then rfl start
    apply optional_then rfl finish
    apply required_then rfl (numberless rfl)
    apply required_then rfl (numberless rfl)
    rfl
  writable {_ _ timing} deep legible := by
    obtain ⟨start,finish⟩ := List.forall_mem_append.mp legible
    exact ⟨by omega,by simp,trivial,Faithful.bare rfl,Faithful.within start,
      Faithful.within finish,Faithful.bare rfl,Faithful.bare rfl,
      trivial⟩

instance : Contents (TimeAndHeap Float) where
  numbers found := numbers found.time

instance : Faithful (TimeAndHeap Float) 1 where
  reads {found} fits := by
    have time : InRange found.time := fits
    apply record_then
    apply required_then rfl time
    apply required_then rfl (numberless rfl)
    rfl
  writable {_ _ found} deep legible := by
    have time : Legible _ found.time := legible
    exact ⟨by omega,by simp,Faithful.within time,Faithful.bare rfl,trivial⟩

instance : Present (TimeAndHeap Float) := ⟨rfl⟩

instance : Contents (StageSpan Float) where
  numbers span := numbers span.start ++ numbers span.finish

instance : Faithful (StageSpan Float) 2 where
  reads {span} fits := by
    obtain ⟨start,finish⟩ := List.forall_mem_append.mp fits
    apply record_then
    apply required_then rfl (numberless rfl)
    apply optional_then rfl start
    apply optional_then rfl finish
    rfl
  writable {_ _ span} deep legible := by
    obtain ⟨start,finish⟩ := List.forall_mem_append.mp legible
    exact ⟨by omega,by simp,trivial,Faithful.within start,Faithful.within finish,trivial⟩

instance : Contents (PhaseTiming Float) where
  numbers timing := numbers timing.start ++ numbers timing.finish

instance : Faithful (PhaseTiming Float) 1 where
  reads {timing} fits := by
    obtain ⟨start,finish⟩ := List.forall_mem_append.mp fits
    apply record_then
    apply required_then rfl (numberless rfl)
    apply optional_then rfl start
    apply optional_then rfl finish
    rfl
  writable {_ _ timing} deep legible := by
    obtain ⟨start,finish⟩ := List.forall_mem_append.mp legible
    exact ⟨by omega,by simp,trivial,Faithful.within start,Faithful.within finish,trivial⟩

instance : Contents (Timeline Float) where
  numbers timeline := numbers timeline.stages ++ (numbers timeline.spans ++ numbers timeline.phases)

instance : Faithful (Timeline Float) 4 where
  reads {timeline} fits := by
    obtain ⟨stages,others⟩ := List.forall_mem_append.mp fits
    obtain ⟨spans,phases⟩ := List.forall_mem_append.mp others
    apply record_then
    apply required_then rfl stages
    apply required_then rfl spans
    apply required_then rfl phases
    rfl
  writable {_ _ timeline} deep legible := by
    obtain ⟨stages,others⟩ := List.forall_mem_append.mp legible
    obtain ⟨spans,phases⟩ := List.forall_mem_append.mp others
    exact ⟨by omega,by simp,Faithful.within stages,Faithful.within spans,Faithful.within phases,
      trivial⟩

end Timelines

section Traces

instance : Contents (Event Float) where
  numbers event := numbers event.time ++ numbers event.relative

instance : Faithful (Event Float) 1 where
  reads {event} fits := by
    obtain ⟨kind,edge,stage,heap,time,relative⟩ := event
    obtain ⟨timed,related⟩ := List.forall_mem_append.mp fits
    change readEvent? (writeEvent _) = _
    apply record_then
    apply required_then rfl (numberless rfl)
    apply required_then rfl (numberless rfl)
    apply required_then rfl (numberless rfl)
    apply required_then rfl (numberless rfl)
    apply required_then rfl timed
    -- What is left is the field that an event without a second clock does not have.
    cases relative with
    | none => rfl
    | some relative =>
      apply optional_then rfl related
      rfl
  writable {_ _ event} deep legible := by
    obtain ⟨kind,edge,stage,heap,time,relative⟩ := event
    obtain ⟨timed,related⟩ := List.forall_mem_append.mp legible
    cases relative with
    | none =>
      exact ⟨by omega,by simp,trivial,trivial,trivial,Faithful.bare rfl,Faithful.within timed,
        trivial⟩
    | some relative =>
      exact ⟨by omega,by simp,trivial,trivial,trivial,Faithful.bare rfl,Faithful.within timed,
        Faithful.within related,trivial⟩

instance : Contents (RawEvent Float) where
  numbers raw := numbers raw.time ++ numbers raw.relative

instance : Faithful (RawEvent Float) 1 where
  reads {raw} fits := by
    obtain ⟨time,relative⟩ := List.forall_mem_append.mp fits
    change readRawEvent? (writeRawEvent raw) = _
    apply record_then
    apply required_then rfl (numberless rfl)
    apply required_then rfl (numberless rfl)
    apply required_then rfl (numberless rfl)
    apply required_then rfl (numberless rfl)
    apply required_then rfl time
    apply optional_then rfl relative
    rfl
  writable {_ _ raw} deep legible := by
    obtain ⟨time,relative⟩ := List.forall_mem_append.mp legible
    exact ⟨by omega,by simp,Faithful.bare rfl,Faithful.bare rfl,Faithful.bare rfl,Faithful.bare rfl,
      Faithful.within time,Faithful.within relative,trivial⟩

instance : Contents (HeapHistory Float) where
  numbers history := numbers history.events

instance : Faithful (HeapHistory Float) 3 where
  reads {history} fits := by
    have events : InRange history.events := fits
    apply record_then
    apply required_then rfl (numberless rfl)
    apply required_then rfl events
    rfl
  writable {_ _ history} deep legible := by
    have events : Legible _ history.events := legible
    exact ⟨by omega,by simp,Faithful.bare rfl,Faithful.within events,trivial⟩

instance : Contents (Cycle Float) where
  numbers cycle := numbers cycle.pause ++ numbers cycle.heaps

instance : Faithful (Cycle Float) 5 where
  reads {cycle} fits := by
    obtain ⟨pause,heaps⟩ := List.forall_mem_append.mp fits
    apply record_then
    apply required_then rfl (numberless rfl)
    apply required_then rfl (numberless rfl)
    apply required_then rfl pause
    apply required_then rfl heaps
    rfl
  writable {_ _ cycle} deep legible := by
    obtain ⟨pause,heaps⟩ := List.forall_mem_append.mp legible
    exact ⟨by omega,by simp,Faithful.bare rfl,Faithful.bare rfl,Faithful.within pause,
      Faithful.within heaps,trivial⟩

instance : Contents (Config Float) where
  numbers config := numbers config.relativeTolerance ++ numbers config.absoluteTolerance

instance : Faithful (Config Float) 1 where
  reads {config} fits := by
    obtain ⟨relativeTolerance,absoluteTolerance⟩ := List.forall_mem_append.mp fits
    apply record_then
    apply defaulted_then rfl (numberless rfl)
    apply defaulted_then rfl relativeTolerance
    apply defaulted_then rfl absoluteTolerance
    rfl
  writable {_ _ config} deep legible := by
    obtain ⟨relativeTolerance,absoluteTolerance⟩ := List.forall_mem_append.mp legible
    exact ⟨by omega,by simp,trivial,Faithful.within relativeTolerance,
      Faithful.within absoluteTolerance,trivial⟩

end Traces

section Catalogs

instance : Contents AggregateFamily := ⟨fun _ => []⟩
instance : Contents AggregateMetric := ⟨fun _ => []⟩

instance : Faithful AggregateFamily 1 where
  reads {family} _ := by
    cases family with
    | float aggregate =>
      change (read? (write aggregate)).map AggregateFamily.float = _
      rw [Faithful.reads (numberless rfl)]
      rfl
    | count | pct | special => rfl
  writable {_ _ family} deep _ := by
    cases family with
    | float aggregate => exact ⟨deep,by simp,trivial,trivial,trivial⟩
    | count | pct | special => exact ⟨deep,by simp,trivial,trivial⟩

instance : Faithful AggregateMetric 2 where
  reads {metric} _ := by
    apply record_then
    apply required_then rfl (numberless rfl)
    apply required_then rfl (numberless rfl)
    apply optional_then rfl (by cases metric.elementMetric <;> exact numberless rfl)
    apply required_then rfl (numberless rfl)
    apply required_then rfl (numberless rfl)
    rfl
  writable {survives bound metric} deep _ := by
    have element : (write metric.elementMetric).Writable survives (bound-1) := by
      cases metric.elementMetric <;> trivial
    have family : (write metric.family).Writable survives (bound-1) :=
      Faithful.bare rfl
    exact ⟨by omega,by simp,trivial,family,element,trivial,trivial,trivial⟩

end Catalogs

namespace Interchange

-- Every value whose floats are finite is read back from its document, and from the text of the
-- document by any library under which its floats survive: with all finite floats, from every text.
theorem documents_return (text : JsonText) (survives : Float → Prop) (sound : text.Sound survives) :
    (∀ event : Event Float, InRange event → Returns text survives event) ∧
    (∀ raw : RawEvent Float, InRange raw → Returns text survives raw) ∧
    (∀ cycle : Cycle Float, InRange cycle → Returns text survives cycle) ∧
    (∀ config : Config Float, InRange config → Returns text survives config) ∧
    (∀ metric : AggregateMetric, Returns text survives metric) ∧
    (∀ summary : CycleSummary Float, InRange summary → Returns text survives summary) ∧
    (∀ statistics : Statistics Float, InRange statistics → Returns text survives statistics) ∧
    (∀ timeline : Timeline Float, InRange timeline → Returns text survives timeline) ∧
    (∀ value : MetricValue Float, InRange value → Returns text survives value) := by
  refine ⟨?_,?_,?_,?_,?_,?_,?_,?_,?_⟩
  · intro event fits
    exact Faithful.returns sound (by decide) fits
  · intro raw fits
    exact Faithful.returns sound (by decide) fits
  · intro cycle fits
    exact Faithful.returns sound (by decide) fits
  · intro config fits
    exact Faithful.returns sound (by decide) fits
  · intro metric
    exact Faithful.returns sound (by decide) (numberless rfl)
  · intro summary fits
    exact Faithful.returns sound (by decide) fits
  · intro statistics fits
    exact Faithful.returns sound (by decide) fits
  · intro timeline fits
    exact Faithful.returns sound (by decide) fits
  · intro value fits
    exact Faithful.returns sound (by decide) fits

end Interchange

namespace Sample

def clockedEvent : Event Float := ⟨.join,.start,.beginMarkPhase,3,1.5,some 3.0⟩

def overview : Statistics Float :=
  ⟨⟨1.5,3.0,1.5⟩,
    .ofList [(.beginMarkPhase,⟨.beginMarkPhase,⟨1.5,3.0,1.5⟩,
      .ofList [(10,⟨1.5,.ok 3.0⟩),(2,⟨1.5,fail "no median"⟩)]⟩)],
    .ofList [(.mark,⟨.mark,⟨1.5,3.0,1.5⟩,⟨3.0,fail "no median"⟩⟩)]⟩

def wholeRatio : MetricValue Float := .float 3.0

theorem legible_whole : Json.Legible 3.0 := by
  have digits : Json.realText 3.0 = "3.0" := by decide +kernel
  rw [Json.Legible,digits]
  rfl

theorem legible_fraction : Json.Legible 1.5 := by
  have digits : Json.realText 1.5 = "1.5" := by decide +kernel
  rw [Json.Legible,digits]
  rfl

theorem legible {α : Type} [Contents α] {value : α}
    (known : ∀ number ∈ numbers value, number = .float 3.0 ∨ number = .float 1.5) :
    ∀ x, .float x ∈ numbers value → Json.Legible x := by
  intro x held
  rcases known _ held with same | same
  · cases same
    exact legible_whole
  · cases same
    exact legible_fraction

end Sample

namespace Interchange
open Sample

theorem documents_return_sample :
    JsonText.plain.Sound Json.Legible ∧
    (InRange clockedEvent ∧
      JsonText.plain.print (write clockedEvent) = "\x7b\"kind\":\"join\",\"edge\":\"start\"," ++
        "\"stage\":\"begin_mark_phase\",\"heap_origin\":3,\"timestamp_ms\":1.5," ++
        "\"relative_timestamp_ms\":3.0\x7d" ∧
      (JsonText.plain.read? (JsonText.plain.print (write clockedEvent))).bind read? =
        some clockedEvent) ∧
    (InRange overview ∧
      (JsonText.plain.read? (JsonText.plain.print (write overview))).bind read? = some overview) ∧
    (InRange wholeRatio ∧ JsonText.plain.print (write wholeRatio) = "3.0" ∧
      (JsonText.plain.read? (JsonText.plain.print (write wholeRatio))).bind read? =
        some wholeRatio) := by
  obtain ⟨events,_,_,_,_,_,statistics,_,values⟩ :=
    documents_return JsonText.plain Json.Legible Json.plain_sound
  refine ⟨Json.plain_sound,?_,?_,?_⟩
  · have fits : InRange clockedEvent := by decide
    exact ⟨fits,by decide +kernel,(events _ fits).2 (legible (by decide))⟩
  · have fits : InRange overview := by decide
    exact ⟨fits,(statistics _ fits).2 (legible (by decide))⟩
  · have fits : InRange wholeRatio := by decide
    exact ⟨fits,by decide +kernel,(values _ fits).2 (legible (by decide))⟩

end Interchange
end JoinTrace
