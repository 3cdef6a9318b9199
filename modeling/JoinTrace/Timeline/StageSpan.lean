import JoinTrace.Timeline.StageTiming

namespace JoinTrace

structure TimeAndHeap (α : Type) where
  time : α
  heap : HeapId
  deriving DecidableEq

structure StageSpan (α : Type) where
  stage : Stage
  start : Option (TimeAndHeap α)
  finish : Option (TimeAndHeap α)
  deriving DecidableEq

namespace StageSpan
variable {α : Type} [Scalar α]

-- Only a strictly better time replaces the one held, so the lowest heap keeps a tie.
def keep (better : α → α → Bool) (held : Option (TimeAndHeap α)) (heap : HeapId)
    (time : Option α) : Option (TimeAndHeap α) :=
  match time,held with
  | none,_ => held
  | some t,none => some ⟨t,heap⟩
  | some t,some best => if better t best.time then some ⟨t,heap⟩ else held

def widen (span : StageSpan α) (heap : HeapId) (timing : StageTiming α) : StageSpan α :=
  { span with
    start := keep Scalar.lt span.start heap timing.start
    finish := keep (fun t best => Scalar.lt best t) span.finish heap timing.finish }

def ofTimings (stage : Stage) (timings : SortedMap HeapId (StageTiming α)) : StageSpan α :=
  timings.entries.foldl (fun span entry => span.widen entry.1 entry.2) ⟨stage,none,none⟩

end StageSpan

abbrev StageSpans (α : Type) := SortedMap Stage (StageSpan α)

def StageTimeline.spans {α : Type} [Scalar α] (timeline : StageTimeline α) : StageSpans α :=
  timeline.map StageSpan.ofTimings

end JoinTrace
