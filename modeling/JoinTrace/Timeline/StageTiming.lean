import JoinTrace.Config
import JoinTrace.Error
import JoinTrace.SortedMap

-- First start and last end of each stage on each heap, without any assumption on pairing: events
-- may be lost or out of order, and a missing edge simply stays absent.
namespace JoinTrace

-- A time on the clock of the pause, and on the second clock where the trace records it.
structure Reading (α : Type) where
  time : α
  relative : Option α
  deriving DecidableEq

def Event.reading {α : Type} (event : Event α) : Reading α := ⟨event.time,event.relative⟩

-- The counts are of 32 bits and wrap; a build that checks for overflow stops there instead.
structure StageMarks (α : Type) where
  starts : UInt32
  ends : UInt32
  firstStart : Option (Reading α)
  lastEnd : Option (Reading α)
  deriving DecidableEq

structure StageTiming (α : Type) where
  stage : Stage
  heap : HeapId
  start : Option α
  finish : Option α
  starts : UInt32
  ends : UInt32
  deriving DecidableEq

abbrev StageTimeline (α : Type) := SortedMap Stage (SortedMap HeapId (StageTiming α))

def spanOf {α : Type} [Scalar α] (start finish : Option α) : Option α :=
  match start,finish with
  | some s,some f => some (f - s)
  | _,_ => none

-- An end before its start belongs to something that began before the trace did.
def endAfter {α : Type} [Scalar α] (start finish : Option α) : Option α :=
  match start,finish with
  | some s,some f => if Scalar.lt f s then none else some f
  | _,_ => finish

def StageTiming.span {α : Type} [Scalar α] (timing : StageTiming α) : Option α :=
  spanOf timing.start timing.finish

namespace StageMarks
variable {α : Type}

def none : StageMarks α := ⟨0,0,.none,.none⟩

def addStart (marks : StageMarks α) (reading : Reading α) : StageMarks α :=
  { marks with starts := marks.starts+1, firstStart := marks.firstStart <|> some reading }

def addEnd (marks : StageMarks α) (reading : Reading α) : StageMarks α :=
  { marks with ends := marks.ends+1, lastEnd := some reading }

variable [Scalar α]

def clockSpans (marks : StageMarks α) : Option (α × α) :=
  match marks.firstStart,marks.lastEnd with
  | some ⟨s,some sr⟩,some ⟨f,some fr⟩ => some (f - s,fr - sr)
  | _,_ => .none

def timing (config : Config α) (stage : Stage) (heap : HeapId) (marks : StageMarks α) :
    Except (AnalysisError α) (StageTiming α) :=
  let start := marks.firstStart.map (·.time)
  let seen : StageTiming α :=
    ⟨stage,heap,start,endAfter start (marks.lastEnd.map (·.time)),marks.starts,marks.ends⟩
  match marks.clockSpans with
  | some (absolute,relative) =>
    if config.clocksAgree absolute relative then .ok seen
    else .error (.clockMismatch stage heap absolute relative)
  | .none => .ok seen

end StageMarks

structure HeapScan (α : Type) where
  marks : SortedMap Stage (StageMarks α)
  alone : Option Stage

namespace HeapScan
variable {α : Type}

def mark (scan : HeapScan α) (stage : Stage) (change : StageMarks α → StageMarks α) : HeapScan α :=
  { scan with marks := scan.marks.upsert stage fun found => change (found.getD .none) }

-- Restarts carry no stage: a restart end closes the stage this heap is running alone.
def advance (scan : HeapScan α) (event : Event α) : HeapScan α :=
  if event.kind = .restart then
    match event.edge,scan.alone with
    | .finish,some stage => { scan.mark stage (·.addEnd event.reading) with alone := .none }
    | _,_ => scan
  else
    match event.edge with
    | .start =>
      let marked := scan.mark event.stage (·.addStart event.reading)
      if event.isSingleThreadedStart then { marked with alone := some event.stage } else marked
    | .finish => scan.mark event.stage (·.addEnd event.reading)

end HeapScan

def stageMarks {α : Type} (events : List (Event α)) : SortedMap Stage (StageMarks α) :=
  (events.foldl HeapScan.advance ⟨∅,.none⟩).marks

namespace StageTimeline
variable {α : Type}

def marks (heaps : List (HeapId × List (Event α))) :
    SortedMap Stage (SortedMap HeapId (StageMarks α)) :=
  (SortedMap.ofList (heaps.map fun heap => (heap.1,stageMarks heap.2))).transpose

-- A repeated heap is refused before any clock is compared; of several disagreeing clocks the one
-- of the least stage, and then of the least heap, is reported.
def reconstruct [Scalar α] (config : Config α) (heaps : List (HeapId × List (Event α))) :
    Except (AnalysisError α) (StageTimeline α) :=
  match firstRepeat? (heaps.map (·.1)) with
  | some heap => .error (.duplicateHeap heap)
  | none => (marks heaps).traverse fun stage row => row.traverse (StageMarks.timing config stage)

end StageTimeline
end JoinTrace
