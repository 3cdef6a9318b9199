import JoinTrace.PhaseTable
import JoinTrace.Timeline.StageSpan

namespace JoinTrace

structure PhaseTiming (α : Type) where
  phase : Phase
  start : Option α
  finish : Option α
  deriving DecidableEq

structure PhaseBounds (α : Type) where
  start : Option α
  finish : Option α
  deriving DecidableEq

abbrev PhaseTimings (α : Type) := SortedMap Phase (PhaseTiming α)

def eitherOr {α : Type} (pick : α → α → α) : Option α → Option α → Option α
  | some x,some y => some (pick x y)
  | x,none => x
  | none,y => y

namespace PhaseTiming
variable {α : Type} [Scalar α]

def ofBounds (phase : Phase) (bounds : PhaseBounds α) : PhaseTiming α :=
  ⟨phase,bounds.start,endAfter bounds.start bounds.finish⟩

def span (timing : PhaseTiming α) : Option α := spanOf timing.start timing.finish

end PhaseTiming

namespace PhaseBounds
variable {α : Type} [Scalar α]

def absorb (bounds : PhaseBounds α) (span : StageSpan α) : PhaseBounds α :=
  ⟨eitherOr Scalar.min bounds.start (span.start.map (·.time)),
    eitherOr Scalar.max bounds.finish (span.finish.map (·.time))⟩

def ofSpans? (members : List (StageSpan α)) : Option (PhaseBounds α) :=
  match members with
  | [] => none
  | _ => some (members.foldl PhaseBounds.absorb ⟨none,none⟩)

def ofTable (spans : StageSpans α) (table : PhaseTable) : SortedMap Phase (PhaseBounds α) :=
  table.stagesByPhase.filterMap fun _ stages => ofSpans? (stages.filterMap spans.get?)

def finishOf (bounds : SortedMap Phase (PhaseBounds α)) (phase : Phase) : Option α :=
  (bounds.get? phase).bind (·.finish)

-- Three joins mark the wrong edge of their phase: planning starts when marking ends, sweeping
-- when planning ends, and the work after the collection ends with the pause.
def redefine (bounds : SortedMap Phase (PhaseBounds α)) (pause : α) :
    SortedMap Phase (PhaseBounds α) :=
  bounds.map fun phase bound =>
    match phase with
    | .plan => { bound with start := finishOf bounds .mark }
    | .sweep => { bound with start := finishOf bounds .plan }
    | .postGc => { bound with finish := some pause }
    | _ => bound

end PhaseBounds

def phaseTimings {α : Type} [Scalar α] (spans : StageSpans α) (table : PhaseTable) (pause : α) :
    PhaseTimings α :=
  (PhaseBounds.redefine (PhaseBounds.ofTable spans table) pause).map PhaseTiming.ofBounds

structure Timeline (α : Type) where
  stages : StageTimeline α
  spans : StageSpans α
  phases : PhaseTimings α
  deriving DecidableEq

def Timeline.reconstruct {α : Type} [Scalar α] (config : Config α) (table : PhaseTable)
    (pause : α) (heaps : List (HeapId × List (Event α))) : Except (AnalysisError α) (Timeline α) :=
  match StageTimeline.reconstruct config heaps with
  | .error e => .error e
  | .ok stages => .ok ⟨stages,stages.spans,phaseTimings stages.spans table pause⟩

end JoinTrace
