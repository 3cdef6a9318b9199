import JoinTrace.Failable
import JoinTrace.Replayer

namespace JoinTrace

-- Of several bad codes the kind is reported before the edge, the edge before the stage. Traces
-- without stage ids carry a code that no stage has, and fail here like any other unknown one.
def RawEvent.decode {α : Type} (raw : RawEvent α) : Except (AnalysisError α) (Event α) :=
  match JoinKind.ofCode? raw.joinType.toInt with
  | none => .error (.invalidJoinType raw.joinType)
  | some kind =>
    match Edge.ofCode? raw.joinTime.toInt with
    | none => .error (.invalidJoinTime raw.joinTime)
    | some edge =>
      match Stage.ofCode? raw.joinId.toInt with
      | none => .error (.invalidStage raw.joinId)
      | some stage => .ok ⟨kind,edge,stage,raw.heap,raw.time,raw.relative⟩

def decodeEvents {α : Type} (raw : List (RawEvent α)) :
    Except (AnalysisError α) (List (Event α)) :=
  raw.mapM RawEvent.decode

structure HeapHistory (α : Type) where
  heap : HeapId
  events : List (Event α)
  deriving DecidableEq

def HeapHistory.decode {α : Type} (heap : HeapId) (raw : List (RawEvent α)) :
    Except (AnalysisError α) (HeapHistory α) :=
  (decodeEvents raw).map (⟨heap,·⟩)

structure Cycle (α : Type) where
  gcNumber : UInt32
  heapCount : UInt32
  pause : α
  heaps : List (HeapHistory α)
  deriving DecidableEq

abbrev HeapJoinTimes (α : Type) := SortedMap HeapId (JoinTimes α)

abbrev LastDurations (α : Type) := SortedMap Stage (SortedMap HeapId α)

def HeapJoinTimes.lastDurations {α : Type} (all : HeapJoinTimes α) : LastDurations α :=
  (SortedMap.map (fun _ times => times.filterMap fun _ durations => durations.getLast?) all).transpose

namespace Cycle
variable {α : Type}

-- Join durations only mean something when several threads join each other.
def serverHeaps (cycle : Cycle α) : Failable (List (HeapHistory α)) :=
  if cycle.heapCount ≤ 1 then fail "join durations are only valid for server GC"
  else if cycle.heaps.isEmpty then fail "empty server GC heap histories"
  else .ok cycle.heaps

def eventLists (cycle : Cycle α) : List (HeapId × List (Event α)) :=
  cycle.heaps.map fun history => (history.heap,history.events)

variable [Scalar α]

def replayInto (policy : TrailingPolicy) (all : HeapJoinTimes α) (history : HeapHistory α) :
    Except (AnalysisError α) (HeapJoinTimes α) :=
  if (all.get? history.heap).isSome then .error (.duplicateHeap history.heap)
  else
    match JoinTrace.joinTimes history.heap history.events policy with
    | .error e => .error e
    | .ok times => .ok (all.insert history.heap times)

-- The outer error is malformed events, the inner failure a collection without joins to measure.
def joinTimes (cycle : Cycle α) (policy : TrailingPolicy) :
    Except (AnalysisError α) (Failable (HeapJoinTimes α)) :=
  match cycle.serverHeaps with
  | .error failure => .ok (.error failure)
  | .ok heaps =>
    match heaps.foldlM (replayInto policy) ∅ with
    | .error e => .error e
    | .ok all => .ok (.ok all)

def lastDurations (cycle : Cycle α) (policy : TrailingPolicy) :
    Except (AnalysisError α) (Failable (LastDurations α)) :=
  (cycle.joinTimes policy).map fun all => all.map HeapJoinTimes.lastDurations

end Cycle
end JoinTrace
