import JoinTrace.Replay
import JoinTrace.Scalar
import JoinTrace.SortedMap

namespace JoinTrace

structure Observation (α : Type) where
  stage : Stage
  duration : α
  deriving DecidableEq

inductive ReplayState where
  | initial | running | finished
  deriving DecidableEq

-- Gives one observation at a time and stops for good at the first error or at the end.
structure Replayer (α : Type) where
  heap : HeapId
  policy : TrailingPolicy
  trace : Replay.Trace α
  state : ReplayState
  truncatedStage : Option Stage

namespace Replayer
variable {α : Type}

def start (heap : HeapId) (events : List (Event α)) (policy : TrailingPolicy) : Replayer α :=
  ⟨heap,policy,.ofList events,.initial,none⟩

def opened (replayer : Replayer α) : Except (Replay.Stop α) (Replay.Trace α) :=
  match replayer.state with
  | .initial => Replay.passInitial replayer.heap replayer.trace
  | _ => .ok replayer.trace

def found (replayer : Replayer α) : Except (Replay.Stop α) (Replay.Finding α) :=
  match replayer.opened with
  | .error stop => .error stop
  | .ok trace => Replay.step replayer.heap trace

theorem keeps_opened (replayer : Replayer α) :
    Replay.Keeps replayer.trace id replayer.opened := by
  unfold opened
  split
  · exact Replay.keeps_passInitial replayer.heap replayer.trace
  · exact .passed (.refl _)

theorem opened_remaining {replayer : Replayer α} {trace : Replay.Trace α}
    (ready : replayer.opened = .ok trace) : trace.remaining ≤ replayer.trace.remaining := by
  have keeps := keeps_opened replayer
  rw [ready] at keeps
  exact keeps.follows.remaining

theorem found_joined_remaining {replayer : Replayer α} {first last : Event α}
    {trace : Replay.Trace α} (met : replayer.found = .ok (.joined first last trace)) :
    trace.remaining < replayer.trace.remaining := by
  unfold found at met
  split at met
  · cases met
  · rename_i ready
    exact Nat.lt_of_lt_of_le (Replay.step_joined_remaining met) (opened_remaining ready)

theorem keeps_found (replayer : Replayer α) :
    Replay.Keeps replayer.trace Replay.Finding.reached replayer.found := by
  have opens := keeps_opened replayer
  unfold found
  generalize replayer.opened = result at opens
  cases opens with
  | passed follows => exact (Replay.keeps_step replayer.heap _).behind follows
  | mismatched heap expected found follows => exact .mismatched heap expected found follows
  | unbalanced heap finding follows => exact .unbalanced heap finding follows

variable [Scalar α]

def next (replayer : Replayer α) :
    Option (Except (AnalysisError α) (Observation α)) × Replayer α :=
  if replayer.state = .finished then (none,replayer)
  else
    match replayer.found with
    | .error stop =>
      (some (.error stop.error),{ replayer with trace := stop.trace, state := .finished })
    | .ok (.joined first last trace) =>
      (some (.ok ⟨first.stage,last.time - first.time⟩),
        { replayer with trace := trace, state := .running })
    | .ok (.exhausted trace) => (none,{ replayer with trace := trace, state := .finished })
    | .ok (.unended first trace) =>
      if replayer.policy.tolerates first.stage then
        (none,{ replayer with
          trace := trace, state := .finished, truncatedStage := some first.stage })
      else
        (some (.error (.truncated replayer.heap first.stage)),
          { replayer with trace := trace, state := .finished })

theorem next_observed_remaining {replayer after : Replayer α} {seen : Observation α}
    (gave : replayer.next = (some (.ok seen),after)) :
    after.trace.remaining < replayer.trace.remaining := by
  unfold next at gave
  split at gave
  · cases gave
  · split at gave
    · cases gave
    · rename_i met
      cases gave
      exact found_joined_remaining met
    · cases gave
    · split at gave <;> cases gave

def run (replayer : Replayer α) :
    List (Observation α) × Option (AnalysisError α) × Replayer α :=
  match _gave : replayer.next with
  | (none,after) => ([],none,after)
  | (some (.error e),after) => ([],some e,after)
  | (some (.ok seen),after) =>
    let (later,failure,final) := after.run
    (seen :: later,failure,final)
termination_by replayer.trace.remaining
decreasing_by exact next_observed_remaining ‹_›

end Replayer

abbrev JoinTimes (α : Type) := SortedMap Stage (List α)

namespace JoinTimes
variable {α : Type}

def record (times : JoinTimes α) (seen : Observation α) : JoinTimes α :=
  times.upsert seen.stage fun earlier => earlier.getD [] ++ [seen.duration]

def ofObservations (seen : List (Observation α)) : JoinTimes α := seen.foldl record ∅

def durations (times : JoinTimes α) : List α := times.values.flatten

end JoinTimes

def joinTimes {α : Type} [Scalar α] (heap : HeapId) (events : List (Event α))
    (policy : TrailingPolicy) : Except (AnalysisError α) (JoinTimes α) :=
  match (Replayer.start heap events policy).run with
  | (_,some e,_) => .error e
  | (seen,none,_) => .ok (.ofObservations seen)

end JoinTrace
