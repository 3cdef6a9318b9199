import JoinTrace.Proofs.ReplayPrefix

-- The replay as a scan that reads its list event by event and never looks back. What the readers of
-- the replay look ahead for the scan remembers, so the index of a refusal is that of the event it
-- stands at.
namespace JoinTrace

inductive Passage where
  | untouched | entered | left

inductive Stand (α : Type) where
  | unopened
  | opening
  | initial (start : Event α)
  -- A join start is due. While `loose` the end of another heap's restart may come before it.
  | ready (loose : Bool)
  | waiting (start : Event α) (passage : Passage)
  | alone (start : Event α)
  | restarting (start : Event α)

namespace Stand
open Replay
variable {α : Type}

abbrev Reading (α : Type) := Except (AnalysisError α) (List (Observation α) × Stand α)

def refuse (heap : HeapId) (index : Nat) (finding : Imbalance) : Reading α :=
  .error (.unbalanced heap index finding)

def passStage (heap : HeapId) (expected : Stage) (event : Event α) (next : Stand α) : Reading α :=
  (expectStage heap expected event).map fun _ => ([],next)

def beginJoin (heap : HeapId) (index : Nat) (event : Event α) : Reading α :=
  if event.isRestartStart then .ok ([],.ready true)
  else if event.edge = .start then
    match event.kind with
    | .lastJoin | .firstRJoin => .ok ([],.alone event)
    | .join => .ok ([],.waiting event .untouched)
    | .restart => refuse heap index .restartAsJoin
  else refuse heap index (.strayEnd event.kind event.stage)

def completed [Scalar α] (start finish : Event α) : List (Observation α) :=
  [⟨start.stage,finish.time - start.time⟩]

variable [Scalar α]

def endJoin (heap : HeapId) (index : Nat) (start event : Event α) : Reading α :=
  if event.isJoinEnd then
    (expectStage heap start.stage event).map fun _ => (completed start event,.ready true)
  else refuse heap index (.noJoinEnd start.stage event.kind event.edge event.stage)

def advance (heap : HeapId) (index : Nat) (event : Event α) : Stand α → Reading α
  | .unopened =>
    if event.isRestartStart then .ok ([],.opening)
    else if event.isJoinStart then passStage heap .generationDetermined event (.initial event)
    else if event.isJoinEnd then passStage heap .generationDetermined event (.ready false)
    else refuse heap index (.strayOpening event.kind event.edge event.stage)
  | .opening =>
    if event.isJoinEnd then passStage heap .generationDetermined event .opening
    else if event.isRestartEnd then .ok ([],.opening)
    else beginJoin heap index event
  | .initial _ =>
    if event.isJoinEnd then passStage heap .generationDetermined event (.ready false)
    else refuse heap index (.initialNotEnded event.kind event.edge)
  | .ready loose =>
    if loose && event.isRestartEnd then .ok ([],.ready false) else beginJoin heap index event
  | .waiting start .untouched =>
    if event.isRestartStart then .ok ([],.waiting start .entered)
    else endJoin heap index start event
  | .waiting start .entered =>
    if event.isRestartEnd then .ok ([],.waiting start .left) else endJoin heap index start event
  | .waiting start .left => endJoin heap index start event
  | .alone start =>
    if event.isRestartStart then .ok ([],.restarting start)
    else refuse heap index (.noRestartStart event.kind event.edge event.stage)
  | .restarting start =>
    if event.isRestartEnd then .ok (completed start event,.ready false)
    else refuse heap index (.noRestartEnd event.kind event.edge event.stage)

def unendedError (heap : HeapId) (policy : TrailingPolicy) (stage : Stage) :
    Option (AnalysisError α) :=
  if policy.tolerates stage then none else some (.truncated heap stage)

def stop (heap : HeapId) (policy : TrailingPolicy) (index : Nat) : Stand α → Option (AnalysisError α)
  | .initial _ => some (.unbalanced heap index .initialWithoutEnd)
  | .waiting start _ | .alone start | .restarting start => unendedError heap policy start.stage
  | .unopened | .opening | .ready _ => none

-- What an event can come to at a stand: it leads to a later one, or it is refused. Only the place that
-- an imbalance names depends on that of the event.
inductive Reads (heap : HeapId) (reading : Nat → Reading α) : Prop where
  | moved {seen : List (Observation α)} {next : Stand α} (entered : next ≠ .unopened)
      (same : ∀ index, reading index = .ok (seen,next)) : Reads heap reading
  | mismatched {expected found : Stage}
      (same : ∀ index, reading index = .error (.stageMismatch heap expected found)) :
      Reads heap reading
  | refused {finding : Imbalance} (same : ∀ index, reading index = refuse heap index finding) :
      Reads heap reading

section Reads
omit [Scalar α]

theorem Reads.ite {first second : Nat → Reading α} {test : Prop} [Decidable test]
    (yes : Reads heap first) (no : Reads heap second) :
    Reads heap fun index => if test then first index else second index := by
  by_cases holds : test
  · simpa only [if_pos holds] using yes
  · simpa only [if_neg holds] using no

theorem reads_next {seen : List (Observation α)} {next : Stand α} (entered : next ≠ .unopened) :
    Reads heap fun _ => .ok (seen,next) := .moved entered fun _ => rfl

theorem reads_refuse (finding : Imbalance) :
    Reads heap fun index => (refuse heap index finding : Reading α) := .refused fun _ => rfl

theorem reads_expectStage (expected : Stage) (event : Event α) (seen : List (Observation α))
    {next : Stand α} (entered : next ≠ .unopened) :
    Reads heap fun _ => (expectStage heap expected event).map fun _ => (seen,next) := by
  unfold expectStage
  split
  · exact reads_next entered
  · exact .mismatched fun _ => rfl

theorem reads_beginJoin (event : Event α) : Reads heap fun index => beginJoin heap index event := by
  have starts : Reads heap fun index => match event.kind with
      | .lastJoin | .firstRJoin => .ok ([],.alone event)
      | .join => .ok ([],.waiting event .untouched)
      | .restart => refuse heap index .restartAsJoin := by
    cases event.kind with
    | lastJoin | firstRJoin | join => exact reads_next nofun
    | restart => exact reads_refuse _
  exact .ite (reads_next nofun) (.ite starts (reads_refuse _))

end Reads

theorem reads_endJoin (start event : Event α) :
    Reads heap fun index => endJoin heap index start event :=
  .ite (reads_expectStage _ _ _ nofun) (reads_refuse _)

theorem reads_advance (heap : HeapId) (event : Event α) (stand : Stand α) :
    Reads heap fun index => stand.advance heap index event := by
  cases stand with
  | unopened =>
    exact .ite (reads_next nofun) (.ite (reads_expectStage _ _ _ nofun)
      (.ite (reads_expectStage _ _ _ nofun) (reads_refuse _)))
  | opening =>
    exact .ite (reads_expectStage _ _ _ nofun) (.ite (reads_next nofun) (reads_beginJoin event))
  | initial start => exact .ite (reads_expectStage _ _ _ nofun) (reads_refuse _)
  | ready loose => exact .ite (reads_next nofun) (reads_beginJoin event)
  | waiting start passage =>
    cases passage with
    | untouched | entered => exact .ite (reads_next nofun) (reads_endJoin start event)
    | left => exact reads_endJoin start event
  | alone start | restarting start => exact .ite (reads_next nofun) (reads_refuse _)

end Stand

abbrev Outcome (α : Type) := List (Observation α) × Option (AnalysisError α)

def Outcome.following {α : Type} (outcome : Outcome α) (seen : List (Observation α)) : Outcome α :=
  (seen ++ outcome.1,outcome.2)

@[simp] theorem Outcome.following_nil {α : Type} (outcome : Outcome α) :
    outcome.following [] = outcome := rfl

def Replayer.outcome {α : Type} [Scalar α] (replayer : Replayer α) : Outcome α :=
  (replayer.run.1,replayer.run.2.1)

variable {α : Type} [Scalar α] {heap : HeapId} {policy : TrailingPolicy}

def scan (heap : HeapId) (policy : TrailingPolicy) (stand : Stand α) (index : Nat) :
    List (Event α) → Outcome α
  | [] => ([],stand.stop heap policy index)
  | event :: rest =>
    match stand.advance heap (index+1) event with
    | .error e => ([],some e)
    | .ok (seen,next) => (scan heap policy next (index+1) rest).following seen

namespace Replay
open Stand

def scanned (heap : HeapId) (policy : TrailingPolicy) (stand : Stand α) (trace : Trace α) :
    Outcome α :=
  scan heap policy stand trace.position trace.ahead

def proceed (heap : HeapId) (policy : TrailingPolicy) (after : Trace α) : Reading α → Outcome α
  | .error e => ([],some e)
  | .ok (seen,next) => (scanned heap policy next after).following seen

theorem scanned_end {trace : Trace α} (stand : Stand α) (ended : trace.next = none) :
    scanned heap policy stand trace = ([],stand.stop heap policy trace.position) := by
  rw [scanned,Cursor.next_eq_none.mp ended,scan]

theorem scanned_read {trace after : Trace α} {event : Event α} (stand : Stand α)
    (read : trace.next = some (event,after)) :
    scanned heap policy stand trace =
      proceed heap policy after (stand.advance heap after.position event) := by
  obtain ⟨ahead,behind,_⟩ := Cursor.next_eq_some read
  have further : after.position = trace.position+1 := by simp [Cursor.position,behind]
  rw [scanned,ahead,scan,further]
  unfold proceed scanned
  rw [further]

theorem proceed_over (after : Trace α) (next : Stand α) :
    proceed heap policy after (.ok ([],next)) = scanned heap policy next after := rfl

theorem proceed_passStage {after : Trace α} {event : Event α} (expected : Stage) (next : Stand α) :
    proceed heap policy after (passStage heap expected event next) =
      match expectStage heap expected event with
      | .error e => ([],some e)
      | .ok () => scanned heap policy next after := by
  unfold passStage
  cases expectStage heap expected event <;> rfl

-- An event that a reader gives back is read again by the next reader.
theorem scanned_back {trace after : Trace α} {event : Event α} (stand : Stand α)
    (read : trace.next = some (event,after)) :
    scanned heap policy stand { trace with canStepBack := false } =
      proceed heap policy after (stand.advance heap after.position event) :=
  scanned_read stand read

theorem scanned_passRestartEnd {trace after : Trace α} (passed : passRestartEnd trace = .ok after) :
    scanned heap policy (.ready true) trace = scanned heap policy (.ready false) after := by
  cases read : trace.next with
  | none =>
    simp only [passRestartEnd,read] at passed
    cases passed
    rw [scanned_end _ read,scanned_end _ read]
    rfl
  | some seen =>
    obtain ⟨event,rest⟩ := seen
    simp only [passRestartEnd,read,giveBack_read read] at passed
    rw [scanned_read _ read]
    split at passed
    · rename_i ends
      cases passed
      simp [advance,ends,proceed]
    · rename_i other
      cases passed
      rw [scanned_back _ read]
      simp [advance,other]

def opened (heap : HeapId) (policy : TrailingPolicy) :
    Except (Stop α) (Trace α) → Outcome α
  | .error stop => ([],some stop.error)
  | .ok trace => scanned heap policy (.ready false) trace

theorem scanned_passOpening (heap : HeapId) (trace : Trace α) :
    scanned heap policy .opening trace = opened heap policy (passOpening heap trace) := by
  fun_induction passOpening heap trace with
  | case1 trace read => rw [opened,scanned_end _ read,scanned_end _ read]; rfl
  | case2 trace event after read ends e refused =>
    rw [scanned_read _ read,advance,if_pos ends,proceed_passStage,refused]
    rfl
  | case3 trace event after read ends checked ih =>
    rw [scanned_read _ read,advance,if_pos ends,proceed_passStage,checked]
    exact ih
  | case4 trace event after read other ends ih =>
    rw [scanned_read _ read,advance,if_neg other,if_pos ends]
    exact ih
  | case5 trace event after read other further =>
    rw [giveBack_read read,opened,scanned_back _ read,scanned_read _ read,advance,if_neg other,
      if_neg further]
    rfl

theorem scanned_passInitial (heap : HeapId) (trace : Trace α) :
    scanned heap policy .unopened trace = opened heap policy (passInitial heap trace) := by
  cases read : trace.next with
  | none =>
    simp only [passInitial,read]
    rw [opened,scanned_end _ read,scanned_end _ read]
    rfl
  | some seen =>
    obtain ⟨first,after⟩ := seen
    simp only [passInitial,read]
    rw [scanned_read _ read,advance]
    split
    · exact scanned_passOpening heap after
    · split
      · rw [proceed_passStage]
        cases expectStage heap .generationDetermined first with
        | error e => rfl
        | ok =>
          cases reread : after.next with
          | none => exact scanned_end _ reread
          | some seen =>
            obtain ⟨last,rest⟩ := seen
            simp only [scanned_read _ reread,advance]
            split
            · rw [proceed_passStage]
              cases expectStage heap .generationDetermined last <;> rfl
            · rfl
      · split
        · rw [proceed_passStage]
          cases expectStage heap .generationDetermined first <;> rfl
        · rfl

def settled (heap : HeapId) (policy : TrailingPolicy) :
    Except (Stop α) (Finding α) → Outcome α
  | .error stop => ([],some stop.error)
  | .ok (.joined start last rest) =>
    (scanned heap policy (.ready false) rest).following (completed start last)
  | .ok (.unended start _) => ([],unendedError heap policy start.stage)
  | .ok (.exhausted _) => ([],none)

def settledEnd (heap : HeapId) (policy : TrailingPolicy) (start : Event α)
    (ended : Except (Stop α) (Option (Event α) × Trace α)) : Outcome α :=
  settled heap policy (ended.map fun found => .ofEnd start found.2 found.1)

theorem scanned_restartPairEnd (start : Event α) (trace : Trace α) :
    scanned heap policy (.alone start) trace =
      settledEnd heap policy start (restartPairEnd heap trace) := by
  cases read : trace.next with
  | none =>
    simp only [restartPairEnd,read]
    exact scanned_end _ read
  | some seen =>
    obtain ⟨first,after⟩ := seen
    simp only [restartPairEnd,read]
    rw [scanned_read _ read,advance]
    split
    · cases reread : after.next with
      | none => exact scanned_end _ reread
      | some seen =>
        obtain ⟨last,rest⟩ := seen
        rw [proceed_over,scanned_read _ reread,advance]
        dsimp only
        split <;> rfl
    · rfl

theorem proceed_endJoin (start last : Event α) (rest : Trace α) :
    proceed heap policy rest (endJoin heap rest.position start last) =
      settledEnd heap policy start (if last.isJoinEnd then
        match expectStage heap start.stage last with
        | .error e => .error ⟨e,rest⟩
        | .ok () =>
          match passRestartEnd rest with
          | .error stop => .error stop
          | .ok rest => .ok (some last,rest)
      else unbalanced heap rest (.noJoinEnd start.stage last.kind last.edge last.stage)) := by
  unfold endJoin
  split
  · cases expectStage heap start.stage last with
    | error e => rfl
    | ok =>
      obtain ⟨after,passed⟩ := passRestartEnd_ok rest
      simp only [passed]
      exact congrArg (Outcome.following · _) (scanned_passRestartEnd passed)
  · rfl

theorem scanned_waiting {start : Event α} (waits : start.kind = .join) (trace : Trace α) :
    scanned heap policy (.waiting start .untouched) trace =
      settledEnd heap policy start (endOf heap start trace) := by
  unfold endOf nextBeyondRestart
  simp only [waits]
  cases read : trace.next with
  | none => exact scanned_end _ read
  | some seen =>
    obtain ⟨first,after⟩ := seen
    rw [scanned_read _ read,advance]
    dsimp only
    split
    · cases reread : after.next with
      | none => exact scanned_end _ reread
      | some seen =>
        obtain ⟨second,rest⟩ := seen
        rw [proceed_over,scanned_read _ reread,advance]
        dsimp only
        split
        · cases final : rest.next with
          | none => exact scanned_end _ final
          | some seen =>
            obtain ⟨third,last⟩ := seen
            rw [proceed_over,scanned_read _ final,advance]
            exact proceed_endJoin start third last
        · exact proceed_endJoin start second rest
    · exact proceed_endJoin start first after

theorem scanned_step (heap : HeapId) (trace : Trace α) :
    scanned heap policy (.ready false) trace = settled heap policy (step heap trace) := by
  cases read : trace.next with
  | none =>
    rw [step_end read,scanned_end _ read]
    rfl
  | some seen =>
    obtain ⟨start,after⟩ := seen
    rw [scanned_read _ read]
    by_cases foreign : start.isRestartStart
    · obtain ⟨rest,passed⟩ := passRestartEnd_ok after
      rw [step_foreign read foreign passed,← scanned_step heap rest,
        ← scanned_passRestartEnd passed]
      simp [advance,beginJoin,foreign,proceed]
    · rw [step_own read foreign]
      simp only [advance,Bool.false_and,Bool.false_eq_true,if_false,beginJoin,if_neg foreign]
      split
      · cases kind : start.kind with
        | lastJoin =>
          have ends : endOf heap start after = restartPairEnd heap after := by simp [endOf,kind]
          rw [ends]
          exact scanned_restartPairEnd start after
        | firstRJoin =>
          have ends : endOf heap start after = restartPairEnd heap after := by simp [endOf,kind]
          rw [ends]
          exact scanned_restartPairEnd start after
        | join => exact scanned_waiting kind after
        | restart => simp [endOf,kind,refuse,proceed,unbalanced,settled,Except.map]
      · rfl
termination_by trace.remaining
decreasing_by
  exact Nat.lt_of_le_of_lt (follows_passRestartEnd ‹_›).remaining (Cursor.next_remaining ‹_›)

end Replay

namespace Replayer
open Replay

theorem outcome_settled (replayer : Replayer α) (live : replayer.state ≠ .finished) :
    replayer.outcome = settled replayer.heap replayer.policy replayer.found := by
  unfold outcome
  rw [run_found replayer live]
  cases met : replayer.found with
  | error stop => rfl
  | ok finding =>
    cases finding with
    | joined start last trace =>
      have rest := outcome_settled { replayer with trace := trace, state := .running } (by simp)
      rw [show Replayer.found _ = step replayer.heap trace from rfl,← scanned_step] at rest
      exact congrArg (Outcome.following · (Stand.completed start last)) rest
    | exhausted trace => rfl
    | unended start trace =>
      simp only [settled,Stand.unendedError]
      split <;> rfl
termination_by replayer.trace.remaining
decreasing_by exact found_joined_remaining met

-- The replay of a list gives what the scan gives.
theorem outcome_scan (heap : HeapId) (events : List (Event α)) (policy : TrailingPolicy) :
    (start heap events policy).outcome = scan heap policy .unopened 0 events := by
  rw [outcome_settled _ (start_live heap events policy)]
  have passed : scanned heap policy .unopened (.ofList events) =
      Replay.opened heap policy (passInitial heap (.ofList events)) := scanned_passInitial heap _
  refine Eq.trans ?_ passed.symm
  change settled heap policy (match passInitial heap (.ofList events) with
    | .error stop => .error stop
    | .ok trace => step heap trace) = _
  cases passInitial heap (.ofList events) with
  | error stop => rfl
  | ok trace => exact (scanned_step heap trace).symm

end Replayer
end JoinTrace
