import JoinTrace.Proofs.ReplayPrefix
import JoinTrace.Statistics
import JoinTrace.Summary

-- A replay looks at what its events are and not at when. Given other times it meets the same
-- joins and refuses the same events, and as long as the distances between times are kept, all
-- that is computed from durations stays the same.
namespace JoinTrace

namespace Cursor
variable {ε δ : Type} (f : ε → δ) (cursor : Cursor ε)

def map : Cursor δ := ⟨cursor.behind.map f,cursor.ahead.map f,cursor.canStepBack⟩

theorem next_map : (cursor.map f).next = cursor.next.map fun read => (f read.1,read.2.map f) := by
  obtain ⟨behind,ahead,canStepBack⟩ := cursor
  cases ahead <;> rfl

theorem stepBack_map : (cursor.map f).stepBack = cursor.stepBack.map (·.map f) := by
  obtain ⟨behind,ahead,canStepBack⟩ := cursor
  cases canStepBack <;> cases behind <;> rfl

@[simp] theorem position_map : (cursor.map f).position = cursor.position := List.length_map f

end Cursor

variable {α : Type}

namespace Event

def retime (g : α → α) (event : Event α) : Event α := { event with time := g event.time }

variable (g : α → α) (event : Event α)

@[simp] theorem retime_kind : (event.retime g).kind = event.kind := rfl
@[simp] theorem retime_edge : (event.retime g).edge = event.edge := rfl
@[simp] theorem retime_stage : (event.retime g).stage = event.stage := rfl
@[simp] theorem retime_time : (event.retime g).time = g event.time := rfl
@[simp] theorem retime_isRestartStart : (event.retime g).isRestartStart = event.isRestartStart := rfl
@[simp] theorem retime_isRestartEnd : (event.retime g).isRestartEnd = event.isRestartEnd := rfl
@[simp] theorem retime_isJoinStart : (event.retime g).isJoinStart = event.isJoinStart := rfl
@[simp] theorem retime_isJoinEnd : (event.retime g).isJoinEnd = event.isJoinEnd := rfl
@[simp] theorem retime_isSingleThreadedStart :
    (event.retime g).isSingleThreadedStart = event.isSingleThreadedStart := rfl

end Event

namespace Replay
variable (g : α → α)

def retimed (trace : Trace α) : Trace α := trace.map (·.retime g)

def retimedRead (read : Option (Event α) × Trace α) : Option (Event α) × Trace α :=
  (read.1.map (·.retime g),retimed g read.2)

def Stop.retime (stop : Stop α) : Stop α := { stop with trace := retimed g stop.trace }

-- What a reader comes to when the trace is on the other clock, if `f` does the same to its result.
def retimedResult {β γ : Type} (f : β → γ) : Except (Stop α) β → Except (Stop α) γ
  | .error stop => .error (stop.retime g)
  | .ok result => .ok (f result)

@[simp] theorem retimedResult_error {β γ : Type} (f : β → γ) (stop : Stop α) :
    retimedResult g f (.error stop) = .error (stop.retime g) := rfl

@[simp] theorem retimedResult_ok {β γ : Type} (f : β → γ) (result : β) :
    retimedResult g f (.ok result) = .ok (f result) := rfl

def Finding.retime : Finding α → Finding α
  | .joined start last trace => .joined (start.retime g) (last.retime g) (retimed g trace)
  | .unended start trace => .unended (start.retime g) (retimed g trace)
  | .exhausted trace => .exhausted (retimed g trace)

theorem next_retimed (trace : Trace α) :
    (retimed g trace).next = trace.next.map fun read => (read.1.retime g,retimed g read.2) :=
  Cursor.next_map _ trace

@[simp] theorem retimedResult_unbalanced {β γ : Type} (heap : HeapId) (trace : Trace α)
    (finding : Imbalance) (f : β → γ) :
    retimedResult g f (unbalanced heap trace finding) =
      unbalanced heap (retimed g trace) finding := by
  rw [unbalanced,unbalanced,retimed,Cursor.position_map]
  rfl

@[simp] theorem expectStage_retime (heap : HeapId) (expected : Stage) (event : Event α) :
    expectStage heap expected (event.retime g) = expectStage heap expected event := rfl

theorem giveBack_retimed (trace : Trace α) :
    giveBack (retimed g trace) = retimedResult g (retimed g) (giveBack trace) := by
  unfold giveBack retimed
  rw [Cursor.stepBack_map,Cursor.position_map]
  cases trace.stepBack <;> rfl

theorem passRestartEnd_retimed (trace : Trace α) :
    passRestartEnd (retimed g trace) = retimedResult g (retimed g) (passRestartEnd trace) := by
  unfold passRestartEnd
  rw [next_retimed]
  cases trace.next with
  | none => rfl
  | some read =>
    by_cases ends : read.1.isRestartEnd
    · simp [ends]
    · simp [ends,giveBack_retimed]

theorem passOpening_retimed (heap : HeapId) (trace : Trace α) :
    passOpening heap (retimed g trace) = retimedResult g (retimed g) (passOpening heap trace) := by
  have reread {trace after : Trace α} {event : Event α} (read : trace.next = some (event,after)) :
      (retimed g trace).next = some (event.retime g,retimed g after) := by
    rw [next_retimed,read]
    rfl
  fun_induction passOpening heap trace with
  | case1 trace ended => exact passOpening_end (by rw [next_retimed,ended]; rfl)
  | case2 trace event next read isEnd e refused =>
    simp [passOpening_read (reread read),isEnd,refused,Stop.retime]
  | case3 trace event next read isEnd checked ih =>
    simp [passOpening_read (reread read),isEnd,checked,ih]
  | case4 trace event next read isOther isEnd ih =>
    simp [passOpening_read (reread read),isOther,isEnd,ih]
  | case5 trace event next read isOther notEnd =>
    simp [passOpening_read (reread read),isOther,notEnd,giveBack_retimed]

theorem passInitial_retimed (heap : HeapId) (trace : Trace α) :
    passInitial heap (retimed g trace) = retimedResult g (retimed g) (passInitial heap trace) := by
  unfold passInitial
  rw [next_retimed]
  cases trace.next with
  | none => rfl
  | some first =>
    by_cases leads : first.1.isRestartStart
    · simp [leads,passOpening_retimed]
    · by_cases starts : first.1.isJoinStart
      · cases checked : expectStage heap .generationDetermined first.1 with
        | error e => simp [leads,starts,checked,Stop.retime]
        | ok =>
          cases read : first.2.next with
          | none => simp [leads,starts,checked,next_retimed,read]
          | some last =>
            by_cases ends : last.1.isJoinEnd
            · cases same : expectStage heap .generationDetermined last.1 <;>
                simp [leads,starts,checked,next_retimed,read,ends,same,Stop.retime]
            · simp [leads,starts,checked,next_retimed,read,ends]
      · by_cases ends : first.1.isJoinEnd
        · cases checked : expectStage heap .generationDetermined first.1 <;>
            simp [leads,starts,ends,checked,Stop.retime]
        · simp [leads,starts,ends]

theorem nextBeyondRestart_retimed (trace : Trace α) :
    nextBeyondRestart (retimed g trace) = retimedRead g (nextBeyondRestart trace) := by
  unfold nextBeyondRestart
  rw [next_retimed]
  cases trace.next with
  | none => rfl
  | some first =>
    by_cases starts : first.1.isRestartStart
    · cases read : first.2.next with
      | none => simp [starts,next_retimed,read,retimedRead]
      | some second =>
        by_cases ends : second.1.isRestartEnd
        · cases reread : second.2.next <;>
            simp [starts,next_retimed,read,ends,reread,retimedRead]
        · simp [starts,next_retimed,read,ends,retimedRead]
    · simp [starts,retimedRead]

theorem restartPairEnd_retimed (heap : HeapId) (trace : Trace α) :
    restartPairEnd heap (retimed g trace) =
      retimedResult g (retimedRead g) (restartPairEnd heap trace) := by
  unfold restartPairEnd
  rw [next_retimed]
  cases trace.next with
  | none => rfl
  | some first =>
    by_cases starts : first.1.isRestartStart
    · cases read : first.2.next with
      | none => simp [starts,next_retimed,read,retimedRead]
      | some last =>
        by_cases ends : last.1.isRestartEnd
        · simp [starts,next_retimed,read,ends,retimedRead]
        · simp [starts,next_retimed,read,ends]
    · simp [starts]

theorem endOf_retimed (heap : HeapId) (start : Event α) (trace : Trace α) :
    endOf heap (start.retime g) (retimed g trace) =
      retimedResult g (retimedRead g) (endOf heap start trace) := by
  unfold endOf
  cases kind : start.kind with
  | lastJoin => simp only [Event.retime_kind,kind,restartPairEnd_retimed]
  | firstRJoin => simp only [Event.retime_kind,kind,restartPairEnd_retimed]
  | restart => simp [kind]
  | join =>
    rcases read : nextBeyondRestart trace with ⟨found,rest⟩
    cases found with
    | none => simp [kind,nextBeyondRestart_retimed,read,retimedRead]
    | some last =>
      by_cases ends : last.isJoinEnd
      · cases checked : expectStage heap start.stage last with
        | error e => simp [kind,nextBeyondRestart_retimed,read,retimedRead,ends,checked,Stop.retime]
        | ok =>
          cases passed : passRestartEnd rest <;>
            simp [kind,nextBeyondRestart_retimed,read,retimedRead,ends,checked,
              passRestartEnd_retimed,passed,Stop.retime]
      · simp [kind,nextBeyondRestart_retimed,read,retimedRead,ends]

theorem step_retimed (heap : HeapId) (trace : Trace α) :
    step heap (retimed g trace) = retimedResult g (Finding.retime g) (step heap trace) := by
  have reread {trace after : Trace α} {event : Event α} (read : trace.next = some (event,after)) :
      (retimed g trace).next = some (event.retime g,retimed g after) := by
    rw [next_retimed,read]
    rfl
  fun_induction step heap trace with
  | case1 trace ended => exact step_end (by rw [next_retimed,ended]; rfl)
  | case2 trace start after read leads e refused =>
    obtain ⟨_,passed⟩ := passRestartEnd_ok after
    cases passed.symm.trans refused
  | case3 trace start after read leads rest passed ih =>
    have passed' : passRestartEnd (retimed g after) = .ok (retimed g rest) := by
      rw [passRestartEnd_retimed,passed]
      rfl
    rw [step_foreign (reread read) leads passed',ih]
  | case4 trace start after read own starts e refused =>
    rw [step_own (reread read) own,Event.retime_edge,if_pos starts,endOf_retimed,refused]
    rfl
  | case5 trace start after read own starts rest ended =>
    rw [step_own (reread read) own,Event.retime_edge,if_pos starts,endOf_retimed,ended]
    rfl
  | case6 trace start after read own starts last rest ended =>
    rw [step_own (reread read) own,Event.retime_edge,if_pos starts,endOf_retimed,ended]
    rfl
  | case7 trace start after read own ends =>
    rw [step_own (reread read) own,Event.retime_edge,if_neg ends,retimedResult_unbalanced]
    rfl

end Replay

namespace Replayer

def retime (g : α → α) (replayer : Replayer α) : Replayer α :=
  { replayer with trace := Replay.retimed g replayer.trace }

theorem opened_retime (g : α → α) (replayer : Replayer α) :
    (replayer.retime g).opened = Replay.retimedResult g (Replay.retimed g) replayer.opened := by
  obtain ⟨heap,policy,trace,state,truncated⟩ := replayer
  cases state with
  | initial => exact Replay.passInitial_retimed g heap trace
  | running => rfl
  | finished => rfl

theorem found_retime (g : α → α) (replayer : Replayer α) :
    (replayer.retime g).found = Replay.retimedResult g (Replay.Finding.retime g) replayer.found := by
  unfold found
  rw [opened_retime]
  cases replayer.opened with
  | error e => rfl
  | ok trace => exact Replay.step_retimed g replayer.heap trace

end Replayer

structure Shift [Scalar α] (g : α → α) : Prop where
  distance : ∀ x y, g y - g x = y - x
  order : ∀ x y, Scalar.lt (g x) (g y) = Scalar.lt x y
  earlier : ∀ x y, Scalar.min (g x) (g y) = g (Scalar.min x y)
  later : ∀ x y, Scalar.max (g x) (g y) = g (Scalar.max x y)

section Shift
variable [Scalar α] {g : α → α} (shift : Shift g)
include shift

theorem Replayer.run_retime (replayer : Replayer α) (live : replayer.state ≠ .finished) :
    (replayer.retime g).run = (replayer.run.1,replayer.run.2.1,replayer.run.2.2.retime g) := by
  rw [run_found replayer live,run_found (replayer.retime g) live,found_retime]
  cases met : replayer.found with
  | error e => rfl
  | ok finding =>
    cases finding with
    | joined start last trace =>
      have rest := run_retime { replayer with trace := trace, state := .running } (by simp)
      simp only [retime] at rest
      simp only [Replay.retimedResult,Replay.Finding.retime,retime,Event.retime_stage,Event.retime_time,
        shift.distance,rest]
    | exhausted trace => rfl
    | unended start trace =>
      by_cases tolerated : replayer.policy.tolerates start.stage
      · simp [Replay.retimedResult,Replay.Finding.retime,retime,tolerated]
      · simp [Replay.retimedResult,Replay.Finding.retime,retime,tolerated]
termination_by replayer.trace.remaining
decreasing_by exact found_joined_remaining met

theorem joinTimes_retime (heap : HeapId) (events : List (Event α)) (policy : TrailingPolicy) :
    joinTimes heap (events.map (·.retime g)) policy = joinTimes heap events policy := by
  have run := Replayer.run_retime shift _ (Replayer.start_live heap events policy)
  have started : Replayer.start heap (events.map (·.retime g)) policy =
      (Replayer.start heap events policy).retime g := rfl
  unfold joinTimes
  rw [started,run]
  rcases (Replayer.start heap events policy).run with ⟨seen,failure,final⟩
  cases failure <;> rfl

end Shift

def HeapHistory.retime (g : α → α) (history : HeapHistory α) : HeapHistory α :=
  { history with events := history.events.map (·.retime g) }

def Cycle.retime (g : α → α) (cycle : Cycle α) : Cycle α :=
  { cycle with pause := g cycle.pause, heaps := cycle.heaps.map (·.retime g) }

theorem Cycle.serverHeaps_retime (g : α → α) (cycle : Cycle α) :
    (cycle.retime g).serverHeaps = cycle.serverHeaps.map (·.map (·.retime g)) := by
  simp only [serverHeaps,retime,List.isEmpty_map]
  split
  · rfl
  · split <;> rfl

section Shift
variable [Scalar α] {g : α → α} (shift : Shift g)
include shift

theorem Cycle.joinTimes_retime (cycle : Cycle α) (policy : TrailingPolicy) :
    (cycle.retime g).joinTimes policy = cycle.joinTimes policy := by
  have each (all : HeapJoinTimes α) (history : HeapHistory α) :
      replayInto policy all (history.retime g) = replayInto policy all history := by
    simp only [replayInto,HeapHistory.retime,JoinTrace.joinTimes_retime shift]
  unfold joinTimes
  rw [serverHeaps_retime]
  cases cycle.serverHeaps with
  | error failure => rfl
  | ok heaps => simp only [Except.map,List.foldlM_map,each]

theorem Statistics.compute_retime (cycle : Cycle α) (table : PhaseTable)
    (policy : TrailingPolicy) :
    Statistics.compute (cycle.retime g) table policy = Statistics.compute cycle table policy := by
  rw [compute,compute,Cycle.joinTimes_retime shift]

theorem HeapSummary.ofHistory_retime (history : HeapHistory α) (table : PhaseTable)
    (policy : TrailingPolicy) : ofHistory (history.retime g) table policy =
      ofHistory history table policy := by
  have alone : (history.retime g).events.any Event.isSingleThreadedStart =
      history.events.any Event.isSingleThreadedStart := List.any_map
  have same : ofJoinTimes (history.retime g) table = ofJoinTimes history table := by
    funext times
    simp only [ofJoinTimes,alone]
    rfl
  rw [ofHistory,ofHistory,same]
  exact congrArg (Except.map _) (JoinTrace.joinTimes_retime shift ..)

theorem CycleSummary.ofCycle_retime (cycle : Cycle α) (table : PhaseTable)
    (policy : TrailingPolicy) : ofCycle (cycle.retime g) table policy =
      ofCycle cycle table policy := by
  unfold ofCycle
  rw [Cycle.serverHeaps_retime]
  cases cycle.serverHeaps with
  | error failure => rfl
  | ok heaps =>
    simp only [Except.map,List.mapM_map,Function.comp_def,HeapSummary.ofHistory_retime shift]
    rfl

end Shift
end JoinTrace
