import JoinTrace.Proofs.ReplayScan

-- The event that an imbalance names is the one to blame: the list is refused as soon as it is read,
-- and without it the events so far could still have become a balanced trace.
namespace JoinTrace

namespace Stand
open Replay
variable {α : Type} {heap : HeapId} {index : Nat}

theorem stop_unbalanced {policy : TrailingPolicy} {stand : Stand α} {blamed : HeapId} {k : Nat}
    {finding : Imbalance}
    (stopped : stand.stop heap policy index = some (.unbalanced blamed k finding)) :
    blamed = heap ∧ k = index ∧ ∃ start, stand = .initial start := by
  have cut (stage : Stage) :
      (unendedError heap policy stage : Option (AnalysisError α)) ≠
        some (.unbalanced blamed k finding) := by
    unfold unendedError
    split <;> simp
  cases stand with
  | unopened | opening | ready => cases stopped
  | initial start =>
    cases stopped
    exact ⟨rfl,rfl,start,rfl⟩
  | waiting start | alone start | restarting start => exact absurd stopped (cut start.stage)

variable [Scalar α]

theorem advance_unbalanced {stand : Stand α} {event : Event α} {blamed : HeapId} {k : Nat}
    {finding : Imbalance}
    (refused : stand.advance heap index event = .error (.unbalanced blamed k finding)) :
    blamed = heap ∧ k = index := by
  cases reads_advance heap event stand with
  | moved _ same => cases (same index).symm.trans refused
  | mismatched same => cases (same index).symm.trans refused
  | refused same =>
    cases (same index).symm.trans refused
    exact ⟨rfl,rfl⟩

def closingEnd (stage : Stage) (start : Event α) : Event α :=
  { start with kind := .join, edge := .finish, stage := stage }

def closingRestart (edge : Edge) (start : Event α) : Event α :=
  { start with kind := .restart, edge := edge, stage := .restart }

def completion : Stand α → List (Event α)
  | .unopened | .opening | .ready _ => []
  | .initial start => [closingEnd .generationDetermined start]
  | .waiting start _ => [closingEnd start.stage start]
  | .alone start => [closingRestart .start start, closingRestart .finish start]
  | .restarting start => [closingRestart .finish start]

end Stand

variable {α : Type} [Scalar α] {heap : HeapId} {policy : TrailingPolicy}
open Stand

theorem scan_completion (heap : HeapId) (policy : TrailingPolicy) (stand : Stand α) (index : Nat) :
    (scan heap policy stand index stand.completion).2 = none := by
  cases stand with
  | unopened | opening | ready => rfl
  | initial start =>
    simp [completion,scan,advance,closingEnd,Event.isJoinEnd,passStage,Replay.expectStage,
      Except.map,stop]
  | waiting start passage =>
    cases passage <;>
      simp [completion,scan,advance,closingEnd,Event.isJoinEnd,Event.isRestartStart,
        Event.isRestartEnd,Event.isRestart,endJoin,Replay.expectStage,Except.map,stop,
        Outcome.following]
  | alone start | restarting start =>
    simp [completion,scan,advance,closingRestart,Event.isRestartStart,Event.isRestartEnd,
      Event.isRestart,stop,Outcome.following]

-- What the index `k` of an imbalance says about the scan it stopped.
structure Blames (heap : HeapId) (policy : TrailingPolicy) (stand : Stand α) (index : Nat)
    (events : List (Event α)) (k : Nat) : Prop where
  notBefore : index ≤ k
  within : k ≤ index + events.length
  -- Only the end of the initial stage is missed where nothing more is read.
  missing : k = index → ∃ start, stand = .initial start
  settled : scan heap policy stand index (events.take (k-index)) =
    scan heap policy stand index events
  mended : index < k → ∃ more, ∀ other,
    (scan heap other stand index (events.take (k-index-1) ++ more)).2 = none

theorem blames_cons {stand next : Stand α} {index k : Nat} {event : Event α}
    {rest : List (Event α)} {seen : List (Observation α)}
    (advanced : stand.advance heap (index+1) event = .ok (seen,next))
    (later : Blames heap policy next (index+1) rest k) :
    Blames heap policy stand index (event :: rest) k := by
  have after : index < k := later.notBefore
  have onward (other : TrailingPolicy) (events : List (Event α)) :
      scan heap other stand index (event :: events) =
        (scan heap other next (index+1) events).following seen := by
    simp only [scan,advanced]
  refine ⟨Nat.le_of_lt after,?_,fun same => absurd same (Nat.ne_of_gt after),?_,fun _ => ?_⟩
  · have within := later.within
    simp only [List.length_cons]
    omega
  · obtain ⟨ahead,split⟩ : ∃ ahead, k-index = ahead+1 := ⟨k-index-1,by omega⟩
    have settled := later.settled
    rw [show k-(index+1) = ahead by omega] at settled
    rw [split,List.take_succ_cons,onward,onward,settled]
  · by_cases here : k = index+1
    · -- The scan stopped behind this event, and another would have been due there.
      subst here
      exact ⟨stand.completion,fun other => by simpa using scan_completion heap other stand index⟩
    · have beyond : index+1 < k := by omega
      obtain ⟨more,mended⟩ := later.mended beyond
      obtain ⟨ahead,split⟩ : ∃ ahead, k-index-1 = ahead+1 := ⟨k-index-2,by omega⟩
      refine ⟨more,fun other => ?_⟩
      have accepted := mended other
      rw [show k-(index+1)-1 = ahead by omega] at accepted
      rw [split,List.take_succ_cons,List.cons_append,onward]
      exact accepted

theorem scan_blames {stand : Stand α} {index k : Nat} {events : List (Event α)} {blamed : HeapId}
    {finding : Imbalance}
    (failed : (scan heap policy stand index events).2 = some (.unbalanced blamed k finding)) :
    blamed = heap ∧ Blames heap policy stand index events k := by
  induction events generalizing stand index with
  | nil =>
    obtain ⟨same,rfl,initial⟩ := stop_unbalanced failed
    exact ⟨same,Nat.le_refl _,Nat.le_refl _,fun _ => initial,by simp,
      fun less => absurd less (Nat.lt_irrefl _)⟩
  | cons event rest ih =>
    cases advanced : stand.advance heap (index+1) event with
    | error e =>
      simp only [scan,advanced] at failed
      cases failed
      obtain ⟨rfl,rfl⟩ := advance_unbalanced advanced
      refine ⟨rfl,Nat.le_succ _,by simp,by simp,?_,fun _ => ⟨stand.completion,fun other => ?_⟩⟩
      · simp [scan,advanced]
      · simpa using scan_completion blamed other stand index
    | ok reading =>
      obtain ⟨seen,next⟩ := reading
      simp only [scan,advanced] at failed
      obtain ⟨same,later⟩ := ih failed
      exact ⟨same,blames_cons advanced later⟩

theorem imbalance_names_culprit {events : List (Event α)} {blamed : HeapId} {k : Nat}
    {finding : Imbalance}
    (failed : (Replayer.start heap events policy).run.2.1 = some (.unbalanced blamed k finding)) :
    blamed = heap ∧ 1 ≤ k ∧ k ≤ events.length ∧
    (Replayer.start heap (events.take k) policy).run.1 =
      (Replayer.start heap events policy).run.1 ∧
    (Replayer.start heap (events.take k) policy).run.2.1 =
      some (.unbalanced blamed k finding) ∧
    ∃ more, ∀ other,
      (Replayer.start heap (events.take (k-1) ++ more) other).run.2.1 = none := by
  have scans (list : List (Event α)) (other : TrailingPolicy) :
      ((Replayer.start heap list other).run.1,(Replayer.start heap list other).run.2.1) =
        scan heap other .unopened 0 list := Replayer.outcome_scan heap list other
  obtain ⟨same,blames⟩ := scan_blames ((congrArg Prod.snd (scans events policy)).symm.trans failed)
  have first : 1 ≤ k := by
    by_contra none
    obtain ⟨start,initial⟩ := blames.missing (by omega)
    cases initial
  have settled : scan heap policy .unopened 0 (events.take k) =
      scan heap policy .unopened 0 events := blames.settled
  rw [← scans,← scans] at settled
  obtain ⟨given,refused⟩ := Prod.mk.inj settled
  obtain ⟨more,mended⟩ := blames.mended first
  refine ⟨same,first,by simpa using blames.within,given,refused.trans failed,more,fun other => ?_⟩
  exact (congrArg Prod.snd (scans _ other)).trans (mended other)

namespace Sample

def forsaken : List (Event ℚ) := [
  restart .start 1, join .start .beginMarkPhase 2, restart .start 3, restart .finish 4,
  join .start .done 5, join .finish .done 6]

end Sample

theorem imbalance_names_culprit_sample :
    (Replayer.start 0 Sample.forsaken .any).run.2.1 =
      some (.unbalanced 0 5 (.noJoinEnd .beginMarkPhase .join .start .done)) ∧
    (Replayer.start 0 (Sample.forsaken.take 5) .any).run.2.1 =
      some (.unbalanced 0 5 (.noJoinEnd .beginMarkPhase .join .start .done)) ∧
    ∃ more, ∀ other,
      (Replayer.start 0 (Sample.forsaken.take 4 ++ more) other).run.2.1 = none := by
  have failed : (Replayer.start 0 Sample.forsaken .any).run.2.1 =
      some (.unbalanced 0 5 (.noJoinEnd .beginMarkPhase .join .start .done)) := by decide +kernel
  obtain ⟨_,_,_,_,again,mended⟩ := imbalance_names_culprit failed
  exact ⟨failed,again,mended⟩

end JoinTrace
