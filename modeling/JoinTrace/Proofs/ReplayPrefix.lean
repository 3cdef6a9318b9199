import JoinTrace.Proofs.ReplayAcceptance
import JoinTrace.Proofs.ReplayContinuation

-- A replay takes its list as a stream. What it has given or refused on a first part of the list it
-- gives or refuses on the whole, whatever comes after.
namespace JoinTrace

namespace Replayer
variable {α : Type}

def followedBy (replayer : Replayer α) (more : List (Event α)) : Replayer α :=
  { replayer with trace := replayer.trace.followedBy more }

def Whole (replayer : Replayer α) : Prop :=
  replayer.state = .initial → ¬ Replay.LoneInitialStart replayer.trace.ahead

theorem start_live (heap : HeapId) (events : List (Event α)) (policy : TrailingPolicy) :
    (start heap events policy).state ≠ .finished := by simp [start]

theorem start_whole {events : List (Event α)} (whole : ¬ Replay.LoneInitialStart events)
    (heap : HeapId) (policy : TrailingPolicy) : (start heap events policy).Whole :=
  fun _ => whole

theorem opened_passes {replayer : Replayer α} (whole : replayer.Whole) (more : List (Event α)) :
    Replay.Passes more replayer.opened (replayer.followedBy more).opened := by
  have same : (replayer.followedBy more).state = replayer.state := rfl
  unfold opened
  cases state : replayer.state with
  | initial =>
    rw [same,state]
    exact Replay.passInitial_passes (whole state) more
  | running =>
    rw [same,state]
    exact .passed replayer.trace
  | finished =>
    rw [same,state]
    exact .passed replayer.trace

theorem found_meets {replayer : Replayer α} (whole : replayer.Whole) (more : List (Event α)) :
    Replay.Meets more replayer.found (replayer.followedBy more).found := by
  have passes := opened_passes whole more
  unfold found
  generalize replayer.opened = first at passes
  generalize (replayer.followedBy more).opened = second at passes
  cases passes with
  | refused malformed same => exact .refused malformed same
  | passed after => exact Replay.step_meets replayer.heap after more
  | ranOut read =>
    simp only [Replay.step_end (Cursor.next_eq_none.mpr read)]
    exact .exhausted read

theorem found_told (replayer : Replayer α) : Replay.Meets [] replayer.found replayer.found := by
  by_cases whole : replayer.Whole
  · have same : replayer.followedBy [] = replayer := by
      simp [followedBy,Cursor.followedBy]
    have meets := found_meets whole []
    rwa [same] at meets
  · obtain ⟨state,lone⟩ := Classical.not_imp.mp whole
    obtain ⟨_,stopped⟩ := Replay.passInitial_lone replayer.heap _ (not_not.mp lone)
    simp only [found,opened,state,stopped]
    exact .refused (.unbalanced ..) rfl

abbrev Run (α : Type) := List (Observation α) × Option (AnalysisError α) × Replayer α

structure Outlives (run longer : Run α) : Prop where
  given : run.1 <+: longer.1
  refused : ∀ e, e.Malformed → run.2.1 = some e → longer.1 = run.1 ∧ longer.2.1 = some e

theorem Outlives.cons {run longer : Run α} (outlives : Outlives run longer)
    (seen : Observation α) : Outlives (seen :: run.1,run.2) (seen :: longer.1,longer.2) := by
  refine ⟨(List.prefix_cons_inj seen).mpr outlives.given,fun e malformed failed => ?_⟩
  obtain ⟨same,again⟩ := outlives.refused e malformed failed
  exact ⟨congrArg (seen :: ·) same,again⟩

theorem outlives_nothing {failure : Option (AnalysisError α)} (final : Replayer α)
    (longer : Run α) (wellFormed : ∀ e ∈ failure, ¬ e.Malformed) :
    Outlives ([],failure,final) longer :=
  ⟨List.nil_prefix,fun e malformed failed => absurd malformed (wellFormed e failed)⟩

variable [Scalar α]

theorem run_found (replayer : Replayer α) (live : replayer.state ≠ .finished) :
    replayer.run = match replayer.found with
      | .error stop => ([],some stop.error,{ replayer with trace := stop.trace, state := .finished })
      | .ok (.joined start last trace) =>
        let rest := { replayer with trace := trace, state := .running }.run
        (⟨start.stage,last.time - start.time⟩ :: rest.1,rest.2)
      | .ok (.exhausted trace) => ([],none,{ replayer with trace := trace, state := .finished })
      | .ok (.unended start trace) =>
        if replayer.policy.tolerates start.stage then
          ([],none,{ replayer with
            trace := trace, state := .finished, truncatedStage := some start.stage })
        else
          ([],some (.truncated replayer.heap start.stage),
            { replayer with trace := trace, state := .finished }) := by
  split
  · rename_i met
    exact run_failed (by rw [next,if_neg live,met])
  · rename_i met
    exact run_observed (by rw [next,if_neg live,met])
  · rename_i met
    exact run_ended (by rw [next,if_neg live,met])
  · rename_i met
    split
    · rename_i tolerated
      exact run_ended (by simp only [next,if_neg live,met,if_pos tolerated])
    · rename_i untolerated
      exact run_failed (by simp only [next,if_neg live,met,if_neg untolerated])

theorem run_error (replayer : Replayer α) (live : replayer.state ≠ .finished)
    {e : AnalysisError α} (failed : replayer.run.2.1 = some e) : e.Malformed ∨
      ∃ stage, replayer.policy.tolerates stage = false ∧ e = .truncated replayer.heap stage := by
  have told := found_told replayer
  rw [run_found replayer live] at failed
  generalize met : replayer.found = found at told failed
  cases told with
  | refused malformed =>
    cases failed
    exact .inl malformed
  | @joined start last trace =>
    exact run_error { replayer with trace := trace, state := .running } (by simp) failed
  | @unended start trace =>
    simp only at failed
    split at failed
    · cases failed
    · rename_i untolerated
      cases failed
      exact .inr ⟨start.stage,by simpa using untolerated,rfl⟩
  | exhausted => cases failed
termination_by replayer.trace.remaining
decreasing_by exact found_joined_remaining met

theorem run_nothing_left (replayer : Replayer α) (running : replayer.state = .running)
    (read : replayer.trace.ahead = []) :
    replayer.run = ([],none,{ replayer with state := .finished }) := by
  have found : replayer.found = .ok (.exhausted replayer.trace) := by
    simp only [Replayer.found,opened,running]
    exact Replay.step_end (Cursor.next_eq_none.mpr read)
  rw [run_found replayer (by simp [running]),found]

theorem run_followedBy (replayer : Replayer α) (live : replayer.state ≠ .finished)
    (whole : replayer.Whole) (more : List (Event α)) :
    Outlives replayer.run (replayer.followedBy more).run := by
  have meets := found_meets whole more
  rw [run_found replayer live,run_found (replayer.followedBy more) live]
  generalize met : replayer.found = found at meets ⊢
  generalize (replayer.followedBy more).found = result at meets ⊢
  cases meets with
  | refused malformed same =>
    exact ⟨List.prefix_refl _,fun e _ failed => ⟨rfl,(congrArg some same).trans failed⟩⟩
  | @joined start last trace later leads =>
    refine Outlives.cons ?_ _
    by_cases left : trace.ahead = []
    · rw [run_nothing_left _ rfl left]
      exact outlives_nothing _ _ (by simp)
    · rw [leads left]
      exact run_followedBy { replayer with trace := trace, state := .running } (by simp)
        (by simp [Whole]) more
  | unended read =>
    simp only
    split
    · exact outlives_nothing _ _ (by simp)
    · refine outlives_nothing _ _ fun e failed malformed => ?_
      cases failed
      cases malformed
  | exhausted read => exact outlives_nothing _ _ (by simp)
termination_by replayer.trace.remaining
decreasing_by exact found_joined_remaining met

theorem run_lone {events : List (Event α)} (lone : Replay.LoneInitialStart events) (heap : HeapId)
    (policy : TrailingPolicy) : (start heap events policy).run.1 = [] ∧
      (start heap events policy).run.2.1 = some (.unbalanced heap 1 .initialWithoutEnd) := by
  obtain ⟨reached,stopped⟩ : ∃ reached, (start heap events policy).opened =
      .error ⟨.unbalanced heap 1 .initialWithoutEnd,reached⟩ :=
    Replay.passInitial_lone heap (.ofList events) lone
  rw [run_found _ (start_live heap events policy),found,stopped]
  exact ⟨rfl,rfl⟩

end Replayer

variable {α : Type} [Scalar α]

theorem replay_streams (heap : HeapId) (policy : TrailingPolicy) (xs ys : List (Event α)) :
    (Replayer.start heap xs policy).run.1 <+: (Replayer.start heap (xs ++ ys) policy).run.1 ∧
    (∀ e, e.Malformed → ¬ Replay.LoneInitialStart xs →
      (Replayer.start heap xs policy).run.2.1 = some e →
        (Replayer.start heap (xs ++ ys) policy).run.1 = (Replayer.start heap xs policy).run.1 ∧
        (Replayer.start heap (xs ++ ys) policy).run.2.1 = some e) ∧
    (¬ Replay.LoneInitialStart xs → (Replayer.start heap (xs ++ ys) .any).run.2.1 = none →
      (Replayer.start heap xs .any).run.2.1 = none) ∧
    (Replay.LoneInitialStart xs → (Replayer.start heap xs policy).run.1 = [] ∧
      (Replayer.start heap xs policy).run.2.1 = some (.unbalanced heap 1 .initialWithoutEnd)) := by
  have outlives (whole : ¬ Replay.LoneInitialStart xs) (policy : TrailingPolicy) :
      Replayer.Outlives (Replayer.start heap xs policy).run
        (Replayer.start heap (xs ++ ys) policy).run :=
    Replayer.run_followedBy _ (Replayer.start_live heap xs policy)
      (Replayer.start_whole whole heap policy) ys
  refine ⟨?_,?_,?_,fun lone => Replayer.run_lone lone heap policy⟩
  · by_cases lone : Replay.LoneInitialStart xs
    · rw [(Replayer.run_lone lone heap policy).1]
      exact List.nil_prefix
    · exact (outlives lone policy).given
  · intro e malformed whole failed
    exact (outlives whole policy).refused e malformed failed
  · intro whole accepted
    cases ended : (Replayer.start heap xs .any).run.2.1 with
    | none => rfl
    | some e =>
      rcases Replayer.run_error _ (Replayer.start_live heap xs .any) ended with
        malformed | ⟨stage,untolerated,_⟩
      · have failed := ((outlives whole .any).refused e malformed ended).2
        cases accepted.symm.trans failed
      · cases untolerated

namespace Sample

def mismatched : List (Event ℚ) := [
  join .finish .generationDetermined 2, rightJoin .updateCardBundles 3, restart .start 4,
  restart .finish 6, join .start .beginMarkPhase 11, restart .start 12, join .finish .done 13]

end Sample

theorem replay_streams_sample :
    (Replayer.start 0 (Sample.mismatched ++ Sample.trace) .doneOnly).run.1 =
      [⟨.updateCardBundles,3⟩] ∧
    (Replayer.start 0 (Sample.mismatched ++ Sample.trace) .doneOnly).run.2.1 =
      some (.stageMismatch 0 .beginMarkPhase .done) ∧
    (Replayer.start 0 (Sample.trace.take 5) .any).run.2.1 = none ∧
    (Replayer.start 0 [Sample.join .start .generationDetermined 1] .any).run.2.1 =
      some (.unbalanced 0 1 .initialWithoutEnd) := by
  have whole {first second : Event ℚ} {rest : List (Event ℚ)} :
      ¬ Replay.LoneInitialStart (first :: second :: rest) := by
    rintro ⟨start,same,_⟩
    cases same
  obtain ⟨_,kept,_⟩ := replay_streams 0 .doneOnly Sample.mismatched Sample.trace
  obtain ⟨given,refused⟩ :=
    kept _ (.stageMismatch 0 .beginMarkPhase .done) whole (by decide +kernel)
  obtain ⟨_,_,cut,_⟩ := replay_streams 0 .any (Sample.trace.take 5) (Sample.trace.drop 5)
  obtain ⟨_,_,_,lone⟩ := replay_streams 0 .any [Sample.join .start .generationDetermined 1] []
  exact ⟨given.trans (by decide +kernel),refused,cut whole (by decide +kernel),
    (lone ⟨_,rfl,rfl,rfl⟩).2⟩

end JoinTrace
