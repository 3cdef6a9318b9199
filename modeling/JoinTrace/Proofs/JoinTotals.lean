import Mathlib.Algebra.BigOperators.Group.List.Basic
import JoinTrace.Proofs.Exact
import JoinTrace.Proofs.ReplayAcceptance
import JoinTrace.Proofs.StageAssignment
import JoinTrace.Summary

-- The durations of one heap's joins, gathered flat, by stage and by phase. In exact numbers each
-- way comes to the same total.
namespace JoinTrace
open Ranked

namespace JoinTimes
variable {α : Type}

theorem flatten_place (stage : Stage) (duration : α) (entries : List (Stage × List α)) :
    ((SortedMap.place stage (fun earlier => earlier.getD [] ++ [duration]) entries).map
      (·.2)).flatten.Perm (duration :: (entries.map (·.2)).flatten) := by
  induction entries with
  | nil => exact .refl _
  | cons entry rest ih =>
    obtain ⟨found,durations⟩ := entry
    unfold SortedMap.place
    split
    · exact .refl _
    · split
      · simp
      · exact (ih.append_left durations).trans List.perm_middle

theorem durations_record (times : JoinTimes α) (seen : Observation α) :
    (times.record seen).durations.Perm (seen.duration :: times.durations) :=
  flatten_place seen.stage seen.duration times.entries

theorem durations_ofObservations (seen : List (Observation α)) :
    (ofObservations seen).durations.Perm (seen.map (·.duration)) := by
  have gathered (times : JoinTimes α) :
      (seen.foldl record times).durations.Perm (seen.map (·.duration) ++ times.durations) := by
    induction seen generalizing times with
    | nil => exact .refl _
    | cons first rest ih =>
      refine (ih (times.record first)).trans ?_
      exact ((durations_record times first).append_left _).trans List.perm_middle
  exact (gathered ∅).trans (.of_eq (List.append_nil _))

end JoinTimes

namespace HeapSummary

theorem stageTotal_eq (summary : HeapSummary ℚ) (stage : Stage) :
    summary.stageTotal stage = ((summary.joinTimes.get? stage).getD []).sum := by
  unfold stageTotal
  cases summary.joinTimes.get? stage with
  | none => exact Nat.cast_zero
  | some durations => exact Exact.sum_eq durations

theorem sum_stageTotals (summary : HeapSummary ℚ) (stages : List Stage) :
    (stages.map summary.stageTotal).sum =
      (stages.filterMap summary.joinTimes.get?).flatten.sum := by
  induction stages with
  | nil => rfl
  | cons stage rest ih =>
    rw [List.map_cons,List.sum_cons,ih,stageTotal_eq,List.filterMap_cons]
    cases summary.joinTimes.get? stage with
    | none => exact zero_add _
    | some durations => exact List.sum_append.symm

theorem sum_allStages (summary : HeapSummary ℚ) :
    (Stage.all.map summary.stageTotal).sum = summary.durations.sum := by
  have ascend : Stage.all.Pairwise (rank · < rank ·) := by decide
  rw [sum_stageTotals,← SortedMap.values_eq ascend Stage.mem_all]
  rfl

theorem totalJoin_perm {summary : HeapSummary ℚ} {emitted : List ℚ}
    (perm : summary.durations.Perm emitted) : summary.totalJoin =
      if emitted = [] then fail "empty join durations" else .ok emitted.sum := by
  have nothing : emitted = [] ↔ summary.durations = [] := by
    rw [← List.perm_nil,← List.perm_nil]
    exact ⟨perm.trans,perm.symm.trans⟩
  simp only [totalJoin,someDurations,nothing,← perm.sum_eq,← Exact.sum_eq]
  cases summary.durations <;> rfl

variable {history : HeapHistory ℚ} {table : PhaseTable} {times : JoinTimes ℚ}

theorem phaseTotal_eq (phase : Phase) :
    (ofJoinTimes history table times).phaseTotal phase =
      ((table.stagesOf phase).map (ofJoinTimes history table times).stageTotal).sum := by
  rw [sum_stageTotals,phaseTotal,ofJoinTimes,SortedMap.get?_map,PhaseTable.stagesOf]
  cases table.stagesByPhase.get? phase with
  | none => exact Nat.cast_zero
  | some stages => exact Exact.sum_eq _

theorem sum_phaseTotals (made : table.Made) (distinct : ∀ phase, (table.stagesOf phase).Nodup) :
    (Phase.all.map (ofJoinTimes history table times).phaseTotal).sum +
        (table.unassigned.map (ofJoinTimes history table times).stageTotal).sum =
      (ofJoinTimes history table times).durations.sum := by
  have split := (made.consistent.stages_perm distinct).map (ofJoinTimes history table times).stageTotal
  rw [← sum_allStages,← split.sum_eq,List.map_append,List.sum_append,List.map_flatMap,List.flatMap,
    List.sum_flatten,List.map_map]
  exact congrArg (fun totals => totals.sum + _) (List.map_congr_left fun phase _ => phaseTotal_eq phase)

-- Whatever a replay gave, each grouping of a summary holds all of it, once.
theorem totals_conserved (history : HeapHistory ℚ) {policy : TrailingPolicy} (made : table.Made)
    (distinct : ∀ phase, (table.stagesOf phase).Nodup)
    (accepted : (Replayer.start history.heap history.events policy).run.2.1 = none) :
    let emitted := (Replayer.start history.heap history.events policy).run.1.map (·.duration)
    ∃ summary, ofHistory history table policy = .ok summary ∧
      summary.durations.Perm emitted ∧
      (Stage.all.map summary.stageTotal).sum = emitted.sum ∧
      (summary.totalJoin = if emitted = [] then fail "empty join durations" else .ok emitted.sum) ∧
      (Phase.all.map summary.phaseTotal).sum + (table.unassigned.map summary.stageTotal).sum =
        emitted.sum := by
  intro emitted
  have made' : ofHistory history table policy = .ok (ofJoinTimes history table (.ofObservations _)) :=
    congrArg (Except.map _) (joinTimes_clean accepted)
  have perm := JoinTimes.durations_ofObservations (Replayer.start history.heap history.events policy).run.1
  exact ⟨_,made',perm,(sum_allStages _).trans perm.sum_eq,totalJoin_perm perm,
    (sum_phaseTotals made distinct).trans perm.sum_eq⟩

theorem totals_conserved_sample : ∃ table summary,
    PhaseTable.ofEntries (α := ℚ) [(.mark,[.beginMarkPhase]), (.plan,[.scanSizedrefDone]),
      (.mark,[.verifyCopyTable])] = .ok table ∧
    ofHistory ⟨0,Sample.trace⟩ table .doneOnly = .ok summary ∧
    summary.durations.Perm [4,3,5] ∧ summary.totalJoin = .ok 12 ∧
    (Phase.all.map summary.phaseTotal).sum + (table.unassigned.map summary.stageTotal).sum = 12 := by
  obtain ⟨table,built,distinct⟩ : ∃ table, PhaseTable.ofEntries (α := ℚ) [(.mark,[.beginMarkPhase]),
      (.plan,[.scanSizedrefDone]), (.mark,[.verifyCopyTable])] = .ok table ∧
      ∀ phase, (table.stagesOf phase).Nodup := ⟨_,rfl,by intro phase; cases phase <;> decide⟩
  obtain ⟨observed,clean,_⟩ := Replayer.run_accepted 0 Sample.trace_accepted
  obtain ⟨summary,made,perm,_,total,phases⟩ :=
    totals_conserved ⟨0,Sample.trace⟩ (PhaseTable.made_ofEntries built) distinct clean
  rw [observed,Sample.joins_observed] at perm total phases
  have twelve : ([4,3,5] : List ℚ).sum = 12 := by norm_num
  have some : ([4,3,5] : List ℚ) ≠ [] := List.cons_ne_nil _ _
  exact ⟨table,summary,built,made,perm,total.trans ((if_neg some).trans (congrArg _ twelve)),
    phases.trans twelve⟩

end HeapSummary
end JoinTrace
