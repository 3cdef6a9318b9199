import JoinTrace.Proofs.AliasedMetrics
import JoinTrace.Proofs.CatalogOrder
import JoinTrace.Proofs.JoinIntervals
import JoinTrace.Proofs.JoinTotals
import JoinTrace.Proofs.TrailingPolicy

-- What a report says each stage took, against what it says all joins took. The stages that are
-- measured make up the whole unless a join carries the pseudo-stage of the restarts.
namespace JoinTrace

namespace JoinCatalog
variable {α : Type} [Scalar α] {table : PhaseTable}

theorem catalog_distinct (table : PhaseTable) : (builder (α := α) table).catalog.names.Nodup := by
  rw [CatalogBuilder.catalog_names,generated_names]
  exact names_nodup table

theorem lookup_entry {entry : CatalogEntry α (CycleSummary α)}
    (made : entry ∈ (builder table).catalog.entries) (summary : CycleSummary α) :
    ((builder table).catalog.evaluateAll summary).lookup entry.metric.name =
      some (entry.evaluate summary) := by
  rw [Catalog.lookup_evaluateAll,
    (Catalog.get?_eq_some_iff (catalog_distinct table)).mpr ⟨made,rfl⟩]
  rfl

theorem lookup_aggregate {name : String} {read : HeapSummary α → Failable α}
    (listed : floatMetric name read ∈ metrics table) (aggregate : AggregateFn)
    (summary : CycleSummary α) :
    ((builder table).catalog.evaluateAll summary).lookup (joined name aggregate.name) =
      some (do return .float (← aggregate.apply (← (← summary.heaps).mapM read))) := by
  let all : Filter (CycleSummary α) (HeapSummary α) := ⟨"",CycleSummary.heaps⟩
  let get : ElementGetter (CycleSummary α) (HeapSummary α) α := fun _ heaps place =>
    read (heaps.get place)
  let entry : CatalogEntry α (CycleSummary α) :=
    ⟨⟨filteredName (name ++ "_" ++ aggregate.name) "",.float aggregate,some name,"",true⟩,
      Measurement.floatOf all get aggregate⟩
  have possible : aggregate ∈ AggregateFn.all := by cases aggregate <;> decide
  have made : entry ∈ (builder (α := α) table).catalog.entries := by
    refine List.mem_append_left _ (List.mem_flatMap.mpr ⟨_,listed,?_⟩)
    refine List.mem_flatMap.mpr ⟨all,List.mem_append_left _ List.mem_cons_self,?_⟩
    exact List.mem_map.mpr ⟨aggregate,possible,rfl⟩
  have reads : get.Reads read := fun _ _ _ => rfl
  refine (lookup_entry made summary).trans ?_
  simp only [entry,all,Measurement.floatOf,reads.values]

theorem lookup_stageSum (table : PhaseTable) {stage : Stage} (measured : stage ∈ Stage.measured)
    {summary : CycleSummary α} {summaries : List (HeapSummary α)}
    (heaps : summary.heaps = .ok summaries) :
    ((builder table).catalog.evaluateAll summary).lookup (stage.name ++ "_Sum") =
      some (.ok (.float (Scalar.sum (summaries.map (·.stageTotal stage))))) := by
  have listed : stageMetric stage ∈ metrics (α := α) table := by
    refine List.mem_append_left _ (List.mem_append_left _ (List.mem_append_right _ ?_))
    exact List.mem_map_of_mem measured
  have named : stage.name ++ "_Sum" = joined stage.name AggregateFn.sum.name := by
    rw [joined,String.append_assoc]
    rfl
  have read : summaries.mapM (fun heap => (.ok (heap.stageTotal stage) : Failable α)) =
      .ok (summaries.map (·.stageTotal stage)) := List.mapM_pure
  rw [named,lookup_aggregate listed,heaps]
  simp only [bind,Except.bind,read]
  rfl

theorem lookup_totalSum (table : PhaseTable) (summary : CycleSummary α) :
    ((builder table).catalog.evaluateAll summary).lookup "TotalJoinMSec_Sum" =
      some ((summary.heaps.bind fun heaps => heaps.mapM HeapSummary.totalJoin).map
        fun totals => .float (Scalar.sum totals)) := by
  have listed : floatMetric "TotalJoinMSec" HeapSummary.totalJoin ∈ metrics (α := α) table := by
    refine List.mem_append_left _ (List.mem_append_left _ (List.mem_append_left _ ?_))
    simp
  refine (lookup_aggregate listed .sum summary).trans (congrArg some ?_)
  cases summary.heaps with
  | error failure => rfl
  | ok heaps =>
    simp only [bind,Except.bind]
    cases heaps.mapM HeapSummary.totalJoin <;> rfl

end JoinCatalog

-- A restart starts no join, whatever stage it carries.
theorem Join.Paired.kind {α : Type} {join : Join α} (paired : join.Paired) :
    join.start.kind ≠ .restart := by
  intro restart
  cases paired with
  | waited starts ends same => cases restart.symm.trans (Event.isJoinStart_iff.mp starts).1
  | alone starts ends =>
    rcases (Event.isSingleThreadedStart_iff.mp starts).2 with last | right
    · cases restart.symm.trans last
    · cases restart.symm.trans right

namespace HeapHistory

def unmeasured (policy : TrailingPolicy) (history : HeapHistory ℚ) : ℚ :=
  (JoinTimes.ofStage (Replayer.start history.heap history.events policy).run.1 .restart).sum

variable {history : HeapHistory ℚ} {policy : TrailingPolicy}

theorem restart_total {table : PhaseTable} {summary : HeapSummary ℚ}
    (made : HeapSummary.ofHistory history table policy = .ok summary) :
    summary.stageTotal .restart = history.unmeasured policy := by
  obtain ⟨times,ran,rfl⟩ := HeapSummary.ofHistory_parts made
  obtain ⟨_,rfl⟩ := joinTimes_ok_iff.mp ran
  rw [HeapSummary.stageTotal_eq,HeapSummary.ofJoinTimes,JoinTimes.get?_ofObservations,unmeasured]
  split
  next nothing => rw [nothing]; rfl
  next => rfl

theorem unmeasured_eq_zero
    (carried : ∀ event ∈ history.events, event.stage = .restart → event.kind = .restart) :
    history.unmeasured policy = 0 := by
  obtain ⟨joins,seen,within⟩ := Replayer.run_within history.heap history.events policy
  have none : JoinTimes.ofStage (joins.map Join.observation) .restart = [] := by
    refine List.map_eq_nil_iff.mpr (List.filter_eq_nil_iff.mpr fun given listed => ?_)
    obtain ⟨join,member,rfl⟩ := List.mem_map.mp listed
    have listed : join.start ∈ history.events :=
      within.edges.subset (List.mem_flatMap.mpr ⟨join,member,List.mem_cons_self⟩)
    intro stage
    exact (within.paired join member).kind (carried _ listed (of_decide_eq_true stage))
  rw [unmeasured,seen,none]
  rfl

end HeapHistory

namespace HeapSummary

theorem sum_measured (summary : HeapSummary ℚ) : summary.durations.sum =
    (Stage.measured.map summary.stageTotal).sum + summary.stageTotal .restart := by
  have split : Stage.all = .restart :: Stage.measured := by decide
  rw [← sum_allStages,split,List.map_cons,List.sum_cons,add_comm]

theorem sum_durations (summaries : List (HeapSummary ℚ)) :
    (summaries.map fun summary => summary.durations.sum).sum =
      (Stage.measured.map fun stage => (summaries.map (·.stageTotal stage)).sum).sum +
        (summaries.map (·.stageTotal .restart)).sum := by
  induction summaries with
  | nil => simp
  | cons summary rest ih =>
    simp only [List.map_cons,List.sum_cons,List.sum_map_add,ih,sum_measured summary]
    ring

theorem totalJoin_ok {summary : HeapSummary ℚ} {total : ℚ} (made : summary.totalJoin = .ok total) :
    total = summary.durations.sum := by
  rw [totalJoin_perm (.refl _)] at made
  split at made
  · cases made
  · exact (Except.ok.inj made).symm

theorem sum_totals {summaries : List (HeapSummary ℚ)} {totals : List ℚ}
    (made : summaries.mapM totalJoin = .ok totals) :
    Scalar.sum totals = (summaries.map fun summary => summary.durations.sum).sum := by
  have told : totals.map id = summaries.map fun summary => summary.durations.sum :=
    mapM_map made fun _ _ => totalJoin_ok
  rw [Exact.sum_eq,← told,List.map_id]

theorem sum_restarts {histories : List (HeapHistory ℚ)} {summaries : List (HeapSummary ℚ)}
    {table : PhaseTable} {policy : TrailingPolicy}
    (made : histories.mapM (ofHistory · table policy) = .ok summaries) :
    summaries.map (·.stageTotal .restart) = histories.map (·.unmeasured policy) :=
  mapM_map made fun _ _ => HeapHistory.restart_total

end HeapSummary

theorem CycleSummary.ofCycle_summaries {α : Type} [Scalar α] {cycle : Cycle α} {table : PhaseTable}
    {policy : TrailingPolicy} {summary : CycleSummary α} {summaries : List (HeapSummary α)}
    (made : ofCycle cycle table policy = .ok summary) (heaps : summary.heaps = .ok summaries) :
    cycle.heaps.mapM (HeapSummary.ofHistory · table policy) = .ok summaries := by
  unfold ofCycle at made
  cases server : cycle.serverHeaps with
  | error failure =>
    simp only [server] at made
    cases made
    cases heaps
  | ok histories =>
    cases Cycle.serverHeaps_ok server
    simp only [server] at made
    split at made
    · cases made
    next ran =>
      cases made
      cases heaps
      exact ran

namespace Sample

theorem cycle_totals {summaries : List (HeapSummary ℚ)}
    (made : cycle.heaps.mapM (HeapSummary.ofHistory · .builtin .doneOnly) = .ok summaries) :
    summaries.mapM HeapSummary.totalJoin = .ok [12,2] := by
  have told : (cycle.heaps.mapM (HeapSummary.ofHistory · .builtin .doneOnly)).map
      (fun summaries => summaries.mapM HeapSummary.totalJoin) = .ok (.ok [12,2]) := by decide +kernel
  rw [made] at told
  exact Except.ok.inj told

def initial : List (Event ℚ) := [
  join .start .generationDetermined 0, join .finish .generationDetermined (1/2)]

def restartJoined : Cycle ℚ := ⟨7,2,10,[
  ⟨0,initial ++ [join .start .beginMarkPhase 1, join .finish .beginMarkPhase 2,
    join .start .restart 3, join .finish .restart 5]⟩,
  ⟨1,initial ++ [join .start .beginMarkPhase 1, join .finish .beginMarkPhase (5/2)]⟩]⟩

theorem restartJoined_sums {summaries : List (HeapSummary ℚ)}
    (made : restartJoined.heaps.mapM (HeapSummary.ofHistory · .builtin .doneOnly) = .ok summaries) :
    summaries.mapM HeapSummary.totalJoin = .ok [3,3/2] ∧
      (Stage.measured.map fun stage => Scalar.sum (summaries.map (·.stageTotal stage))).sum = 5/2 := by
  have told : (restartJoined.heaps.mapM (HeapSummary.ofHistory · .builtin .doneOnly)).map
      (fun summaries => (summaries.mapM HeapSummary.totalJoin,
        (Stage.measured.map fun stage => Scalar.sum (summaries.map (·.stageTotal stage))).sum)) =
      .ok (.ok [3,3/2],5/2) := by decide +kernel
  rw [made] at told
  exact Prod.mk.inj (Except.ok.inj told)

end Sample

namespace Reporter

theorem total_accounts (table : PhaseTable) (config : Config ℚ) :
    ∃ reporter, make table config = .ok reporter ∧ ∀ cycle report,
      reporter.report cycle = .ok report → ∀ value,
      report.heapMetrics.lookup "TotalJoinMSec_Sum" = some (.ok value) →
      ∃ sums : Stage → ℚ,
        (∀ stage ∈ Stage.measured,
          report.heapMetrics.lookup (stage.name ++ "_Sum") = some (.ok (.float (sums stage)))) ∧
        value = .float ((Stage.measured.map sums).sum +
          (cycle.heaps.map (·.unmeasured config.policy)).sum) ∧
        ((∀ history ∈ cycle.heaps, ∀ event ∈ history.events,
          event.stage = .restart → event.kind = .restart) →
          value = .float (Stage.measured.map sums).sum) := by
  refine ⟨_,make_ok table config,fun cycle report reported value found => ?_⟩
  obtain ⟨_,_,summary,_,_,summed,rfl⟩ := report_ok_iff.mp reported
  rw [JoinCatalog.lookup_totalSum,Option.some.injEq] at found
  cases heaps : summary.heaps with
  | error failure => rw [heaps] at found; cases found
  | ok summaries =>
    simp only [heaps,Except.bind] at found
    cases ran : summaries.mapM HeapSummary.totalJoin with
    | error failure => rw [ran] at found; cases found
    | ok totals =>
      rw [ran] at found
      cases found
      have whole := (HeapSummary.sum_totals ran).trans (HeapSummary.sum_durations summaries)
      rw [HeapSummary.sum_restarts (CycleSummary.ofCycle_summaries summed heaps)] at whole
      refine ⟨fun stage => (summaries.map (·.stageTotal stage)).sum,?_,congrArg _ whole,?_⟩
      · intro stage measured
        rw [JoinCatalog.lookup_stageSum table measured heaps,Exact.sum_eq]
      · intro carried
        have nothing : (cycle.heaps.map (·.unmeasured config.policy)).sum = 0 := by
          refine List.sum_eq_zero fun time listed => ?_
          obtain ⟨history,member,rfl⟩ := List.mem_map.mp listed
          exact HeapHistory.unmeasured_eq_zero (carried history member)
        rw [nothing,add_zero] at whole
        exact congrArg _ whole

theorem total_accounts_sample :
    ∃ reporter report, make .builtin Sample.config = .ok reporter ∧
      reporter.report Sample.cycle = .ok report ∧ ∃ sums : Stage → ℚ,
        report.heapMetrics.lookup "begin_mark_phase_Sum" = some (.ok (.float (sums .beginMarkPhase))) ∧
        report.heapMetrics.lookup "TotalJoinMSec_Sum" =
          some (.ok (.float (Stage.measured.map sums).sum)) := by
  obtain ⟨reporter,made,told⟩ := total_accounts .builtin Sample.config
  obtain ⟨report,reported⟩ := Sample.reported made
  obtain ⟨value,found⟩ : ∃ value,
      report.heapMetrics.lookup "TotalJoinMSec_Sum" = some (.ok value) := by
    cases (make_ok _ _).symm.trans made
    obtain ⟨_,_,summary,_,_,summed,rfl⟩ := report_ok_iff.mp reported
    obtain ⟨summaries,heaps,_⟩ := CycleSummary.ofCycle_heaps (rfl : Sample.cycle.serverHeaps = _) summed
    have totals := Sample.cycle_totals (CycleSummary.ofCycle_summaries summed heaps)
    exact ⟨_,by rw [JoinCatalog.lookup_totalSum,heaps,Except.bind,totals]; rfl⟩
  obtain ⟨sums,each,_,whole⟩ := told Sample.cycle report reported value found
  cases whole (by decide)
  exact ⟨reporter,report,made,reported,sums,each .beginMarkPhase (by decide),found⟩

theorem total_exceeds_stages :
    ∃ reporter report, make .builtin Sample.config = .ok reporter ∧
      reporter.report Sample.restartJoined = .ok report ∧ ∃ sums : Stage → ℚ,
        (∀ stage ∈ Stage.measured,
          report.heapMetrics.lookup (stage.name ++ "_Sum") = some (.ok (.float (sums stage)))) ∧
        (Stage.measured.map sums).sum = 5/2 ∧
        report.heapMetrics.lookup "TotalJoinMSec_Sum" = some (.ok (.float (9/2))) := by
  let reporter : Reporter ℚ := ⟨.builtin,Sample.config,(JoinCatalog.builder .builtin).catalog⟩
  have succeeds : (reporter.report Sample.restartJoined).isOk = true := by decide +kernel
  cases reported : reporter.report Sample.restartJoined with
  | error e => rw [reported] at succeeds; cases succeeds
  | ok report =>
    obtain ⟨_,_,summary,_,_,summed,rfl⟩ := report_ok_iff.mp reported
    obtain ⟨summaries,heaps,_⟩ :=
      CycleSummary.ofCycle_heaps (rfl : Sample.restartJoined.serverHeaps = _) summed
    obtain ⟨totals,stages⟩ :=
      Sample.restartJoined_sums (CycleSummary.ofCycle_summaries summed heaps)
    refine ⟨reporter,_,make_ok _ _,reported,_,?_,stages,?_⟩
    · exact fun stage measured => JoinCatalog.lookup_stageSum _ measured heaps
    · rw [JoinCatalog.lookup_totalSum,heaps,Except.bind,totals]
      have sum : Scalar.sum [(3 : ℚ),3/2] = 9/2 := by decide +kernel
      rw [Except.map,sum]

end Reporter
end JoinTrace
