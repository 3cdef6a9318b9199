import JoinTrace.Proofs.CycleRefusal
import JoinTrace.Proofs.JoinCatalogNames
import JoinTrace.Proofs.ReplayAcceptance
import JoinTrace.Report

namespace JoinTrace
variable {α : Type} [Scalar α]

theorem Statistics.compute_error_iff {cycle : Cycle α} {table : PhaseTable}
    {policy : TrailingPolicy} {e : AnalysisError α} :
    Statistics.compute cycle table policy = .error e ↔
      (∃ heaps, cycle.serverHeaps = .ok heaps) ∧ Cycle.FirstRefused policy cycle.heaps e := by
  rw [← Cycle.joinTimes_error_iff,Statistics.compute]
  cases cycle.joinTimes policy <;> simp [Except.map]

theorem HeapSummary.ofHistory_ok_iff {history : HeapHistory α} {table : PhaseTable}
    {policy : TrailingPolicy} :
    (∃ summary, HeapSummary.ofHistory history table policy = .ok summary) ↔
      ∃ times, JoinTrace.joinTimes history.heap history.events policy = .ok times := by
  unfold HeapSummary.ofHistory
  cases JoinTrace.joinTimes history.heap history.events policy <;> simp [Except.map]

theorem HeapSummary.ofHistory_parts {history : HeapHistory α} {table : PhaseTable}
    {policy : TrailingPolicy} {summary : HeapSummary α}
    (made : HeapSummary.ofHistory history table policy = .ok summary) :
    ∃ times, JoinTrace.joinTimes history.heap history.events policy = .ok times ∧
      summary = ofJoinTimes history table times := by
  unfold HeapSummary.ofHistory at made
  cases ran : JoinTrace.joinTimes history.heap history.events policy with
  | error e => rw [ran] at made; cases made
  | ok times =>
    rw [ran] at made
    cases made
    exact ⟨times,rfl,rfl⟩

theorem HeapSummary.ofHistory_heap {history : HeapHistory α} {table : PhaseTable}
    {policy : TrailingPolicy} {summary : HeapSummary α}
    (made : HeapSummary.ofHistory history table policy = .ok summary) :
    summary.heap = history.heap := by
  obtain ⟨_,_,rfl⟩ := ofHistory_parts made
  rfl

theorem HeapSummary.ofHistories_heaps {histories : List (HeapHistory α)} {table : PhaseTable}
    {policy : TrailingPolicy} {summaries : List (HeapSummary α)}
    (made : histories.mapM (HeapSummary.ofHistory · table policy) = .ok summaries) :
    summaries.map (·.heap) = histories.map (·.heap) :=
  mapM_map made fun _ _ => HeapSummary.ofHistory_heap

namespace CycleSummary
variable {cycle : Cycle α}

theorem ofCycle_ok_iff {heaps : List (HeapHistory α)} (server : cycle.serverHeaps = .ok heaps)
    (table : PhaseTable) (policy : TrailingPolicy) :
    (∃ summary, ofCycle cycle table policy = .ok summary) ↔
      ∀ history ∈ cycle.heaps, ∃ times,
        joinTimes history.heap history.events policy = .ok times := by
  cases Cycle.serverHeaps_ok server
  have each : (∀ history ∈ cycle.heaps, ∃ times,
      joinTimes history.heap history.events policy = .ok times) ↔
      ∃ summaries, cycle.heaps.mapM (HeapSummary.ofHistory · table policy) = .ok summaries := by
    constructor
    · intro replayed
      exact mapM_ok fun history member => HeapSummary.ofHistory_ok_iff.mpr (replayed history member)
    · rintro ⟨summaries,ran⟩ history member
      exact HeapSummary.ofHistory_ok_iff.mp (mapM_ok_mem ran history member)
  rw [each]
  cases ran : cycle.heaps.mapM (HeapSummary.ofHistory · table policy) <;> simp [ofCycle,server,ran]

theorem ofCycle_heaps {heaps : List (HeapHistory α)} (server : cycle.serverHeaps = .ok heaps)
    {table : PhaseTable} {policy : TrailingPolicy} {summary : CycleSummary α}
    (made : ofCycle cycle table policy = .ok summary) :
    ∃ summaries, summary.heaps = .ok summaries ∧
      summaries.map (·.heap) = cycle.heaps.map (·.heap) := by
  cases Cycle.serverHeaps_ok server
  unfold ofCycle at made
  rw [server] at made
  cases ran : cycle.heaps.mapM (HeapSummary.ofHistory · table policy) with
  | error e => simp [ran] at made
  | ok summaries =>
    simp only [ran] at made
    cases made
    exact ⟨summaries,rfl,HeapSummary.ofHistories_heaps ran⟩

theorem ofCycle_of_compute {table : PhaseTable} {policy : TrailingPolicy}
    {statistics : Failable (Statistics α)}
    (computed : Statistics.compute cycle table policy = .ok statistics) :
    ∃ summary, ofCycle cycle table policy = .ok summary := by
  cases server : cycle.serverHeaps with
  | error failure => exact ⟨_,by simp only [ofCycle,server]; rfl⟩
  | ok heaps =>
    cases ran : cycle.joinTimes policy with
    | error e => simp [Statistics.compute,ran,Except.map] at computed
    | ok all =>
      have admitted := Cycle.admits_iff.mp (Cycle.joinTimes_admits server ran)
      exact (ofCycle_ok_iff server table policy).mpr admitted.2

end CycleSummary

namespace Reporter
variable {reporter : Reporter α} {cycle : Cycle α}

theorem make_ok (table : PhaseTable) (config : Config α) :
    make table config = .ok ⟨table,config,(JoinCatalog.builder table).catalog⟩ := by
  rw [make,JoinCatalog.ofTable_ok]
  rfl

theorem report_ok_iff {report : Report α} : reporter.report cycle = .ok report ↔
    ∃ statistics timeline summary,
      Statistics.compute cycle reporter.table reporter.config.policy = .ok statistics ∧
      Timeline.reconstruct reporter.config reporter.table cycle.pause cycle.eventLists =
        .ok timeline ∧
      CycleSummary.ofCycle cycle reporter.table reporter.config.policy = .ok summary ∧
      report = ⟨cycle.gcNumber,statistics,timeline,reporter.catalog.evaluateAll summary⟩ := by
  unfold Reporter.report
  cases Statistics.compute cycle reporter.table reporter.config.policy with
  | error e => simp
  | ok statistics =>
    cases Timeline.reconstruct reporter.config reporter.table cycle.pause cycle.eventLists with
    | error e => simp
    | ok timeline =>
      cases CycleSummary.ofCycle cycle reporter.table reporter.config.policy with
      | error e => simp
      | ok summary => simp [eq_comm]

theorem report_error_iff {e : AnalysisError α} : reporter.report cycle = .error e ↔
    Statistics.compute cycle reporter.table reporter.config.policy = .error e ∨
      (∃ statistics,
        Statistics.compute cycle reporter.table reporter.config.policy = .ok statistics) ∧
        Timeline.reconstruct reporter.config reporter.table cycle.pause cycle.eventLists =
          .error e := by
  unfold Reporter.report
  cases computed : Statistics.compute cycle reporter.table reporter.config.policy with
  | error e' => simp
  | ok statistics =>
    obtain ⟨summary,made⟩ := CycleSummary.ofCycle_of_compute computed
    rw [made]
    cases Timeline.reconstruct reporter.config reporter.table cycle.pause cycle.eventLists <;> simp

theorem report_exists (distinct : (cycle.heaps.map (·.heap)).Nodup)
    (each : ∀ history ∈ cycle.heaps, ∃ times,
      joinTimes history.heap history.events reporter.config.policy = .ok times)
    {timeline : Timeline α}
    (timed : Timeline.reconstruct reporter.config reporter.table cycle.pause cycle.eventLists =
      .ok timeline) :
    ∃ report, reporter.report cycle = .ok report := by
  cases reported : reporter.report cycle with
  | ok report => exact ⟨report,rfl⟩
  | error e =>
    rcases report_error_iff.mp reported with uncomputed | ⟨_,untimed⟩
    · have refused := (Statistics.compute_error_iff.mp uncomputed).2
      exact absurd (Cycle.admits_iff.mpr ⟨distinct,each⟩) refused.not_admits
    · cases timed.symm.trans untimed

end Reporter

namespace Sample
open TraceGrammar

def shortTrace : List (Event ℚ) := [
  join .finish .generationDetermined 2, join .start .beginMarkPhase 11,
  join .finish .beginMarkPhase 13]

theorem shortTrace_accepted : Accepted .doneOnly shortTrace
    [⟨join .start .beginMarkPhase 11,join .finish .beginMarkPhase 13⟩] none := by
  have marking : Item [join .start .beginMarkPhase 11, join .finish .beginMarkPhase 13]
      [⟨join .start .beginMarkPhase 11,join .finish .beginMarkPhase 13⟩] :=
    @Item.waited _ _ _ [] [] rfl .absent rfl rfl .absent
  exact .traced (.lone (by decide)) (.cons marking .nil) .ended

def histories : List (HeapHistory ℚ) := [⟨0,trace⟩, ⟨1,shortTrace⟩]

def cycle : Cycle ℚ := ⟨7,2,50,histories⟩

def config : Config ℚ := ⟨.doneOnly,0,0⟩

theorem replayed : ∀ history ∈ histories, ∃ times,
    joinTimes history.heap history.events .doneOnly = .ok times := by
  intro history member
  simp only [histories,List.mem_cons,List.not_mem_nil,or_false] at member
  rcases member with rfl | rfl
  · obtain ⟨_,clean,_⟩ := Replayer.run_accepted 0 trace_accepted
    exact ⟨_,joinTimes_clean clean⟩
  · obtain ⟨_,clean,_⟩ := Replayer.run_accepted 1 shortTrace_accepted
    exact ⟨_,joinTimes_clean clean⟩

theorem reported {reporter : Reporter ℚ} {table : PhaseTable}
    (made : Reporter.make table config = .ok reporter) :
    ∃ report, reporter.report cycle = .ok report := by
  cases (Reporter.make_ok table config).symm.trans made
  have timed : (StageTimeline.reconstruct config cycle.eventLists).isOk = true := by decide
  cases built : StageTimeline.reconstruct config cycle.eventLists with
  | error e => simp [built,Except.isOk,Except.toBool] at timed
  | ok stages =>
    exact Reporter.report_exists (by decide) replayed (by simp only [Timeline.reconstruct,built]; rfl)

def repeatedCycle : Cycle ℚ :=
  ⟨7,2,50,[⟨1,shortTrace⟩,⟨1,[join .finish .beginMarkPhase 13]⟩]⟩

theorem repeatedCycle_refused :
    Cycle.FirstRefused .doneOnly repeatedCycle.heaps (.duplicateHeap 1) := by
  have admits : Cycle.Admits .doneOnly [(⟨1,shortTrace⟩ : HeapHistory ℚ)] := by
    refine Cycle.admits_iff.mpr ⟨by decide,List.forall_mem_singleton.mpr ?_⟩
    exact replayed ⟨1,shortTrace⟩ (by decide)
  exact ⟨[⟨1,shortTrace⟩],_,List.prefix_refl _,admits,.repeated (by decide)⟩

end Sample

namespace Reporter

-- The statistics are computed first, then the timeline; a summary of what passed the first cannot
-- fail. Of the histories, the first that repeats a heap or cannot be replayed is the one reported.
theorem report_error_precedence (table : PhaseTable) (config : Config α) :
    ∃ reporter, make table config = .ok reporter ∧ ∀ cycle : Cycle α,
      (∀ e, reporter.report cycle = .error e ↔
        Statistics.compute cycle table config.policy = .error e ∨
          (∃ statistics, Statistics.compute cycle table config.policy = .ok statistics) ∧
            Timeline.reconstruct config table cycle.pause cycle.eventLists = .error e) ∧
      (∀ statistics, Statistics.compute cycle table config.policy = .ok statistics →
        ∃ summary, CycleSummary.ofCycle cycle table config.policy = .ok summary) ∧
      ∀ e, Statistics.compute cycle table config.policy = .error e ↔
        (∃ heaps, cycle.serverHeaps = .ok heaps) ∧
          Cycle.FirstRefused config.policy cycle.heaps e := by
  refine ⟨_,make_ok table config,fun cycle => ⟨fun e => report_error_iff,?_,?_⟩⟩
  · intro statistics computed
    exact CycleSummary.ofCycle_of_compute computed
  · intro e
    exact Statistics.compute_error_iff

theorem report_error_precedence_sample :
    ∃ reporter, make .builtin Sample.config = .ok reporter ∧
      reporter.report Sample.repeatedCycle = .error (.duplicateHeap 1) ∧
      ∃ statistics summary,
        Statistics.compute Sample.cycle .builtin Sample.config.policy = .ok statistics ∧
        CycleSummary.ofCycle Sample.cycle .builtin Sample.config.policy = .ok summary := by
  obtain ⟨reporter,made,told⟩ := report_error_precedence .builtin Sample.config
  obtain ⟨failing,_,refused⟩ := told Sample.repeatedCycle
  obtain ⟨failing',summed,_⟩ := told Sample.cycle
  refine ⟨reporter,made,?_,?_⟩
  · exact (failing _).mpr (.inl ((refused _).mpr ⟨⟨_,rfl⟩,Sample.repeatedCycle_refused⟩))
  · cases computed : Statistics.compute Sample.cycle .builtin Sample.config.policy with
    | error e =>
      obtain ⟨report,reported⟩ := Sample.reported made
      cases reported.symm.trans ((failing' e).mpr (.inl computed))
    | ok statistics =>
      obtain ⟨summary,summarised⟩ := summed statistics computed
      exact ⟨statistics,summary,rfl,summarised⟩

end Reporter
end JoinTrace
