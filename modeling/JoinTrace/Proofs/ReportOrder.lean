import JoinTrace.Proofs.CatalogOrder
import JoinTrace.Proofs.ReportErrors
import JoinTrace.Proofs.TimelineReplay

namespace JoinTrace
variable {α : Type}

theorem Cycle.serverHeaps_perm (cycle : Cycle α) {heaps : List (HeapHistory α)}
    (perm : cycle.heaps.Perm heaps) :
    (∃ failure, cycle.serverHeaps = .error failure ∧
      { cycle with heaps := heaps }.serverHeaps = .error failure) ∨
    cycle.serverHeaps = .ok cycle.heaps ∧ { cycle with heaps := heaps }.serverHeaps = .ok heaps := by
  unfold Cycle.serverHeaps
  rw [← perm.isEmpty_eq]
  split
  · exact .inl ⟨_,rfl,rfl⟩
  · split
    · exact .inl ⟨_,rfl,rfl⟩
    · exact .inr ⟨rfl,rfl⟩

theorem Catalog.evaluateAll_names {C : Type} (catalog : Catalog α C) (container : C) :
    (catalog.evaluateAll container).map (·.1) = catalog.names := by
  simp [Catalog.evaluateAll,Catalog.names,Function.comp_def]

variable [Scalar α]

namespace Cycle

theorem joinTimes_perm {cycle : Cycle α} {heaps : List (HeapHistory α)} {policy : TrailingPolicy}
    (distinct : (cycle.heaps.map (·.heap)).Nodup) (perm : cycle.heaps.Perm heaps)
    {all : Failable (HeapJoinTimes α)} (ran : cycle.joinTimes policy = .ok all) :
    { cycle with heaps := heaps }.joinTimes policy = .ok all := by
  unfold joinTimes at ran ⊢
  rcases cycle.serverHeaps_perm perm with ⟨failure,failed,failed'⟩ | ⟨listed,listed'⟩
  · rw [failed] at ran
    rw [failed']
    exact ran
  · rw [listed] at ran
    rw [listed']
    cases replayed : cycle.heaps.foldlM (replayInto policy) ∅ with
    | error e => simp [replayed] at ran
    | ok out =>
      simp only [replayed] at ran
      simp only [replays_perm distinct perm replayed]
      exact ran

end Cycle

theorem Statistics.compute_perm {cycle : Cycle α} {heaps : List (HeapHistory α)}
    {table : PhaseTable} {policy : TrailingPolicy} (distinct : (cycle.heaps.map (·.heap)).Nodup)
    (perm : cycle.heaps.Perm heaps) {statistics : Failable (Statistics α)}
    (computed : Statistics.compute cycle table policy = .ok statistics) :
    Statistics.compute { cycle with heaps := heaps } table policy = .ok statistics := by
  unfold Statistics.compute at computed ⊢
  cases ran : cycle.joinTimes policy with
  | error e => rw [ran] at computed; cases computed
  | ok all =>
    rw [ran] at computed
    rw [Cycle.joinTimes_perm distinct perm ran]
    exact computed

theorem CycleSummary.ofCycle_perm {cycle : Cycle α} {heaps : List (HeapHistory α)}
    {table : PhaseTable} {policy : TrailingPolicy} (perm : cycle.heaps.Perm heaps)
    {summary : CycleSummary α} (made : CycleSummary.ofCycle cycle table policy = .ok summary) :
    ∃ other, CycleSummary.ofCycle { cycle with heaps := heaps } table policy = .ok other ∧
      Rearranged summary.heaps other.heaps := by
  unfold CycleSummary.ofCycle at made ⊢
  rcases cycle.serverHeaps_perm perm with ⟨failure,failed,failed'⟩ | ⟨listed,listed'⟩
  · rw [failed] at made
    cases made
    rw [failed']
    exact ⟨_,rfl,.failed failure⟩
  · rw [listed] at made
    rw [listed']
    cases ran : cycle.heaps.mapM (HeapSummary.ofHistory · table policy) with
    | error e => simp [ran] at made
    | ok summaries =>
      simp only [ran] at made
      cases made
      obtain ⟨others,ran',perm'⟩ := mapM_perm perm ran
      simp only [ran']
      exact ⟨_,rfl,.values perm'⟩

theorem Timeline.reconstruct_perm {heaps others : List (HeapId × List (Event α))}
    (distinct : (heaps.map (·.1)).Nodup) (perm : heaps.Perm others) (config : Config α)
    (table : PhaseTable) (pause : α) :
    Timeline.reconstruct config table pause heaps = Timeline.reconstruct config table pause others := by
  rw [Timeline.reconstruct,StageTimeline.reconstruct_perm distinct perm,Timeline.reconstruct]

namespace Reporter

-- The report of the rearranged collection differs at most in what the catalog says of the
-- rearranged summaries.
theorem report_perm {reporter : Reporter α} {cycle : Cycle α} {heaps : List (HeapHistory α)}
    (distinct : (cycle.heaps.map (·.heap)).Nodup) (perm : cycle.heaps.Perm heaps)
    {report : Report α} (reported : reporter.report cycle = .ok report) :
    ∃ summary other : CycleSummary α, Rearranged summary.heaps other.heaps ∧
      report.heapMetrics = reporter.catalog.evaluateAll summary ∧
      reporter.report { cycle with heaps := heaps } =
        .ok { report with heapMetrics := reporter.catalog.evaluateAll other } := by
  have lists : cycle.eventLists.map (·.1) = cycle.heaps.map (·.heap) := by
    simp [Cycle.eventLists,Function.comp_def]
  have retimed : Timeline.reconstruct reporter.config reporter.table cycle.pause cycle.eventLists =
      Timeline.reconstruct reporter.config reporter.table cycle.pause
        { cycle with heaps := heaps }.eventLists :=
    Timeline.reconstruct_perm (lists ▸ distinct) (perm.map _) ..
  obtain ⟨statistics,timeline,summary,computed,timed,made,rfl⟩ := report_ok_iff.mp reported
  obtain ⟨other,made',same⟩ := CycleSummary.ofCycle_perm perm made
  refine ⟨summary,other,same,rfl,report_ok_iff.mpr ⟨statistics,timeline,other,?_,?_,made',rfl⟩⟩
  · exact Statistics.compute_perm distinct perm computed
  · exact retimed ▸ timed

end Reporter

namespace JoinCatalog

def SameHeaps (summary other : CycleSummary α) : Prop := Rearranged summary.heaps other.heaps

theorem metrics_placeless (table : PhaseTable) :
    ∀ metric ∈ metrics (α := ℚ) table, metric.Placeless := by
  intro metric member
  rcases List.mem_append.mp member with float | alone
  · obtain ⟨name,read,alike,rfl⟩ := floatMetrics_read table metric float
    exact .float read alike fun _ _ _ => rfl
  · cases List.mem_singleton.mp alone
    exact .bool HeapSummary.ranAlone fun _ _ _ => rfl

theorem builder_orderFree (table : PhaseTable) :
    (builder (α := ℚ) table).OrderFree SameHeaps where
  elements same := same
  filters filter member := by cases member
  metrics := metrics_placeless table
  specials special member _ _ _ items others perm := by
    cases List.mem_singleton.mp member
    simp only [heapCount,perm.length_eq]

end JoinCatalog

namespace Reporter

theorem report_ignores_heap_order (table : PhaseTable) :
    (∀ {α : Type} [Scalar α] (config : Config α),
      ∃ reporter, make table config = .ok reporter ∧
        ∀ (cycle : Cycle α) (heaps : List (HeapHistory α)),
          (cycle.heaps.map (·.heap)).Nodup → cycle.heaps.Perm heaps →
          ((∃ report, reporter.report cycle = .ok report) ↔
            ∃ other, reporter.report { cycle with heaps := heaps } = .ok other) ∧
          ∀ report other, reporter.report cycle = .ok report →
            reporter.report { cycle with heaps := heaps } = .ok other →
            other.statistics = report.statistics ∧ other.timeline = report.timeline ∧
              other.heapMetrics.map (·.1) = report.heapMetrics.map (·.1)) ∧
    ∀ (config : Config ℚ) (reporter : Reporter ℚ), make table config = .ok reporter →
      ∀ (cycle : Cycle ℚ) (heaps : List (HeapHistory ℚ)),
        (cycle.heaps.map (·.heap)).Nodup → cycle.heaps.Perm heaps →
        ∀ report other, reporter.report cycle = .ok report →
          reporter.report { cycle with heaps := heaps } = .ok other →
          other.heapMetrics = report.heapMetrics := by
  refine ⟨fun config => ⟨_,make_ok table config,fun cycle heaps distinct perm => ⟨?_,?_⟩⟩,?_⟩
  · have apart := (perm.map (·.heap)).nodup_iff.mp distinct
    constructor
    · rintro ⟨report,reported⟩
      obtain ⟨_,_,_,_,reported'⟩ := report_perm distinct perm reported
      exact ⟨_,reported'⟩
    · rintro ⟨other,reported⟩
      obtain ⟨_,_,_,_,reported'⟩ := report_perm apart perm.symm reported
      exact ⟨_,reported'⟩
  · intro report other reported reported'
    obtain ⟨_,_,_,metrics,again⟩ := report_perm distinct perm reported
    cases again.symm.trans reported'
    refine ⟨rfl,rfl,?_⟩
    rw [metrics,Catalog.evaluateAll_names,Catalog.evaluateAll_names]
  · intro config reporter made cycle heaps distinct perm report other reported reported'
    cases (make_ok table config).symm.trans made
    obtain ⟨_,_,same,metrics,again⟩ := report_perm distinct perm reported
    cases again.symm.trans reported'
    rw [metrics]
    exact ((JoinCatalog.builder_orderFree table).evaluateAll_eq same).symm

theorem report_ignores_heap_order_sample :
    ∃ reporter report other,
      Reporter.make .builtin Sample.config = .ok reporter ∧
      reporter.report Sample.cycle = .ok report ∧
      reporter.report { Sample.cycle with heaps := Sample.histories.reverse } = .ok other ∧
      other.statistics = report.statistics ∧ other.timeline = report.timeline ∧
      other.heapMetrics = report.heapMetrics := by
  obtain ⟨general,exact⟩ := Reporter.report_ignores_heap_order .builtin
  obtain ⟨reporter,made,agree⟩ := general Sample.config
  have distinct : (Sample.cycle.heaps.map (·.heap)).Nodup := by decide
  have perm : Sample.cycle.heaps.Perm Sample.histories.reverse := (List.reverse_perm _).symm
  obtain ⟨both,same⟩ := agree Sample.cycle _ distinct perm
  obtain ⟨report,reported⟩ := Sample.reported made
  obtain ⟨other,reported'⟩ := both.mp ⟨report,reported⟩
  obtain ⟨statistics,timeline,_⟩ := same report other reported reported'
  exact ⟨reporter,report,other,made,reported,reported',statistics,timeline,
    exact Sample.config reporter made Sample.cycle _ distinct perm report other reported reported'⟩

end Reporter
end JoinTrace
