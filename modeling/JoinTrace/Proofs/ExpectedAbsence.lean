import JoinTrace.Proofs.CatalogValues
import JoinTrace.Proofs.ReportErrors

-- What is expectedly absent stays data. A collection without joins to measure has a report all the
-- same, in which every statistic is the one failure that says why.
namespace JoinTrace
variable {α C E : Type}

theorem Cycle.serverHeaps_error_iff {cycle : Cycle α} {failure : Failure} :
    cycle.serverHeaps = .error failure ↔
      cycle.heapCount ≤ 1 ∧ failure = ⟨"join durations are only valid for server GC"⟩ ∨
      1 < cycle.heapCount ∧ cycle.heaps = [] ∧
        failure = ⟨"empty server GC heap histories"⟩ := by
  unfold Cycle.serverHeaps fail
  split
  next few =>
    have notSeveral : ¬ 1 < cycle.heapCount := UInt32.not_lt.mpr few
    simp [few,notSeveral,eq_comm]
  next several =>
    have more : 1 < cycle.heapCount := UInt32.not_le.mp several
    split
    next none => simp [several,more,List.isEmpty_iff.mp none,eq_comm]
    next some => simp [several,mt List.isEmpty_iff.mpr some]

namespace CatalogBuilder
variable {builder : CatalogBuilder α C E} {container : C} {failure : Failure}

def Draws (builder : CatalogBuilder α C E) (filter : String) : Prop :=
  filter = "" ∨ ∃ get, ⟨filter,.bool get⟩ ∈ builder.metrics

theorem Draws.selects {name : String} (draws : builder.Draws name)
    (absent : builder.elements container = .error failure) :
    builder.Selects container name (.error failure) := by
  rcases draws with rfl | ⟨get,listed⟩
  · rw [← absent]
    exact .all
  · exact .missing listed absent

def Strict (entry : CatalogEntry α C) (filter : Filter C E) (container : C) : Prop :=
  entry.metric.filter = filter.name ∧
    ∀ failure, filter.elements container = .error failure →
      entry.evaluate container = .error failure

theorem strict_of_bind {entry : CatalogEntry α C} {filter : Filter C E}
    (filtered : entry.metric.filter = filter.name) {next : List E → Failable (MetricValue α)}
    (made : entry.evaluate container = filter.elements container >>= next) :
    Strict entry filter container := by
  refine ⟨filtered,fun failure absent => ?_⟩
  rw [made,absent]
  rfl

variable [Scalar α]

theorem metricEntries_strict (metric : ElementMetric α C E) (filter : Filter C E) (container : C) :
    ∀ entry ∈ metricEntries metric filter, Strict entry filter container := by
  intro entry made
  obtain ⟨name,get | get⟩ := metric
  · simp only [metricEntries,List.mem_cons,List.not_mem_nil,or_false] at made
    rcases made with rfl | rfl
    · exact strict_of_bind rfl rfl
    · exact strict_of_bind rfl rfl
  · obtain ⟨aggregate,_,rfl⟩ := List.mem_map.mp made
    exact strict_of_bind rfl rfl

theorem entry_strict (container : C) :
    ∀ entry ∈ builder.entriesOver builder.allFilters,
      ∃ filter ∈ builder.allFilters, Strict entry filter container := by
  intro entry listed
  rcases List.mem_append.mp listed with measured | whole
  · obtain ⟨metric,_,made⟩ := List.mem_flatMap.mp measured
    obtain ⟨filter,kept,made⟩ := List.mem_flatMap.mp made
    exact ⟨filter,kept,metricEntries_strict metric filter container entry made⟩
  · obtain ⟨filter,kept,made⟩ := List.mem_flatMap.mp whole
    obtain ⟨special,_,rfl⟩ := List.mem_map.mp made
    exact ⟨filter,kept,strict_of_bind rfl rfl⟩

theorem entry_absent (distinct : builder.filterOrder.Nodup)
    (absent : builder.elements container = .error failure) {entry : CatalogEntry α C}
    (listed : entry ∈ builder.catalog.entries) (draws : builder.Draws entry.metric.filter) :
    entry.evaluate container = .error failure := by
  obtain ⟨filter,kept,filtered,strict⟩ := entry_strict container entry listed
  have selected := selects_allFilters container kept
  rw [← filtered] at selected
  exact strict failure (selected.unique distinct (draws.selects absent))

theorem entry_filter {entry : CatalogEntry α C} (listed : entry ∈ builder.catalog.entries)
    (container : C) : entry.metric.filter ∈ builder.filterOrder := by
  obtain ⟨filter,kept,filtered,_⟩ := entry_strict container entry listed
  rw [filtered,← allFilters_names]
  exact List.mem_map.mpr ⟨filter,kept,rfl⟩

end CatalogBuilder

namespace JoinCatalog
variable [Scalar α]

theorem draws_all (table : PhaseTable) {filter : String}
    (ordered : filter ∈ (builder (α := α) table).filterOrder) :
    (builder (α := α) table).Draws filter := by
  rw [filterOrder_eq] at ordered
  simp only [List.mem_cons,List.not_mem_nil,or_false] at ordered
  rcases ordered with rfl | rfl
  · exact .inl rfl
  · exact .inr ⟨_,List.mem_append_right _ (List.mem_singleton.mpr rfl)⟩

theorem evaluateAll_absent (table : PhaseTable) {summary : CycleSummary α} {failure : Failure}
    (absent : summary.heaps = .error failure) :
    (builder table).catalog.evaluateAll summary =
      (builder (α := α) table).catalog.names.map (·,.error failure) := by
  have distinct : (builder (α := α) table).filterOrder.Nodup := by
    rw [filterOrder_eq]
    decide
  unfold Catalog.evaluateAll Catalog.names
  rw [List.map_map]
  refine List.map_congr_left fun entry listed => ?_
  have draws := draws_all table (CatalogBuilder.entry_filter listed summary)
  exact congrArg _ (CatalogBuilder.entry_absent distinct absent listed draws)

end JoinCatalog

variable [Scalar α]

theorem Statistics.compute_absent {cycle : Cycle α} {failure : Failure}
    (absent : cycle.serverHeaps = .error failure) (table : PhaseTable) (policy : TrailingPolicy) :
    Statistics.compute cycle table policy = .ok (.error failure) := by
  simp only [Statistics.compute,Cycle.joinTimes,absent]
  rfl

theorem CycleSummary.ofCycle_absent {cycle : Cycle α} {failure : Failure}
    (absent : cycle.serverHeaps = .error failure) (table : PhaseTable) (policy : TrailingPolicy) :
    CycleSummary.ofCycle cycle table policy = .ok ⟨cycle.gcNumber,.error failure⟩ := by
  simp only [CycleSummary.ofCycle,absent]

namespace Sample

def loneCycle : Cycle ℚ := ⟨7,1,50,[⟨0,[join .finish .beginMarkPhase 13]⟩]⟩

theorem loneCycle_unreplayed : ∀ history ∈ loneCycle.heaps,
    joinTimes history.heap history.events .doneOnly =
      .error (.stageMismatch 0 .generationDetermined .beginMarkPhase) := by
  refine List.forall_mem_singleton.mpr ?_
  have gave : (Replayer.start 0 [join .finish .beginMarkPhase 13] .doneOnly).next =
    (some (.error (.stageMismatch 0 .generationDetermined .beginMarkPhase)),_) := rfl
  simp only [joinTimes,Replayer.run_failed gave]

def emptyCycle : Cycle ℚ := ⟨8,4,50,[]⟩

def missing : CatalogBuilder ℚ Unit Nat where
  elements _ := fail "nothing to count"
  metrics := [⟨"Even",.bool fun _ listed place => .ok (listed.get place % 2 == 0)⟩]
  filters := [⟨"Fixed",fun _ => .ok [1,2]⟩]
  specials := []

end Sample

namespace Reporter

theorem absence_stays_data :
    (∀ (cycle : Cycle α) (failure : Failure), cycle.serverHeaps = .error failure ↔
      cycle.heapCount ≤ 1 ∧ failure = ⟨"join durations are only valid for server GC"⟩ ∨
      1 < cycle.heapCount ∧ cycle.heaps = [] ∧
        failure = ⟨"empty server GC heap histories"⟩) ∧
    (∀ (table : PhaseTable) (config : Config α), ∃ reporter,
      make table config = .ok reporter ∧ JoinCatalog.ofTable table = .ok reporter.catalog ∧
      ∀ (cycle : Cycle α) (failure : Failure), cycle.serverHeaps = .error failure →
        (∀ e, reporter.report cycle = .error e ↔
          Timeline.reconstruct config table cycle.pause cycle.eventLists = .error e) ∧
        ∀ timeline, Timeline.reconstruct config table cycle.pause cycle.eventLists = .ok timeline →
          reporter.report cycle = .ok ⟨cycle.gcNumber,.error failure,timeline,
            reporter.catalog.names.map (·,.error failure)⟩) ∧
    ∀ {C E : Type} (builder : CatalogBuilder α C E) (made : Catalog α C),
      builder.build = .ok made → ∀ container failure,
        builder.elements container = .error failure → ∀ entry ∈ made.entries,
          (entry.metric.filter = "" ∨ ∃ get, ⟨entry.metric.filter,.bool get⟩ ∈ builder.metrics) →
          entry.evaluate container = .error failure := by
  refine ⟨fun cycle failure => Cycle.serverHeaps_error_iff,fun table config => ?_,?_⟩
  · refine ⟨_,make_ok table config,JoinCatalog.ofTable_ok table,fun cycle failure absent => ⟨?_,?_⟩⟩
    · intro e
      rw [report_error_iff]
      simp [Statistics.compute_absent absent]
    · intro timeline timed
      refine report_ok_iff.mpr ⟨_,timeline,_,Statistics.compute_absent absent _ _,timed,
        CycleSummary.ofCycle_absent absent _ _,?_⟩
      rw [JoinCatalog.evaluateAll_absent table rfl]
  · intro C E builder made built container failure absent entry listed draws
    obtain ⟨fresh,rfl⟩ := (builder.build_registers.ok_iff made).mp built
    have distinct := (builder.claims_nodup_iff.mp fresh).1
    exact CatalogBuilder.entry_absent distinct absent listed draws

theorem absence_stays_data_sample :
    (∀ history ∈ Sample.loneCycle.heaps,
      joinTimes history.heap history.events .doneOnly =
        .error (.stageMismatch 0 .generationDetermined .beginMarkPhase)) ∧
    (∃ reporter timeline, make .builtin Sample.config = .ok reporter ∧
      reporter.report Sample.loneCycle = .ok
        ⟨7,.error ⟨"join durations are only valid for server GC"⟩,timeline,
          reporter.catalog.names.map (·,.error ⟨"join durations are only valid for server GC"⟩)⟩) ∧
    Sample.emptyCycle.serverHeaps = .error ⟨"empty server GC heap histories"⟩ ∧
    ∃ made, Sample.missing.build = .ok made ∧ ∃ entry ∈ made.entries,
      entry.metric.name = "PctEvenWhereEven" ∧
        entry.evaluate () = .error ⟨"nothing to count"⟩ := by
  obtain ⟨absent,reports,catalogs⟩ := absence_stays_data (α := ℚ)
  refine ⟨Sample.loneCycle_unreplayed,?_,(absent _ _).mpr (.inr ⟨by decide,rfl,rfl⟩),?_⟩
  · obtain ⟨reporter,made,_,told⟩ := reports .builtin Sample.config
    have timed :
        (StageTimeline.reconstruct Sample.config Sample.loneCycle.eventLists).isOk = true := by
      decide
    cases built : StageTimeline.reconstruct Sample.config Sample.loneCycle.eventLists with
    | error e => simp [built,Except.isOk,Except.toBool] at timed
    | ok stages =>
      have server := (absent Sample.loneCycle _).mpr (.inl ⟨by decide,rfl⟩)
      exact ⟨reporter,_,made,(told Sample.loneCycle _ server).2 _ (by
        simp only [Timeline.reconstruct,built]; rfl)⟩
  · have built : Sample.missing.build = .ok Sample.missing.catalog :=
      (Sample.missing.build_registers.ok_iff _).mpr ⟨by decide,rfl⟩
    have listed : ∃ entry ∈ Sample.missing.catalog.entries,
        entry.metric.name = "PctEvenWhereEven" ∧ entry.metric.filter = "Even" := by decide
    obtain ⟨entry,member,named,filtered⟩ := listed
    obtain ⟨get,even⟩ : ∃ get, ⟨"Even",.bool get⟩ ∈ Sample.missing.metrics :=
      ⟨_,List.mem_cons_self⟩
    have draws : ⟨entry.metric.filter,.bool get⟩ ∈ Sample.missing.metrics := filtered ▸ even
    exact ⟨_,built,entry,member,named,catalogs _ _ built () _ rfl entry member (.inr ⟨get,draws⟩)⟩

end Reporter
end JoinTrace
