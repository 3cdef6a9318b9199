import JoinTrace.Proofs.ExpectedAbsence
import JoinTrace.Proofs.Greatest
import JoinTrace.Proofs.StageAccount
import JoinTrace.Proofs.StatisticsLevels

-- The longest join of a collection, which a report tells twice: its statistics take it over the
-- joins of all heaps at once, its metrics over the longest join of each heap.
namespace JoinTrace

section Observed
variable {α : Type} [Scalar α] {policy : TrailingPolicy}

def HeapHistory.observed (history : HeapHistory α) (policy : TrailingPolicy) : List α :=
  (Replayer.start history.heap history.events policy).run.1.map (·.duration)

def Cycle.observed (cycle : Cycle α) (policy : TrailingPolicy) : List α :=
  cycle.heaps.flatMap (·.observed policy)

theorem mem_durations {history : HeapHistory α} {times : JoinTimes α}
    (ran : joinTimes history.heap history.events policy = .ok times) {duration : α} :
    duration ∈ times.durations ↔ duration ∈ history.observed policy := by
  obtain ⟨_,rfl⟩ := joinTimes_ok_iff.mp ran
  exact (JoinTimes.durations_ofObservations _).mem_iff

namespace HeapSummary
variable {history : HeapHistory α} {table : PhaseTable} {summary : HeapSummary α}

theorem mem_observed (made : ofHistory history table policy = .ok summary) {duration : α} :
    duration ∈ summary.durations ↔ duration ∈ history.observed policy := by
  obtain ⟨times,ran,rfl⟩ := ofHistory_parts made
  exact mem_durations ran

theorem durations_eq_nil (made : ofHistory history table policy = .ok summary) :
    summary.durations = [] ↔ history.observed policy = [] := by
  simp only [List.eq_nil_iff_forall_not_mem,mem_observed made]

end HeapSummary

theorem mem_flatMap_durations {histories : List (HeapHistory α)} {table : PhaseTable}
    {summaries : List (HeapSummary α)}
    (made : histories.mapM (HeapSummary.ofHistory · table policy) = .ok summaries) {duration : α} :
    duration ∈ summaries.flatMap (·.durations) ↔
      duration ∈ histories.flatMap (·.observed policy) := by
  simp only [List.mem_flatMap]
  constructor
  · rintro ⟨summary,listed,inside⟩
    obtain ⟨history,member,summed⟩ := (mapM_mem_iff made).mp listed
    exact ⟨history,member,(HeapSummary.mem_observed summed).mp inside⟩
  · rintro ⟨history,member,inside⟩
    obtain ⟨summary,summed⟩ := mapM_ok_mem made history member
    exact ⟨summary,(mapM_mem_iff made).mpr ⟨history,member,summed⟩,
      (HeapSummary.mem_observed summed).mpr inside⟩

theorem Cycle.Replays.mem_durations {histories : List (HeapHistory α)} {all : HeapJoinTimes α}
    (replays : Cycle.Replays policy histories ∅ all) {duration : α} :
    duration ∈ all.values.flatMap JoinTimes.durations ↔
      duration ∈ histories.flatMap (·.observed policy) := by
  simp only [List.mem_flatMap,SortedMap.mem_values]
  constructor
  · rintro ⟨times,⟨heap,held⟩,inside⟩
    by_cases known : ∃ history ∈ histories, history.heap = heap
    · obtain ⟨history,member,rfl⟩ := known
      obtain ⟨_,ran,found⟩ := replays.found history member
      cases held.symm.trans found
      exact ⟨history,member,(JoinTrace.mem_durations ran).mp inside⟩
    · have absent := replays.elsewhere heap fun history member same => known ⟨history,member,same⟩
      cases held.symm.trans absent
  · rintro ⟨history,member,inside⟩
    obtain ⟨times,ran,found⟩ := replays.found history member
    exact ⟨times,⟨history.heap,found⟩,(JoinTrace.mem_durations ran).mpr inside⟩

end Observed

section Statistics
variable {α : Type} [Scalar α]

namespace Statistics

theorem compute_longest [NumericScalar α] {cycle : Cycle α} {heaps : List (HeapHistory α)}
    {table : PhaseTable} {policy : TrailingPolicy} {outcome : Failable (Statistics α)}
    (server : cycle.serverHeaps = .ok heaps) (present : cycle.observed policy ≠ [])
    (computed : compute cycle table policy = .ok outcome) :
    ∃ statistics, outcome = .ok statistics ∧
      Greatest (cycle.observed policy) statistics.overall.max := by
  cases ran : cycle.joinTimes policy with
  | error e => rw [compute,ran] at computed; cases computed
  | ok failable =>
    obtain ⟨distinct,_⟩ := Cycle.admits_iff.mp (Cycle.joinTimes_admits server ran)
    cases Cycle.serverHeaps_ok server
    rw [compute,ran] at computed
    cases computed
    simp only [Cycle.joinTimes,server] at ran
    cases replayed : cycle.heaps.foldlM (Cycle.replayInto policy) ∅ with
    | error e => rw [replayed] at ran; cases ran
    | ok all =>
      rw [replayed] at ran
      cases ran
      have replays := (Cycle.replays_iff (.empty distinct) all).mp replayed
      have same (duration : α) : duration ∈ all.values.flatMap JoinTimes.durations ↔
          duration ∈ cycle.observed policy := replays.mem_durations
      obtain ⟨duration,listed⟩ := List.exists_mem_of_ne_nil _ present
      obtain ⟨statistics,made⟩ :=
        ofJoinTimes_ok table (List.ne_nil_of_mem ((same duration).mpr listed))
      obtain ⟨_,longest,_⟩ := Spread.of_parts (tells_of_ofJoinTimes made).overall
      exact ⟨statistics,made,(greatest_max longest).of_mem_iff same⟩

end Statistics
end Statistics

section Metrics
variable {α : Type}

def HeapHistory.ranAlone (history : HeapHistory α) : Bool :=
  history.events.any Event.isSingleThreadedStart

theorem count_flags {τ : Type} (holds : τ → Bool) (items : List τ) :
    (items.map holds).count true = (items.filter holds).length := by
  rw [List.count,List.countP_map,List.countP_eq_length_filter]
  simp [Function.comp_def]

theorem Cycle.serverHeaps_some {cycle : Cycle α} {heaps : List (HeapHistory α)}
    (server : cycle.serverHeaps = .ok heaps) : cycle.heaps ≠ [] := by
  intro nothing
  unfold Cycle.serverHeaps at server
  rw [nothing] at server
  split at server <;> cases server

namespace JoinCatalog

def aloneGetter : ElementGetter (CycleSummary α) (HeapSummary α) Bool :=
  fun _ heaps place => .ok (heaps.get place).ranAlone

theorem aloneGetter_reads :
    (aloneGetter (α := α)).Reads fun heap => .ok heap.ranAlone := fun _ _ _ => rfl

def everyHeap : Filter (CycleSummary α) (HeapSummary α) := ⟨"",CycleSummary.heaps⟩

def aloneHeaps : Filter (CycleSummary α) (HeapSummary α) :=
  ⟨ranAloneMetric,Measurement.elementsWhere CycleSummary.heaps aloneGetter⟩

theorem aloneHeaps_elements {summary : CycleSummary α} {summaries : List (HeapSummary α)}
    (heaps : summary.heaps = .ok summaries) :
    aloneHeaps.elements summary = .ok (summaries.filter (·.ranAlone)) := by
  have bound : aloneHeaps.elements summary = (aloneGetter.values summary summaries).map fun flags =>
      ((summaries.zip flags).filter (·.2)).map (·.1) := by
    simp only [aloneHeaps,Measurement.elementsWhere,heaps]
    rfl
  rw [bound,Measurement.flags_eq aloneGetter_reads]
  exact congrArg Except.ok (Measurement.zip_filter _ summaries)

end JoinCatalog

variable [Scalar α]

def CycleSummary.longestJoin (summary : CycleSummary α) : Failable α := do
  Aggregate.max (← (← summary.heaps).mapM HeapSummary.maxJoin)

namespace HeapSummary
variable {summaries : List (HeapSummary α)}

theorem maxJoin_ok_iff {summary : HeapSummary α} {longest : α} :
    summary.maxJoin = .ok longest ↔ Aggregate.max summary.durations = .ok longest := by
  unfold maxJoin someDurations
  split
  · rename_i nothing
    rw [List.isEmpty_iff.mp nothing]
    exact ⟨nofun,nofun⟩
  · rfl

theorem maxJoins_ok_iff : (∃ tops, summaries.mapM maxJoin = .ok tops) ↔
    ∀ summary ∈ summaries, summary.durations ≠ [] := by
  constructor
  · rintro ⟨tops,each⟩ summary listed nothing
    obtain ⟨top,made⟩ := mapM_ok_mem each summary listed
    rw [maxJoin_ok_iff,nothing] at made
    cases made
  · intro present
    refine mapM_ok fun summary listed => ?_
    obtain ⟨top,made⟩ := JoinCatalog.max_ok (present summary listed)
    exact ⟨top,maxJoin_ok_iff.mpr made⟩

theorem greatest_maxJoins [NumericScalar α] {tops : List α} {longest : α}
    (each : summaries.mapM maxJoin = .ok tops) (found : Aggregate.max tops = .ok longest) :
    Greatest (summaries.flatMap (·.durations)) longest := by
  have greatest {summary : HeapSummary α} {top : α} (made : summary.maxJoin = .ok top) :
      Greatest summary.durations top := greatest_max (maxJoin_ok_iff.mp made)
  refine (greatest_max found).flatMap (fun summary listed => ?_) fun top listed => ?_
  · obtain ⟨top,made⟩ := mapM_ok_mem each summary listed
    exact ⟨top,(mapM_mem_iff each).mpr ⟨summary,listed,made⟩,greatest made⟩
  · obtain ⟨summary,member,made⟩ := (mapM_mem_iff each).mp listed
    exact ⟨summary,member,greatest made⟩

theorem ranAlone_count {histories : List (HeapHistory α)} {table : PhaseTable}
    {policy : TrailingPolicy}
    (made : histories.mapM (ofHistory · table policy) = .ok summaries) :
    (summaries.filter (·.ranAlone)).length = (histories.filter (·.ranAlone)).length := by
  have same : summaries.map (·.ranAlone) = histories.map (·.ranAlone) := by
    refine mapM_map made fun history summary summed => ?_
    obtain ⟨_,_,rfl⟩ := ofHistory_parts summed
    rfl
  rw [← count_flags,← count_flags,same]

end HeapSummary

namespace CycleSummary
variable {summary : CycleSummary α} {summaries : List (HeapSummary α)}

theorem longestJoin_ok_iff (heaps : summary.heaps = .ok summaries) {longest : α} :
    summary.longestJoin = .ok longest ↔ ∃ tops, summaries.mapM HeapSummary.maxJoin = .ok tops ∧
      Aggregate.max tops = .ok longest := by
  unfold longestJoin
  rw [heaps]
  change (summaries.mapM HeapSummary.maxJoin).bind Aggregate.max = .ok longest ↔ _
  cases summaries.mapM HeapSummary.maxJoin <;> simp [Except.bind]

theorem longestJoin_exists_iff (heaps : summary.heaps = .ok summaries) :
    (∃ longest, summary.longestJoin = .ok longest) ↔
      summaries ≠ [] ∧ ∀ heap ∈ summaries, heap.durations ≠ [] := by
  simp only [longestJoin_ok_iff heaps]
  constructor
  · rintro ⟨longest,tops,each,found⟩
    refine ⟨?_,HeapSummary.maxJoins_ok_iff.mp ⟨tops,each⟩⟩
    rintro rfl
    cases each
    cases found
  · rintro ⟨some,present⟩
    obtain ⟨tops,each⟩ := HeapSummary.maxJoins_ok_iff.mpr present
    have tops_some : tops ≠ [] := by
      rintro rfl
      cases mapM_ok_iff.mp each
      exact some rfl
    obtain ⟨longest,found⟩ := JoinCatalog.max_ok tops_some
    exact ⟨longest,tops,each,found⟩

variable {cycle : Cycle α} {table : PhaseTable} {policy : TrailingPolicy}

theorem longestJoin_iff (summed : ofCycle cycle table policy = .ok summary) :
    (∃ longest, summary.longestJoin = .ok longest) ↔ (∃ heaps, cycle.serverHeaps = .ok heaps) ∧
      ∀ history ∈ cycle.heaps, history.observed policy ≠ [] := by
  cases server : cycle.serverHeaps with
  | error failure =>
    cases (ofCycle_absent server table policy).symm.trans summed
    exact ⟨nofun,nofun⟩
  | ok histories =>
    obtain ⟨summaries,heaps,told⟩ := ofCycle_heaps server summed
    have made := ofCycle_summaries summed heaps
    have listed : summaries ≠ [] := by
      rintro rfl
      exact Cycle.serverHeaps_some server (List.map_eq_nil_iff.mp told.symm)
    have joined : (∀ heap ∈ summaries, heap.durations ≠ []) ↔
        ∀ history ∈ cycle.heaps, history.observed policy ≠ [] := by
      constructor
      · intro present history member
        obtain ⟨heap,summed⟩ := mapM_ok_mem made history member
        exact (HeapSummary.durations_eq_nil summed).not.mp
          (present heap ((mapM_mem_iff made).mpr ⟨history,member,summed⟩))
      · intro present heap inside
        obtain ⟨history,member,summed⟩ := (mapM_mem_iff made).mp inside
        exact (HeapSummary.durations_eq_nil summed).not.mpr (present history member)
    rw [longestJoin_exists_iff heaps,joined]
    exact ⟨fun ⟨_,present⟩ => ⟨⟨_,rfl⟩,present⟩,fun ⟨_,present⟩ => ⟨listed,present⟩⟩

theorem greatest_longestJoin [NumericScalar α] (summed : ofCycle cycle table policy = .ok summary)
    {longest : α} (found : summary.longestJoin = .ok longest) :
    Greatest (cycle.observed policy) longest := by
  cases heaps : summary.heaps with
  | error failure =>
    unfold longestJoin at found
    rw [heaps] at found
    cases found
  | ok summaries =>
    obtain ⟨tops,each,found⟩ := (longestJoin_ok_iff heaps).mp found
    exact (HeapSummary.greatest_maxJoins each found).of_mem_iff fun _ =>
      mem_flatMap_durations (ofCycle_summaries summed heaps)

end CycleSummary

namespace JoinCatalog
variable {table : PhaseTable} {summary : CycleSummary α} {summaries : List (HeapSummary α)}

theorem lookup_longest (table : PhaseTable) (summary : CycleSummary α) :
    ((builder table).catalog.evaluateAll summary).lookup "MaxIndividualJoinMSec_Max" =
      some (summary.longestJoin.map .float) := by
  have listed : floatMetric "MaxIndividualJoinMSec" HeapSummary.maxJoin ∈ metrics (α := α) table := by
    refine List.mem_append_left _ (List.mem_append_left _ (List.mem_append_left _ ?_))
    simp
  refine (lookup_aggregate listed .max summary).trans (congrArg some ?_)
  unfold CycleSummary.longestJoin
  cases summary.heaps with
  | error failure => rfl
  | ok heaps =>
    simp only [bind,Except.bind]
    cases heaps.mapM HeapSummary.maxJoin with
    | error failure => rfl
    | ok tops => cases Aggregate.max tops <;> rfl

theorem aloneMetric_listed (table : PhaseTable) : aloneMetric ∈ metrics (α := α) table :=
  List.mem_append_right _ List.mem_cons_self

theorem everyHeap_listed (table : PhaseTable) : everyHeap ∈ (builder (α := α) table).allFilters :=
  List.mem_cons_self

theorem aloneHeaps_listed (table : PhaseTable) :
    aloneHeaps ∈ (builder (α := α) table).allFilters :=
  List.mem_append_right _ (List.mem_filterMap.mpr ⟨aloneMetric,aloneMetric_listed table,rfl⟩)

theorem lookup_special {filter : Filter (CycleSummary α) (HeapSummary α)}
    (listed : filter ∈ (builder (α := α) table).allFilters)
    (elements : filter.elements summary = .ok summaries) :
    ((builder table).catalog.evaluateAll summary).lookup (specialName "HeapCount" filter.name) =
      some (.ok (.int summaries.length)) := by
  have made : CatalogBuilder.specialEntry filter heapCount ∈
      (builder (α := α) table).catalog.entries :=
    List.mem_append_right _ (List.mem_flatMap.mpr ⟨filter,listed,List.mem_cons_self⟩)
  refine (lookup_entry made summary).trans (congrArg some ?_)
  simp only [CatalogBuilder.specialEntry,Measurement.specialOf,elements]
  rfl

theorem lookup_countAlone (table : PhaseTable) (heaps : summary.heaps = .ok summaries) :
    ((builder table).catalog.evaluateAll summary).lookup "CountDidSingleThreadedJoin" =
      some (.ok (.int (summaries.filter (·.ranAlone)).length)) := by
  let entry : CatalogEntry α (CycleSummary α) :=
    ⟨⟨"CountDidSingleThreadedJoin",.count,some ranAloneMetric,"",true⟩,
      Measurement.countOf everyHeap aloneGetter⟩
  have made : entry ∈ (builder (α := α) table).catalog.entries := by
    refine List.mem_append_left _ (List.mem_flatMap.mpr ⟨_,aloneMetric_listed table,?_⟩)
    exact List.mem_flatMap.mpr ⟨everyHeap,everyHeap_listed table,List.mem_cons_self⟩
  refine (lookup_entry made summary).trans (congrArg some ?_)
  simp only [entry,Measurement.countOf,everyHeap,heaps,Measurement.count,
    Measurement.flags_eq aloneGetter_reads,bind,Except.bind,pure,Except.pure,count_flags]

end JoinCatalog
end Metrics

namespace Reporter
variable {α : Type} [Scalar α] [NumericScalar α]

theorem longest_join_agrees (table : PhaseTable) (config : Config α) :
    ∃ reporter, make table config = .ok reporter ∧ ∀ cycle report,
      reporter.report cycle = .ok report →
      ((∃ value, report.heapMetrics.lookup "MaxIndividualJoinMSec_Max" = some (.ok value)) ↔
        (∃ heaps, cycle.serverHeaps = .ok heaps) ∧
          ∀ history ∈ cycle.heaps, history.observed config.policy ≠ []) ∧
      (∀ value, report.heapMetrics.lookup "MaxIndividualJoinMSec_Max" = some (.ok value) →
        ∃ longest statistics, value = .float longest ∧ report.statistics = .ok statistics ∧
          Alike statistics.overall.max longest ∧
          ∀ duration ∈ cycle.observed config.policy, Scalar.Number duration →
            Scalar.eq statistics.overall.max longest) ∧
      ((∃ heaps, cycle.serverHeaps = .ok heaps) →
        report.heapMetrics.lookup "HeapCount" = some (.ok (.int cycle.heaps.length)) ∧
        report.heapMetrics.lookup "HeapCount_WhereDidSingleThreadedJoin" =
          some (.ok (.int (cycle.heaps.filter (·.ranAlone)).length)) ∧
        report.heapMetrics.lookup "CountDidSingleThreadedJoin" =
          some (.ok (.int (cycle.heaps.filter (·.ranAlone)).length))) := by
  refine ⟨_,make_ok table config,fun cycle report reported => ?_⟩
  obtain ⟨outcome,_,summary,computed,_,summed,rfl⟩ := report_ok_iff.mp reported
  simp only [JoinCatalog.lookup_longest,Option.some.injEq]
  refine ⟨?_,fun value told => ?_,fun ⟨heaps,server⟩ => ?_⟩
  · rw [← CycleSummary.longestJoin_iff summed]
    cases summary.longestJoin <;> simp [Except.map]
  · obtain ⟨longest,found,rfl⟩ : ∃ longest, summary.longestJoin = .ok longest ∧
        value = .float longest := by
      cases found : summary.longestJoin with
      | error failure => rw [found] at told; cases told
      | ok longest => rw [found] at told; cases told; exact ⟨longest,rfl,rfl⟩
    obtain ⟨⟨heaps,server⟩,_⟩ := (CycleSummary.longestJoin_iff summed).mp ⟨longest,found⟩
    have greatest := CycleSummary.greatest_longestJoin summed found
    obtain ⟨statistics,rfl,overall⟩ :=
      Statistics.compute_longest server (List.ne_nil_of_mem greatest.listed) computed
    have alike := overall.alike greatest
    exact ⟨longest,statistics,rfl,rfl,alike,fun duration member =>
      greatest.eq_of_number alike member⟩
  · obtain ⟨summaries,listed,told⟩ := CycleSummary.ofCycle_heaps server summed
    have alone := HeapSummary.ranAlone_count (CycleSummary.ofCycle_summaries summed listed)
    have many : summaries.length = cycle.heaps.length := by
      simpa using congrArg List.length told
    rw [← many,← alone]
    exact ⟨JoinCatalog.lookup_special (JoinCatalog.everyHeap_listed table) listed,
      JoinCatalog.lookup_special (JoinCatalog.aloneHeaps_listed table)
        (JoinCatalog.aloneHeaps_elements listed),
      JoinCatalog.lookup_countAlone table listed⟩

theorem longest_join_agrees_sample :
    ∃ reporter report longest statistics, make .builtin Sample.config = .ok reporter ∧
      reporter.report Sample.cycle = .ok report ∧
      report.heapMetrics.lookup "MaxIndividualJoinMSec_Max" = some (.ok (.float longest)) ∧
      report.statistics = .ok statistics ∧ statistics.overall.max = longest ∧
      report.heapMetrics.lookup "HeapCount" = some (.ok (.int 2)) ∧
      report.heapMetrics.lookup "HeapCount_WhereDidSingleThreadedJoin" =
        report.heapMetrics.lookup "CountDidSingleThreadedJoin" := by
  obtain ⟨reporter,made,told⟩ := longest_join_agrees .builtin Sample.config
  obtain ⟨report,reported⟩ := Sample.reported made
  obtain ⟨present,agrees,counts⟩ := told Sample.cycle report reported
  have joined : ∀ history ∈ Sample.cycle.heaps, history.observed .doneOnly ≠ [] := by decide +kernel
  obtain ⟨value,found⟩ := present.mpr ⟨⟨_,rfl⟩,joined⟩
  obtain ⟨longest,statistics,rfl,overall,_,same⟩ := agrees value found
  obtain ⟨duration,listed⟩ := List.exists_mem_of_ne_nil (Sample.cycle.observed .doneOnly)
    (by decide +kernel)
  have equal : statistics.overall.max = longest := by
    simpa [Scalar.eq] using same duration listed (by simp [Scalar.Number,Scalar.isNaN,Scalar.eq])
  obtain ⟨many,alone,counted⟩ := counts ⟨_,rfl⟩
  exact ⟨reporter,report,longest,statistics,made,reported,found,overall,equal,many,
    alone.trans counted.symm⟩

end Reporter
end JoinTrace
