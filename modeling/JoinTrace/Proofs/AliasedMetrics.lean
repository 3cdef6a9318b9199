import JoinTrace.Proofs.CatalogAnswers
import JoinTrace.Proofs.ReportErrors

-- A short name's metrics are among a report's own, under the same names and with the same values.
namespace JoinTrace
variable {α : Type}

namespace JoinCatalog

def shortNames : List String := ["joinTimes","stages","phases"]

def Picks (table : PhaseTable) (names : List String) : Prop :=
  names.Nodup ∧ ∀ name ∈ names, ∃ stem ∈ floatNames table, ∃ tail ∈ tails, name = joined stem tail

theorem picks_means {table : PhaseTable} {stems : List String}
    (part : stems.Sublist (floatNames table)) : Picks table (stems.map (· ++ "_Mean")) := by
  have mean (stem : String) : stem ++ "_Mean" = joined stem "Mean" := by
    rw [joined,String.append_assoc]
    rfl
  have apart := (List.nodup_cons.mp (List.nodup_cons.mp (floatNames_nodup table)).2).2
  refine ⟨(apart.sublist part).map fun stem other same => ?_,fun name listed => ?_⟩
  · rw [mean,mean] at same
    exact (joined_inj (by decide) (by decide) same).1
  · obtain ⟨stem,member,rfl⟩ := List.mem_map.mp listed
    exact ⟨stem,part.subset member,"Mean",by decide,mean stem⟩

theorem picks_totals (table : PhaseTable) :
    Picks table ["TotalJoinMSec_Max", "TotalJoinMSec_Mean"] := by
  have total : "TotalJoinMSec" ∈ floatNames table :=
    List.mem_append_left _ (List.mem_append_left _ (by decide))
  refine ⟨by decide,fun name listed => ⟨_,total,?_⟩⟩
  simp only [List.mem_cons,List.not_mem_nil,or_false] at listed
  rcases listed with rfl | rfl
  · exact ⟨"Max",by decide,rfl⟩
  · exact ⟨"Mean",by decide,rfl⟩

theorem cycleAliases_known (table : PhaseTable) {short : String} (known : short ∈ shortNames) :
    ∃ names, (cycleAliases table).lookup short = some names ∧ Picks table names := by
  simp only [shortNames,List.mem_cons,List.not_mem_nil,or_false] at known
  rcases known with rfl | rfl | rfl
  · exact ⟨_,rfl,picks_totals table⟩
  · refine ⟨_,rfl,?_⟩
    rw [← Function.comp_def (· ++ "_Mean"),← List.map_map]
    exact picks_means ((List.sublist_append_right ..).trans (List.sublist_append_left ..))
  · refine ⟨_,rfl,?_⟩
    rw [← Function.comp_def (· ++ "_Mean"),← List.map_map]
    exact picks_means (List.sublist_append_right ..)

theorem cycleAliases_unknown (table : PhaseTable) {short : String} (unknown : short ∉ shortNames) :
    (cycleAliases table).lookup short = none := by
  have named : (cycleAliases table).map (·.1) = shortNames := rfl
  refine List.lookup_eq_none_iff.mpr fun group listed => ?_
  have known : group.1 ∈ shortNames := named ▸ List.mem_map.mpr ⟨group,listed,rfl⟩
  simpa using (ne_of_mem_of_not_mem known unknown).symm

variable [Scalar α]

theorem Picks.known {table : PhaseTable} {names : List String} (picks : Picks table names) :
    ∀ name ∈ names, name ∈ (builder (α := α) table).catalog.names := by
  intro name listed
  obtain ⟨stem,metric,tail,possible,rfl⟩ := picks.2 name listed
  rw [CatalogBuilder.catalog_names,generated_names]
  refine List.mem_append_left _ (List.mem_flatMap.mpr ⟨stem,metric,?_⟩)
  exact List.mem_map.mpr ⟨tail,possible,rfl⟩

end JoinCatalog

namespace Reporter
variable [Scalar α]

theorem aliasedMetrics_known (table : PhaseTable) (config : Config α) (cycle : Cycle α)
    {short : String} (known : short ∈ JoinCatalog.shortNames) {summary : CycleSummary α}
    (made : CycleSummary.ofCycle cycle table config.policy = .ok summary) :
    ∃ names metrics, (cycleAliases table).lookup short = some names ∧
      aliasedMetrics ⟨table,config,(JoinCatalog.builder table).catalog⟩ short cycle = .ok metrics ∧
      metrics.map (·.1) = names ∧
      ∀ metric ∈ metrics, ((JoinCatalog.builder table).catalog.evaluateAll summary).lookup metric.1 =
        some metric.2 := by
  obtain ⟨names,found,picks⟩ := JoinCatalog.cycleAliases_known table known
  obtain ⟨metrics,selected,listed,among⟩ :=
    Catalog.evaluateSelected_among picks.1 picks.known summary
  exact ⟨names,metrics,found,by simp only [aliasedMetrics,found,made,selected],listed,among⟩

theorem aliasedMetrics_view (table : PhaseTable) (config : Config α) :
    ∃ reporter, make table config = .ok reporter ∧ ∀ cycle : Cycle α,
      (∀ report, reporter.report cycle = .ok report →
        ∀ short ∈ JoinCatalog.shortNames, ∃ names metrics,
          (cycleAliases table).lookup short = some names ∧
          reporter.aliasedMetrics short cycle = .ok metrics ∧ metrics.map (·.1) = names ∧
          ∀ metric ∈ metrics, report.heapMetrics.lookup metric.1 = some metric.2) ∧
      ∀ short, short ∉ JoinCatalog.shortNames →
        reporter.aliasedMetrics short cycle = .error (.unknownMetric short) := by
  refine ⟨_,make_ok table config,fun cycle => ⟨fun report reported short known => ?_,?_⟩⟩
  · obtain ⟨_,_,summary,_,_,made,rfl⟩ := report_ok_iff.mp reported
    exact aliasedMetrics_known table config cycle known made
  · intro short unknown
    simp only [aliasedMetrics,JoinCatalog.cycleAliases_unknown table unknown]

theorem aliasedMetrics_view_sample :
    ∃ reporter report metrics, make .builtin Sample.config = .ok reporter ∧
      reporter.report Sample.cycle = .ok report ∧
      reporter.aliasedMetrics "phases" Sample.cycle = .ok metrics ∧
      metrics.map (·.1) = ["mark_Mean", "plan_Mean", "relocate_Mean", "compact_Mean",
        "sweep_Mean", "heap_verify_Mean", "post_gc_Mean"] ∧
      (∀ metric ∈ metrics, report.heapMetrics.lookup metric.1 = some metric.2) ∧
      reporter.aliasedMetrics "states" Sample.repeatedCycle = .error (.unknownMetric "states") := by
  obtain ⟨reporter,made,told⟩ := aliasedMetrics_view .builtin Sample.config
  obtain ⟨report,reported⟩ := Sample.reported made
  obtain ⟨names,metrics,found,aliased,listed,among⟩ :=
    (told Sample.cycle).1 report reported "phases" (by decide)
  refine ⟨reporter,report,metrics,made,reported,aliased,?_,among,?_⟩
  · rw [listed]
    exact Option.some.inj (found.symm.trans (by decide))
  · exact (told Sample.repeatedCycle).2 "states" (by decide)

end Reporter
end JoinTrace
