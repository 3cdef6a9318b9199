import JoinTrace.Proofs.AliasedMetrics

-- What becomes of a collection with two histories of one heap. Every pass that keys its result by
-- heap refuses it. The summary keeps a list, and takes the heap twice.
namespace JoinTrace
variable {α : Type}

theorem Cycle.serverHeaps_several {cycle : Cycle α} (several : 1 < cycle.heapCount)
    (some : cycle.heaps ≠ []) : cycle.serverHeaps = .ok cycle.heaps := by
  unfold Cycle.serverHeaps
  rw [if_neg (UInt32.not_le.mpr several),if_neg (mt List.isEmpty_iff.mp some)]

variable [Scalar α]

theorem Timeline.reconstruct_repeated {heaps : List (HeapId × List (Event α))}
    (repeated : ¬ (heaps.map (·.1)).Nodup) (config : Config α) (table : PhaseTable) (pause : α) :
    ∃ heap, Timeline.reconstruct config table pause heaps = .error (.duplicateHeap heap) := by
  cases first : firstRepeat? (heaps.map (·.1)) with
  | none => exact absurd (firstRepeat?_eq_none.mp first) repeated
  | some heap => exact ⟨heap,by simp only [Timeline.reconstruct,StageTimeline.reconstruct,first]⟩

theorem Cycle.joinTimes_repeated {cycle : Cycle α} (several : 1 < cycle.heapCount)
    (repeated : ¬ (cycle.heaps.map (·.heap)).Nodup) (policy : TrailingPolicy) :
    ∃ e, cycle.joinTimes policy = .error e := by
  have some : cycle.heaps ≠ [] := by
    intro none
    simp [none] at repeated
  cases ran : cycle.joinTimes policy with
  | error e => exact ⟨e,rfl⟩
  | ok all =>
    have admitted := Cycle.joinTimes_admits (Cycle.serverHeaps_several several some) ran
    exact absurd (Cycle.admits_iff.mp admitted).1 repeated

namespace Reporter

theorem aliasedMetrics_ok_iff (table : PhaseTable) (config : Config α) (cycle : Cycle α)
    {short : String} (known : short ∈ JoinCatalog.shortNames) :
    (∃ metrics,
      aliasedMetrics ⟨table,config,(JoinCatalog.builder table).catalog⟩ short cycle =
        .ok metrics) ↔
      ∃ summary, CycleSummary.ofCycle cycle table config.policy = .ok summary := by
  constructor
  · rintro ⟨metrics,aliased⟩
    cases made : CycleSummary.ofCycle cycle table config.policy with
    | ok summary => exact ⟨summary,rfl⟩
    | error e =>
      obtain ⟨names,found,_⟩ := JoinCatalog.cycleAliases_known table known
      simp [aliasedMetrics,found,made] at aliased
  · rintro ⟨summary,made⟩
    obtain ⟨_,metrics,_,aliased,_⟩ := aliasedMetrics_known table config cycle known made
    exact ⟨metrics,aliased⟩

end Reporter

namespace Sample

def twiceCycle : Cycle ℚ := ⟨7,2,50,[⟨1,shortTrace⟩,⟨1,shortTrace⟩]⟩

theorem twiceCycle_replayed : ∀ history ∈ twiceCycle.heaps, ∃ times,
    joinTimes history.heap history.events .doneOnly = .ok times := by
  have each := replayed ⟨1,shortTrace⟩ (by decide)
  exact List.forall_mem_cons.mpr ⟨each,List.forall_mem_singleton.mpr each⟩

end Sample

namespace Reporter

theorem repeated_heap_refused (cycle : Cycle α) (several : 1 < cycle.heapCount)
    (repeated : ¬ (cycle.heaps.map (·.heap)).Nodup) (table : PhaseTable) (config : Config α) :
    (∃ e, cycle.joinTimes config.policy = .error e) ∧
    (∃ e, cycle.lastDurations config.policy = .error e) ∧
    (∃ e, Statistics.compute cycle table config.policy = .error e) ∧
    (∃ heap, Timeline.reconstruct config table cycle.pause cycle.eventLists =
      .error (.duplicateHeap heap)) ∧
    ((∃ summary, CycleSummary.ofCycle cycle table config.policy = .ok summary) ↔
      ∀ history ∈ cycle.heaps, ∃ times,
        joinTimes history.heap history.events config.policy = .ok times) ∧
    (∀ summary, CycleSummary.ofCycle cycle table config.policy = .ok summary →
      ∃ summaries, summary.heaps = .ok summaries ∧
        summaries.map (·.heap) = cycle.heaps.map (·.heap)) ∧
    ∃ reporter, make table config = .ok reporter ∧
      (∃ e, reporter.report cycle = .error e) ∧
      ∀ short ∈ JoinCatalog.shortNames,
        ((∃ metrics, reporter.aliasedMetrics short cycle = .ok metrics) ↔
          ∀ history ∈ cycle.heaps, ∃ times,
            joinTimes history.heap history.events config.policy = .ok times) := by
  obtain ⟨e,failed⟩ := Cycle.joinTimes_repeated several repeated config.policy
  have server : cycle.serverHeaps = .ok cycle.heaps :=
    Cycle.serverHeaps_several several fun none => by simp [none] at repeated
  have uncomputed : Statistics.compute cycle table config.policy = .error e := by
    rw [Statistics.compute,failed]
    rfl
  have summed := CycleSummary.ofCycle_ok_iff server table config.policy
  have listed : ¬ (cycle.eventLists.map (·.1)).Nodup := by
    simpa [Cycle.eventLists,Function.comp_def] using repeated
  refine ⟨⟨e,failed⟩,⟨e,by rw [Cycle.lastDurations,failed]; rfl⟩,⟨e,uncomputed⟩,
    Timeline.reconstruct_repeated listed config table cycle.pause,summed,?_,_,
    make_ok table config,⟨e,report_error_iff.mpr (.inl uncomputed)⟩,fun short known => ?_⟩
  · intro summary made
    exact CycleSummary.ofCycle_heaps server made
  · exact (aliasedMetrics_ok_iff table config cycle known).trans summed

theorem repeated_heap_counted_twice :
    1 < Sample.twiceCycle.heapCount ∧ ¬ (Sample.twiceCycle.heaps.map (·.heap)).Nodup ∧
    (∃ summary summaries,
      CycleSummary.ofCycle Sample.twiceCycle .builtin Sample.config.policy = .ok summary ∧
        summary.heaps = .ok summaries ∧ summaries.map (·.heap) = [1,1]) ∧
    ∃ reporter metrics, make .builtin Sample.config = .ok reporter ∧
      reporter.aliasedMetrics "joinTimes" Sample.twiceCycle = .ok metrics := by
  have server : Sample.twiceCycle.serverHeaps = .ok Sample.twiceCycle.heaps := rfl
  obtain ⟨summary,made⟩ :=
    (CycleSummary.ofCycle_ok_iff server .builtin .doneOnly).mpr Sample.twiceCycle_replayed
  obtain ⟨summaries,listed,heaps⟩ := CycleSummary.ofCycle_heaps server made
  obtain ⟨metrics,aliased⟩ := (aliasedMetrics_ok_iff .builtin Sample.config Sample.twiceCycle
    (show "joinTimes" ∈ _ by decide)).mpr ⟨summary,made⟩
  exact ⟨by decide,by decide,⟨summary,summaries,made,listed,heaps⟩,_,metrics,
    make_ok .builtin Sample.config,aliased⟩

theorem repeated_heap_refused_sample :
    (∃ e, Sample.twiceCycle.joinTimes .doneOnly = .error e) ∧
    ∃ reporter, make .builtin Sample.config = .ok reporter ∧
      (∃ e, reporter.report Sample.twiceCycle = .error e) ∧
      ∃ metrics, reporter.aliasedMetrics "joinTimes" Sample.twiceCycle = .ok metrics := by
  obtain ⟨failed,_,_,_,_,_,reporter,made,unreported,aliased⟩ :=
    repeated_heap_refused Sample.twiceCycle (by decide) (by decide) .builtin Sample.config
  exact ⟨failed,reporter,made,unreported,
    (aliased "joinTimes" (by decide)).mpr Sample.twiceCycle_replayed⟩

end Reporter
end JoinTrace
