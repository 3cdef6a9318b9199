import JoinTrace.JoinCatalog
import JoinTrace.Proofs.Rearranged

namespace JoinTrace.JoinCatalog
variable {α : Type}

def aloneMetric : HeapMetric α := boolMetric ranAloneMetric HeapSummary.ranAlone

theorem someDurations_fails (next : List α → Failable α)
    (total : ∀ values, values ≠ [] → ∃ value, next values = .ok value) :
    FailsAlike fun summary : HeapSummary α => summary.someDurations >>= next := by
  have only (summary : HeapSummary α) {failure : Failure}
      (failed : (summary.someDurations >>= next) = .error failure) :
      failure = ⟨"empty join durations"⟩ := by
    unfold HeapSummary.someDurations at failed
    split at failed
    · cases failed
      rfl
    · rename_i present
      obtain ⟨value,made⟩ := total summary.durations (by simpa using present)
      cases made.symm.trans failed
  intro item other failure reason failed failed'
  rw [only item failed,only other failed']

theorem always_alike (read : HeapSummary α → α) :
    FailsAlike fun summary => (.ok (read summary) : Failable α) := by
  intro item other failure reason failed
  cases failed

variable [Scalar α]

theorem median_ok {values : List α} (present : values ≠ []) :
    ∃ value, Aggregate.median values = .ok value := by
  have same : (Scalar.sorted values).length = values.length := List.length_mergeSort _
  have some := List.length_pos_iff.mpr present
  have placed (place : Nat) (inside : place < (Scalar.sorted values).length) :=
    List.getElem?_eq_getElem inside
  simp only [Aggregate.median]
  split
  · rw [placed _ (by omega)]
    exact ⟨_,rfl⟩
  · rw [placed ((Scalar.sorted values).length / 2 - 1) (by omega),placed _ (by omega)]
    exact ⟨_,rfl⟩

theorem max_ok {values : List α} (present : values ≠ []) :
    ∃ value, Aggregate.max values = .ok value := by
  cases values with
  | nil => exact absurd rfl present
  | cons first rest => exact ⟨_,rfl⟩

def floatMetrics (table : PhaseTable) : List (HeapMetric α) :=
  [floatMetric "MedianIndividualJoinMSec" HeapSummary.medianJoin,
    floatMetric "MaxIndividualJoinMSec" HeapSummary.maxJoin,
    floatMetric "TotalJoinMSec" HeapSummary.totalJoin] ++
  Stage.measured.map stageMetric ++ table.phases.map phaseMetric

theorem metrics_eq (table : PhaseTable) :
    (metrics table : List (HeapMetric α)) = floatMetrics table ++ [aloneMetric] := rfl

theorem floatMetrics_read (table : PhaseTable) :
    ∀ metric ∈ floatMetrics (α := α) table,
      ∃ name read, FailsAlike read ∧ metric = floatMetric name read := by
  intro metric member
  rcases List.mem_append.mp member with member | ofPhase
  · rcases List.mem_append.mp member with fixed | ofStage
    · simp only [List.mem_cons,List.not_mem_nil,or_false] at fixed
      rcases fixed with rfl | rfl | rfl
      · exact ⟨_,_,someDurations_fails _ fun _ => median_ok,rfl⟩
      · exact ⟨_,_,someDurations_fails _ fun _ => max_ok,rfl⟩
      · let total (durations : List α) : Failable α := .ok (Scalar.sum durations)
        exact ⟨_,_,someDurations_fails total fun _ _ => ⟨_,rfl⟩,rfl⟩
    · obtain ⟨stage,_,rfl⟩ := List.mem_map.mp ofStage
      exact ⟨_,_,always_alike (·.stageTotal stage),rfl⟩
  · obtain ⟨phase,_,rfl⟩ := List.mem_map.mp ofPhase
    exact ⟨_,_,always_alike (·.phaseTotal phase),rfl⟩

end JoinTrace.JoinCatalog
