import Mathlib.Data.List.Flatten
import JoinTrace.Proofs.AlikeEnds
import JoinTrace.Proofs.JoinTotals
import JoinTrace.Proofs.PhaseBoundaries
import JoinTrace.Proofs.SortOrder
import JoinTrace.Proofs.StageListing
import JoinTrace.Proofs.StatisticsLevels

-- The results that read a phase table. The table lists a phase's stages in some order, and may have
-- phases without any; only the assignment of phases to stages shows in what is made of it.
namespace JoinTrace

def SortedMap.Related {κ ν μ : Type} [Ranked κ] (related : ν → μ → Prop) (left : SortedMap κ ν)
    (right : SortedMap κ μ) : Prop :=
  ∀ key, Option.Rel related (left.get? key) (right.get? key)

inductive SameOutcome {ε τ ν : Type} (related : τ → ν → Prop) : Except ε τ → Except ε ν → Prop where
  | ok {result : τ} {other : ν} (alike : related result other) :
    SameOutcome related (.ok result) (.ok other)
  | error (reason : ε) : SameOutcome related (.error reason) (.error reason)

section Alike
variable {α : Type} [Scalar α]

structure PhaseTiming.Alike (timing other : PhaseTiming α) : Prop where
  phase : timing.phase = other.phase
  start : Option.Rel JoinTrace.Alike timing.start other.start
  finish : Option.Rel JoinTrace.Alike timing.finish other.finish

structure Spread.Alike (spread other : Spread α) : Prop where
  median : spread.median = other.median
  max : JoinTrace.Alike spread.max other.max
  min : JoinTrace.Alike spread.min other.min

structure PhaseStatistics.Alike (part other : PhaseStatistics α) : Prop where
  phase : part.phase = other.phase
  spread : part.spread.Alike other.spread
  deviation : part.deviation = other.deviation

structure Statistics.Alike (told other : Statistics α) : Prop where
  overall : told.overall = other.overall
  stages : told.stages = other.stages
  phases : SortedMap.Related PhaseStatistics.Alike told.phases other.phases

structure HeapSummary.Alike (summary other : HeapSummary α) : Prop where
  heap : summary.heap = other.heap
  joinTimes : summary.joinTimes = other.joinTimes
  phaseTotal : ∀ phase, summary.phaseTotal phase = other.phaseTotal phase
  ranAlone : summary.ranAlone = other.ranAlone

end Alike

namespace PhaseTable
variable {ε : Type} {entries others : List (Phase × List Stage)} {table other : PhaseTable}

-- Two ways of entering one assignment, neither of which lists a stage twice.
structure Regrouped (ε : Type) (entries others : List (Phase × List Stage))
    (table other : PhaseTable) : Prop where
  built : ofEntries (α := ε) entries = .ok table
  rebuilt : ofEntries (α := ε) others = .ok other
  once : (entries.flatMap (·.2)).Nodup
  onceAgain : (others.flatMap (·.2)).Nodup
  assigned : ∀ stage, table.phaseOf stage = other.phaseOf stage

theorem stagesOf_nodup (built : ofEntries (α := ε) entries = .ok table)
    (once : (entries.flatMap (·.2)).Nodup) (phase : Phase) : (table.stagesOf phase).Nodup := by
  rw [stagesOf_ofEntries built]
  exact once.sublist (List.filter_sublist.flatMap _)

theorem Regrouped.stagesOf_perm (same : Regrouped ε entries others table other) (phase : Phase) :
    (table.stagesOf phase).Perm (other.stagesOf phase) := by
  refine (List.perm_ext_iff_of_nodup (stagesOf_nodup same.built same.once phase)
    (stagesOf_nodup same.rebuilt same.onceAgain phase)).mpr fun stage => ?_
  rw [(made_ofEntries same.built).consistent,(made_ofEntries same.rebuilt).consistent,same.assigned]

end PhaseTable

section Ends
variable {α : Type} [Scalar α] [NumericScalar α]

theorem endAfter_alike {start finish start' finish' : Option α}
    (starts : Option.Rel Alike start start') (finishes : Option.Rel Alike finish finish') :
    Option.Rel Alike (endAfter start finish) (endAfter start' finish') := by
  cases finishes with
  | none =>
    cases starts with
    | none => exact .none
    | some => exact .none
  | some last =>
    cases starts with
    | none => exact .some last
    | some first =>
      simp only [endAfter,last.lt_iff first]
      split
      · exact .none
      · exact .some last

theorem Spread.alike_of_perm [SortedScalar α] {values others : List α} {spread other : Spread α}
    (made : Spread.of values = .ok spread) (again : Spread.of others = .ok other)
    (perm : values.Perm others) : spread.Alike other := by
  obtain ⟨middle,most,fewest⟩ := Spread.of_parts made
  obtain ⟨middle',most',fewest'⟩ := Spread.of_parts again
  refine ⟨?_,?_,?_⟩
  · rw [Aggregate.median_perm perm] at middle
    exact Except.ok.inj (middle.symm.trans middle')
  · exact (greatest_max most).alike ((greatest_max most').of_mem_iff fun _ => perm.mem_iff.symm)
  · exact (least_min fewest).alike ((least_min fewest').of_mem_iff fun _ => perm.mem_iff.symm)

end Ends

namespace PhaseTable.Regrouped
variable {ε α : Type} {entries others : List (Phase × List Stage)} {table other : PhaseTable}
  (same : Regrouped ε entries others table other)
include same

section Timings
open PhaseBounds

theorem members_perm (spans : StageSpans α) (phase : Phase) :
    (members spans table phase).Perm (members spans other phase) :=
  (same.stagesOf_perm phase).filterMap _

variable [Scalar α] [NumericScalar α]

theorem starts_alike (spans : StageSpans α) (phase : Phase) : Option.Rel Alike
    (earliest (starts (members spans table phase))) (earliest (starts (members spans other phase))) :=
  earliest_perm ((same.members_perm spans phase).filterMap _)

theorem finishes_alike (spans : StageSpans α) (phase : Phase) : Option.Rel Alike
    (latest (finishes (members spans table phase))) (latest (finishes (members spans other phase))) :=
  latest_perm ((same.members_perm spans phase).filterMap _)

theorem startOf_alike (spans : StageSpans α) (phase : Phase) :
    Option.Rel Alike (startOf spans table phase) (startOf spans other phase) := by
  cases phase with
  | plan => exact same.finishes_alike spans .mark
  | sweep => exact same.finishes_alike spans .plan
  | init | mark | relocate | compact | heapVerify | postGc => exact same.starts_alike spans _

theorem lastOf_alike (spans : StageSpans α) (pause : α) (phase : Phase) :
    Option.Rel Alike (lastOf spans table pause phase) (lastOf spans other pause phase) := by
  cases phase with
  | postGc => exact .some (Alike.refl pause)
  | init | mark | plan | relocate | compact | sweep | heapVerify => exact same.finishes_alike spans _

theorem phaseTimings_related (spans : StageSpans α) (pause : α) :
    (phaseTimings spans table pause).Related PhaseTiming.Alike (phaseTimings spans other pause) := by
  intro phase
  have perm := same.members_perm spans phase
  rw [phaseTimings_get?,phaseTimings_get?]
  by_cases nothing : members spans table phase = []
  · rw [nothing] at perm
    rw [if_pos nothing,if_pos perm.nil_eq.symm]
    exact .none
  · have some : members spans other phase ≠ [] := fun none => nothing (none ▸ perm).eq_nil
    rw [if_neg nothing,if_neg some]
    have start := same.startOf_alike spans phase
    exact .some ⟨rfl,start,endAfter_alike start (same.lastOf_alike spans pause phase)⟩

end Timings

variable [Scalar α] [NumericScalar α] [SortedScalar α]

theorem phases_related {all : HeapJoinTimes α}
    {told other' : Statistics α} (made : told.Tells all table) (again : other'.Tells all other)
    (overall : told.overall = other'.overall) (stages : told.stages = other'.stages) :
    told.phases.Related PhaseStatistics.Alike other'.phases := by
  intro phase
  have there : (∃ part, told.phases.get? phase = some part) ↔
      ∃ part, other'.phases.get? phase = some part := by
    simp only [made.phaseThere,again.phaseThere,stages,(same.stagesOf_perm phase).mem_iff]
  cases held : told.phases.get? phase with
  | none =>
    cases found : other'.phases.get? phase with
    | none => exact .none
    | some part =>
      obtain ⟨_,listed⟩ := there.mpr ⟨part,found⟩
      cases held.symm.trans listed
  | some part =>
    obtain ⟨part',found⟩ := there.mp ⟨part,held⟩
    rw [found]
    have first := made.phases phase part held
    have second := again.phases phase part' found
    have spread := Spread.alike_of_perm first.spread second.spread
      ((same.stagesOf_perm phase).flatMap_right _)
    refine .some ⟨first.ofPhase.trans second.ofPhase.symm,spread,?_⟩
    rw [first.deviation,second.deviation,spread.median,overall]

theorem ofJoinTimes_same (all : HeapJoinTimes α) :
    SameOutcome Statistics.Alike (Statistics.ofJoinTimes all table)
      (Statistics.ofJoinTimes all other) := by
  by_cases nothing : all.values.flatMap JoinTimes.durations = []
  · rw [Statistics.ofJoinTimes_nothing table nothing,Statistics.ofJoinTimes_nothing other nothing]
    exact .error _
  · obtain ⟨told,made⟩ := Statistics.ofJoinTimes_ok table nothing
    obtain ⟨other',again⟩ := Statistics.ofJoinTimes_ok other nothing
    obtain ⟨spread,each,_⟩ := Statistics.ofJoinTimes_iff.mp made
    obtain ⟨spread',each',_⟩ := Statistics.ofJoinTimes_iff.mp again
    have overall := Except.ok.inj (spread.symm.trans spread')
    have stages := Except.ok.inj (each.symm.trans each')
    rw [made,again]
    exact .ok ⟨overall,stages,same.phases_related (Statistics.tells_of_ofJoinTimes made)
      (Statistics.tells_of_ofJoinTimes again) overall stages⟩

theorem ofHistory_same (history : HeapHistory ℚ) (policy : TrailingPolicy) :
    SameOutcome HeapSummary.Alike (HeapSummary.ofHistory history table policy)
      (HeapSummary.ofHistory history other policy) := by
  unfold HeapSummary.ofHistory
  cases joinTimes history.heap history.events policy with
  | error reason => exact .error reason
  | ok times =>
    refine .ok ⟨rfl,rfl,fun phase => ?_,rfl⟩
    rw [HeapSummary.phaseTotal_eq,HeapSummary.phaseTotal_eq]
    exact ((same.stagesOf_perm phase).map _).sum_eq

theorem same_results :
    (∀ (spans : StageSpans α) pause, (phaseTimings spans table pause).Related PhaseTiming.Alike
      (phaseTimings spans other pause)) ∧
    (∀ all : HeapJoinTimes α, SameOutcome Statistics.Alike (Statistics.ofJoinTimes all table)
      (Statistics.ofJoinTimes all other)) ∧
    ∀ (history : HeapHistory ℚ) policy, SameOutcome HeapSummary.Alike
      (HeapSummary.ofHistory history table policy) (HeapSummary.ofHistory history other policy) :=
  ⟨same.phaseTimings_related,same.ofJoinTimes_same,same.ofHistory_same⟩

end PhaseTable.Regrouped

namespace Sample

def zeroSpans : StageSpans Float := .ofList [
  (.beginMarkPhase,⟨.beginMarkPhase,some ⟨0,0⟩,some ⟨4,0⟩⟩),
  (.scanSizedrefDone,⟨.scanSizedrefDone,some ⟨-0.0,1⟩,none⟩)]

def inParts : List (Phase × List Stage) := [(.mark,[.beginMarkPhase]), (.plan,[.decideOnCompaction]),
  (.sweep,[]), (.mark,[.scanSizedrefDone])]

def backwards : List (Phase × List Stage) :=
  [(.plan,[.decideOnCompaction]), (.mark,[.scanSizedrefDone, .beginMarkPhase])]

end Sample

namespace PhaseTable

theorem Regrouped.same_results_sample : ∃ table other : PhaseTable, ∃ start start' : Float,
    Regrouped Float Sample.inParts Sample.backwards table other ∧ table ≠ other ∧
    (phaseTimings Sample.zeroSpans table 20).get? .mark = some ⟨.mark,some start,some 4⟩ ∧
    (phaseTimings Sample.zeroSpans other 20).get? .mark = some ⟨.mark,some start',some 4⟩ ∧
    start ≠ start' ∧ Alike start start' ∧
    SameOutcome Statistics.Alike (Statistics.ofJoinTimes Sample.heapTimes table)
      (Statistics.ofJoinTimes Sample.heapTimes other) := by
  obtain ⟨table,other,built,rebuilt,apart,first,second,assigned⟩ : ∃ table other,
      ofEntries (α := Float) Sample.inParts = .ok table ∧
      ofEntries (α := Float) Sample.backwards = .ok other ∧ table ≠ other ∧
      (phaseTimings Sample.zeroSpans table 20).get? .mark = some ⟨.mark,some 0,some 4⟩ ∧
      (phaseTimings Sample.zeroSpans other 20).get? .mark = some ⟨.mark,some (-0.0),some 4⟩ ∧
      ∀ stage, table.phaseOf stage = other.phaseOf stage :=
    ⟨_,_,rfl,rfl,by decide,by decide,by decide,by intro stage; cases stage <;> rfl⟩
  have same : Regrouped Float Sample.inParts Sample.backwards table other :=
    ⟨built,rebuilt,by decide,by decide,assigned⟩
  have timings := (same.same_results (α := Float)).1 Sample.zeroSpans 20 .mark
  rw [first,second] at timings
  cases timings with
  | some alike =>
    cases alike.start with
    | some zeros =>
      exact ⟨table,other,_,_,same,apart,first,second,by decide,zeros,
        (same.same_results (α := ℚ)).2.1 Sample.heapTimes⟩

end PhaseTable
end JoinTrace
