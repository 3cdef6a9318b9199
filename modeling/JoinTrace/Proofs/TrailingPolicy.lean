import JoinTrace.Proofs.ReplayPrefix
import JoinTrace.Proofs.ReportErrors

-- A policy is asked about nothing but the join a list stops in. Replays of one list under different
-- policies give the same and refuse the same; they part where the list has been read to its end.
namespace JoinTrace
open TraceGrammar

inductive Ending (α : Type) where
  | complete
  | refused (e : AnalysisError α)
  | cut (stage : Stage)

inductive Ending.Under {α : Type} (heap : HeapId) (policy : TrailingPolicy) :
    Ending α → Option (AnalysisError α) → Option Stage → Prop where
  | complete : Under heap policy .complete none none
  | refused {e : AnalysisError α} (malformed : e.Malformed) :
      Under heap policy (.refused e) (some e) none
  | dropped {stage : Stage} (tolerated : Tolerated policy stage) :
      Under heap policy (.cut stage) none (some stage)
  | truncated {stage : Stage} (untolerated : ¬ Tolerated policy stage) :
      Under heap policy (.cut stage) (some (.truncated heap stage)) none

namespace Ending.Under
variable {α : Type} {heap : HeapId} {policy : TrailingPolicy} {stage : Stage} {ending : Ending α}
  {failure : Option (AnalysisError α)} {dropped : Option Stage}

theorem of_tolerated (under : (Ending.cut stage).Under heap policy failure dropped)
    (tolerated : Tolerated policy stage) : failure = none ∧ dropped = some stage := by
  cases under with
  | dropped => exact ⟨rfl,rfl⟩
  | truncated untolerated => exact absurd tolerated untolerated

theorem of_untolerated (under : (Ending.cut stage).Under heap policy failure dropped)
    (untolerated : ¬ Tolerated policy stage) :
    failure = some (.truncated heap stage) ∧ dropped = none := by
  cases under with
  | dropped tolerated => exact absurd tolerated untolerated
  | truncated => exact ⟨rfl,rfl⟩

theorem cut_of_dropped (under : ending.Under heap policy failure (some stage)) :
    ending = .cut stage := by
  cases under
  rfl

end Ending.Under

namespace Replayer
variable {α : Type}

def under (replayer : Replayer α) (policy : TrailingPolicy) : Replayer α :=
  { replayer with policy := policy }

structure Ends (heap : HeapId) (policy : TrailingPolicy) (seen : List (Observation α))
    (ending : Ending α) (run : Run α) : Prop where
  given : run.1 = seen
  ended : ending.Under heap policy run.2.1 run.2.2.truncatedStage
  read : ∀ stage, ending = .cut stage → run.2.2.trace.isExhausted

theorem Ends.cons {heap : HeapId} {policy : TrailingPolicy} {seen : List (Observation α)}
    {ending : Ending α} {run : Run α} (ends : Ends heap policy seen ending run)
    (first : Observation α) : Ends heap policy (first :: seen) ending (first :: run.1,run.2) :=
  ⟨congrArg (first :: ·) ends.given,ends.ended,ends.read⟩

variable [Scalar α]

-- The readers ask no policy, so replays that differ in it alone go the same way to the end.
theorem ends_under (replayer : Replayer α) (live : replayer.state ≠ .finished)
    (whole : replayer.truncatedStage = none) :
    ∃ seen ending, ∀ policy, Ends replayer.heap policy seen ending (replayer.under policy).run := by
  have told := found_told replayer
  have first (policy : TrailingPolicy) := run_found (replayer.under policy) live
  have same (policy : TrailingPolicy) : (replayer.under policy).found = replayer.found := rfl
  simp only [same] at first
  generalize met : replayer.found = found at told first
  cases told with
  | @refused stop _ malformed =>
    refine ⟨[],.refused stop.error,fun policy => ?_⟩
    rw [first]
    exact ⟨rfl,whole ▸ .refused malformed,fun _ cut => by cases cut⟩
  | @joined start last trace =>
    obtain ⟨seen,ending,alike⟩ := ends_under { replayer with trace := trace, state := .running }
      (by simp) whole
    refine ⟨⟨start.stage,last.time - start.time⟩ :: seen,ending,fun policy => ?_⟩
    rw [first]
    exact (alike policy).cons _
  | @unended start trace _ read =>
    have exhausted : trace.isExhausted := by simp [Cursor.isExhausted,Cursor.remaining,read]
    refine ⟨[],.cut start.stage,fun policy => ?_⟩
    rw [first]
    simp only
    split
    · rename_i tolerated
      exact ⟨rfl,.dropped (tolerates_iff.mp tolerated),fun _ _ => exhausted⟩
    · rename_i untolerated
      exact ⟨rfl,whole ▸ .truncated (mt tolerates_iff.mpr untolerated),fun _ _ => exhausted⟩
  | exhausted =>
    refine ⟨[],.complete,fun policy => ?_⟩
    rw [first]
    exact ⟨rfl,whole ▸ .complete,fun _ cut => by cases cut⟩
termination_by replayer.trace.remaining
decreasing_by exact found_joined_remaining met

end Replayer

def Lenient (policy other : TrailingPolicy) : Prop :=
  ∀ stage, Tolerated policy stage → Tolerated other stage

theorem lenient_of {policy other : TrailingPolicy} (wider : policy = .strict ∨ other = .any) :
    Lenient policy other := by
  intro stage tolerated
  rcases wider with rfl | rfl
  · cases tolerated
  · trivial

section Lenient
variable {α : Type} {policy other : TrailingPolicy}

theorem Ending.Under.lenient (lenient : Lenient policy other) {heap : HeapId} {ending : Ending α}
    {failure : Option (AnalysisError α)} {dropped dropped' : Option Stage}
    (clean : ending.Under heap policy none dropped)
    (under : ending.Under heap other failure dropped') :
    failure = none := by
  cases clean with
  | complete =>
    cases under
    rfl
  | dropped tolerated =>
    cases under with
    | dropped => rfl
    | truncated untolerated => exact absurd (lenient _ tolerated) untolerated

variable [Scalar α]

theorem joinTimes_ok_iff {heap : HeapId} {events : List (Event α)} {times : JoinTimes α} :
    joinTimes heap events policy = .ok times ↔
      (Replayer.start heap events policy).run.2.1 = none ∧
        times = .ofObservations (Replayer.start heap events policy).run.1 := by
  cases ended : (Replayer.start heap events policy).run.2.1 with
  | none => simp [joinTimes_clean ended,eq_comm]
  | some e =>
    have failed : joinTimes heap events policy = .error e := by
      unfold joinTimes
      split
      · rename_i ran
        rw [ran] at ended
        cases ended
        rfl
      · rename_i ran
        rw [ran] at ended
        cases ended
    simp [failed]

theorem joinTimes_lenient (lenient : Lenient policy other) {heap : HeapId}
    {events : List (Event α)} {times : JoinTimes α}
    (ran : joinTimes heap events policy = .ok times) :
    joinTimes heap events other = .ok times := by
  obtain ⟨clean,rfl⟩ := joinTimes_ok_iff.mp ran
  obtain ⟨seen,ending,alike⟩ := Replayer.ends_under (.start heap events policy)
    (Replayer.start_live heap events policy) rfl
  obtain ⟨given,ended,_⟩ := alike policy
  obtain ⟨given',ended',_⟩ := alike other
  have clean' : ending.Under heap policy none _ := clean ▸ ended
  exact joinTimes_ok_iff.mpr ⟨clean'.lenient lenient ended',
    congrArg JoinTimes.ofObservations (given.trans given'.symm)⟩

theorem foldlM_ok {σ τ ε : Type} {first second : σ → τ → Except ε σ}
    (follows : ∀ state item next, first state item = .ok next → second state item = .ok next)
    {items : List τ} {state final : σ} (ran : items.foldlM first state = .ok final) :
    items.foldlM second state = .ok final := by
  induction items generalizing state with
  | nil => exact ran
  | cons item rest ih =>
    rw [List.foldlM_cons] at ran ⊢
    cases stepped : first state item with
    | error e => rw [stepped] at ran; cases ran
    | ok next =>
      rw [stepped] at ran
      rw [follows state item next stepped]
      exact ih ran

theorem Cycle.replayInto_lenient (lenient : Lenient policy other) {all next : HeapJoinTimes α}
    {history : HeapHistory α} (ran : replayInto policy all history = .ok next) :
    replayInto other all history = .ok next := by
  unfold replayInto at ran ⊢
  split at ran
  · cases ran
  · rename_i fresh
    rw [if_neg fresh]
    split at ran
    · cases ran
    · rename_i times replayed
      rw [joinTimes_lenient lenient replayed]
      exact ran

theorem Cycle.joinTimes_lenient (lenient : Lenient policy other) {cycle : Cycle α}
    {all : Failable (HeapJoinTimes α)} (ran : cycle.joinTimes policy = .ok all) :
    cycle.joinTimes other = .ok all := by
  unfold Cycle.joinTimes at ran ⊢
  split at ran
  · exact ran
  · split at ran
    · cases ran
    · rename_i out replayed
      rw [foldlM_ok (fun _ _ _ => Cycle.replayInto_lenient lenient) replayed]
      exact ran

theorem map_ok {τ ν ε : Type} {first second : Except ε τ} {f : τ → ν} {out : ν}
    (follows : ∀ value, first = .ok value → second = .ok value) (ran : first.map f = .ok out) :
    second.map f = .ok out := by
  cases first with
  | error e => cases ran
  | ok value =>
    rw [follows value rfl]
    exact ran

theorem Statistics.compute_lenient (lenient : Lenient policy other) {cycle : Cycle α}
    {table : PhaseTable} {statistics : Failable (Statistics α)}
    (computed : Statistics.compute cycle table policy = .ok statistics) :
    Statistics.compute cycle table other = .ok statistics :=
  map_ok (fun _ => Cycle.joinTimes_lenient lenient) computed

theorem HeapSummary.ofHistory_lenient (lenient : Lenient policy other) {history : HeapHistory α}
    {table : PhaseTable} {summary : HeapSummary α}
    (made : HeapSummary.ofHistory history table policy = .ok summary) :
    HeapSummary.ofHistory history table other = .ok summary :=
  map_ok (fun _ => JoinTrace.joinTimes_lenient lenient) made

theorem CycleSummary.ofCycle_lenient (lenient : Lenient policy other) {cycle : Cycle α}
    {table : PhaseTable} {summary : CycleSummary α}
    (made : CycleSummary.ofCycle cycle table policy = .ok summary) :
    CycleSummary.ofCycle cycle table other = .ok summary := by
  unfold CycleSummary.ofCycle at made ⊢
  split at made
  · exact made
  · split at made
    · cases made
    · rename_i heaps _ summaries ran
      have each := (mapM_ok_iff.mp ran).imp fun _ _ => HeapSummary.ofHistory_lenient lenient
      rw [mapM_ok_iff.mpr each]
      exact made

end Lenient

namespace Reporter
variable {α : Type} [Scalar α]

theorem report_lenient {table : PhaseTable} {config : Config α} {policy other : TrailingPolicy}
    {catalog : Catalog α (CycleSummary α)} (lenient : Lenient policy other) {cycle : Cycle α}
    {report : Report α}
    (reported : Reporter.report ⟨table,{ config with policy := policy },catalog⟩ cycle = .ok report) :
    Reporter.report ⟨table,{ config with policy := other },catalog⟩ cycle = .ok report := by
  obtain ⟨statistics,timeline,summary,computed,timed,made,rfl⟩ := report_ok_iff.mp reported
  exact report_ok_iff.mpr ⟨statistics,timeline,summary,Statistics.compute_lenient lenient computed,
    timed,CycleSummary.ofCycle_lenient lenient made,rfl⟩

theorem policy_decides_cut_only :
    (∀ (heap : HeapId) (events : List (Event α)), ∃ seen ending,
      (∀ policy, Replayer.Ends heap policy seen ending (Replayer.start heap events policy).run) ∧
      ∀ stage, ending = .cut stage → ∃ joins start,
        Accepted .any events joins (some start) ∧ start.stage = stage) ∧
    ∀ (table : PhaseTable) (config : Config α) (policy other : TrailingPolicy),
      policy = .strict ∨ other = .any → ∃ first second,
        make table { config with policy := policy } = .ok first ∧
        make table { config with policy := other } = .ok second ∧
        ∀ (cycle : Cycle α) (report : Report α), first.report cycle = .ok report →
          second.report cycle = .ok report := by
  refine ⟨fun heap events => ?_,fun table config policy other wider => ?_⟩
  · obtain ⟨seen,ending,ends⟩ := Replayer.ends_under (.start heap events .any)
      (Replayer.start_live heap events .any) rfl
    refine ⟨seen,ending,ends,fun stage cut => ?_⟩
    -- The policy that tolerates every stage accepts the list, and drops the stage it was cut in.
    have under := (ends .any).ended
    rw [cut] at under
    obtain ⟨clean,dropped⟩ := under.of_tolerated trivial
    obtain ⟨joins,last,accepted⟩ := Replayer.run_clean clean
    have same := (Replayer.run_accepted heap accepted).2.2.symm.trans dropped
    obtain ⟨start,rfl,here⟩ := Option.map_eq_some_iff.mp same
    exact ⟨joins,start,accepted,here⟩
  · exact ⟨_,_,make_ok table _,make_ok table _,fun cycle report reported =>
      report_lenient (lenient_of wider) reported⟩

theorem policy_decides_cut_only_sample :
    (Replayer.start 0 Sample.trace .strict).run.1 = Sample.joins.map Join.observation ∧
    (Replayer.start 0 Sample.trace .strict).run.2.1 = some (.truncated 0 .done) ∧
    (Replayer.start 0 Sample.trace .any).run.2.2.truncatedStage = some .done ∧
    ∃ first second report, make .builtin Sample.config = .ok first ∧
      make .builtin { Sample.config with policy := .any } = .ok second ∧
      first.report Sample.cycle = .ok report ∧ second.report Sample.cycle = .ok report := by
  obtain ⟨replays,reports⟩ := policy_decides_cut_only (α := ℚ)
  obtain ⟨seen,ending,ends,_⟩ := replays 0 Sample.trace
  obtain ⟨observed,_,dropped⟩ := Replayer.run_accepted 0 Sample.trace_accepted
  have under := (ends .doneOnly).ended
  rw [dropped] at under
  cases under.cut_of_dropped
  obtain ⟨first,second,made,made',same⟩ :=
    reports .builtin Sample.config .doneOnly .any (.inr rfl)
  obtain ⟨report,reported⟩ := Sample.reported made
  refine ⟨?_,?_,?_,first,second,report,made,made',reported,same _ _ reported⟩
  · exact (ends .strict).given.trans ((ends .doneOnly).given.symm.trans observed)
  · exact ((ends .strict).ended.of_untolerated id).1
  · exact ((ends .any).ended.of_tolerated trivial).2

end Reporter
end JoinTrace
