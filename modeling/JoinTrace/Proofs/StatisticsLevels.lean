import JoinTrace.Proofs.HeapMetrics
import JoinTrace.Proofs.StageAssignment
import JoinTrace.Statistics

-- The three levels of the statistics, told from the durations they are made of: all joins, the last
-- join of each heap in a stage, and these last joins once more for the stages of a phase.
namespace JoinTrace

namespace HeapJoinTimes
variable {α : Type} {all : HeapJoinTimes α} {heap : HeapId} {stage : Stage}

def durationsOf (all : HeapJoinTimes α) (heap : HeapId) (stage : Stage) : List α :=
  ((all.get? heap).bind (·.get? stage)).getD []

def lastOf (all : HeapJoinTimes α) (stage : Stage) : List α :=
  all.keys.filterMap fun heap => (all.durationsOf heap stage).getLast?

def column (all : HeapJoinTimes α) (stage : Stage) : SortedMap HeapId α :=
  SortedMap.filterMap (fun _ times => (times.get? stage).bind List.getLast?) all

theorem getLast?_durationsOf (all : HeapJoinTimes α) (heap : HeapId) (stage : Stage) :
    (all.durationsOf heap stage).getLast? =
      (all.get? heap).bind fun times => (times.get? stage).bind List.getLast? := by
  unfold durationsOf
  cases all.get? heap with
  | none => rfl
  | some times => cases found : times.get? stage <;> simp [found]

theorem get?_column (all : HeapJoinTimes α) (heap : HeapId) (stage : Stage) :
    (all.column stage).get? heap = (all.durationsOf heap stage).getLast? := by
  rw [column,SortedMap.get?_filterMap,getLast?_durationsOf]

theorem values_column (all : HeapJoinTimes α) (stage : Stage) :
    (all.column stage).values = all.lastOf stage := by
  simp only [column,SortedMap.values,SortedMap.filterMap,lastOf,SortedMap.keys,List.map_filterMap,
    List.filterMap_map]
  refine List.filterMap_congr fun entry listed => ?_
  have held := (SortedMap.get?_eq_some_iff all entry.1 entry.2).mpr listed
  simp [getLast?_durationsOf,held]

theorem mem_lastOf {duration : α} :
    duration ∈ all.lastOf stage ↔ ∃ heap, (all.durationsOf heap stage).getLast? = some duration := by
  simp only [← values_column,SortedMap.mem_values,get?_column]

theorem lastOf_ne_nil : all.lastOf stage ≠ [] ↔ ∃ heap, all.durationsOf heap stage ≠ [] := by
  constructor
  · intro present
    obtain ⟨duration,listed⟩ := List.exists_mem_of_ne_nil _ present
    obtain ⟨heap,last⟩ := mem_lastOf.mp listed
    refine ⟨heap,fun nothing => ?_⟩
    rw [nothing] at last
    cases last
  · rintro ⟨heap,present⟩
    exact List.ne_nil_of_mem (mem_lastOf.mpr ⟨heap,List.getLast?_eq_some_getLast present⟩)

theorem mem_joins {duration : α} : duration ∈ all.values.flatMap JoinTimes.durations ↔
    ∃ heap stage, duration ∈ all.durationsOf heap stage := by
  simp only [List.mem_flatMap,SortedMap.mem_values,JoinTimes.durations,List.mem_flatten]
  constructor
  · rintro ⟨times,⟨heap,held⟩,durations,⟨stage,found⟩,inside⟩
    exact ⟨heap,stage,by simpa [durationsOf,held,found] using inside⟩
  · rintro ⟨heap,stage,inside⟩
    unfold durationsOf at inside
    cases held : all.get? heap with
    | none => rw [held] at inside; cases inside
    | some times =>
      cases found : times.get? stage with
      | none => rw [held] at inside; simp [found] at inside
      | some durations =>
        rw [held] at inside
        exact ⟨times,⟨heap,held⟩,durations,⟨stage,found⟩,by simpa [found] using inside⟩

theorem lastOf_subset {duration : α} (last : duration ∈ all.lastOf stage) :
    duration ∈ all.values.flatMap JoinTimes.durations := by
  obtain ⟨heap,ends⟩ := mem_lastOf.mp last
  exact mem_joins.mpr ⟨heap,stage,List.mem_of_getLast? ends⟩

theorem lastDurations_iff {durations : SortedMap HeapId α} :
    all.lastDurations.get? stage = some durations ↔
      all.lastOf stage ≠ [] ∧ all.column stage = durations := by
  have same : (SortedMap.map (fun _ times => times.filterMap fun _ durations => durations.getLast?)
      all).filterMap (fun _ row => row.get? stage) = all.column stage := by
    refine SortedMap.ext_get? fun heap => ?_
    simp only [column,SortedMap.get?_filterMap,SortedMap.get?_map]
    cases all.get? heap with
    | none => rfl
    | some times => exact SortedMap.get?_filterMap _ times stage
  rw [lastDurations,SortedMap.get?_transpose_iff,same,← values_column]
  constructor
  · rintro ⟨present,rfl⟩
    exact ⟨present,rfl⟩
  · rintro ⟨present,rfl⟩
    exact ⟨present,rfl⟩

end HeapJoinTimes

def PhaseTable.given (table : PhaseTable) (phase : Phase) : List Stage :=
  Stage.all.filter fun stage => table.phaseOf stage = some phase

theorem PhaseTable.Consistent.given_perm {table : PhaseTable} (consistent : table.Consistent)
    {phase : Phase} (distinct : (table.stagesOf phase).Nodup) :
    (table.stagesOf phase).Perm (table.given phase) := by
  have stagesOnce : Stage.all.Nodup := by decide
  refine (List.perm_ext_iff_of_nodup distinct (stagesOnce.filter _)).mpr fun stage => ?_
  rw [consistent,List.mem_filter,decide_eq_true_eq]
  exact ⟨fun assigned => ⟨Stage.mem_all stage,assigned⟩,And.right⟩

namespace Statistics
variable {α : Type} {all : HeapJoinTimes α} {table : PhaseTable} {phase : Phase}

theorem flatMap_lastDurations (all : HeapJoinTimes α) (stages : List Stage) :
    (stages.filterMap all.lastDurations.get?).flatMap (·.values) = stages.flatMap all.lastOf := by
  induction stages with
  | nil => rfl
  | cons stage rest ih =>
    rw [List.filterMap_cons,List.flatMap_cons,← ih]
    cases found : all.lastDurations.get? stage with
    | some durations =>
      obtain ⟨_,rfl⟩ := HeapJoinTimes.lastDurations_iff.mp found
      rw [← HeapJoinTimes.values_column]
      rfl
    | none =>
      have nothing : all.lastOf stage = [] := by
        by_contra present
        cases found.symm.trans (HeapJoinTimes.lastDurations_iff.mpr ⟨present,rfl⟩)
      rw [nothing]
      rfl

theorem phaseDurations_iff {durations : List α} :
    (phaseDurations all.lastDurations table).get? phase = some durations ↔
      durations ≠ [] ∧ (table.stagesOf phase).flatMap all.lastOf = durations := by
  rw [phaseDurations,SortedMap.get?_filterMap,PhaseTable.stagesOf]
  cases table.stagesByPhase.get? phase with
  | none =>
    constructor
    · intro found
      cases found
    · rintro ⟨present,rfl⟩
      exact absurd rfl present
  | some stages =>
    simp only [Option.bind_some,Option.getD_some,flatMap_lastDurations,List.isEmpty_iff]
    split
    · rename_i nothing
      rw [nothing]
      constructor
      · intro found
        cases found
      · rintro ⟨present,rfl⟩
        exact absurd rfl present
    · rename_i present
      rw [Option.some.injEq]
      constructor
      · rintro rfl
        exact ⟨present,rfl⟩
      · exact And.right

end Statistics

section Levels
variable {α : Type} [Scalar α]

theorem Spread.of_ok {values : List α} (present : values ≠ []) :
    ∃ spread, Spread.of values = .ok spread := by
  obtain ⟨median,middle⟩ := JoinCatalog.median_ok present
  obtain ⟨first,rest,rfl⟩ := List.exists_cons_of_ne_nil present
  exact ⟨⟨median,rest.foldl Scalar.max first,rest.foldl Scalar.min first⟩,by rw [Spread.of,middle]; rfl⟩

theorem Spread.of_parts {values : List α} {spread : Spread α} (made : Spread.of values = .ok spread) :
    Aggregate.median values = .ok spread.median ∧ Aggregate.max values = .ok spread.max ∧
      Aggregate.min values = .ok spread.min := by
  unfold Spread.of at made
  cases middle : Aggregate.median values with
  | error failure => rw [middle] at made; cases made
  | ok median =>
    cases most : Aggregate.max values with
    | error failure => rw [middle,most] at made; cases made
    | ok max =>
      cases least : Aggregate.min values with
      | error failure => rw [middle,most,least] at made; cases made
      | ok min => rw [middle,most,least] at made; cases made; exact ⟨rfl,rfl,rfl⟩

theorem Spread.of_nil : Spread.of ([] : List α) = fail Aggregate.noValues := by
  have nothing : Scalar.sorted ([] : List α) = [] := List.mergeSort_nil
  simp only [Spread.of,Aggregate.median,nothing]
  rfl

structure StageStatistics.Tells (all : HeapJoinTimes α) (stage : Stage) (told : StageStatistics α) :
    Prop where
  ofStage : told.stage = stage
  spread : Spread.of (all.lastOf stage) = .ok told.spread
  heaps : ∀ heap, told.heaps.get? heap =
    (all.durationsOf heap stage).getLast?.map (Deviation.from · told.spread.median)

structure PhaseStatistics.Tells (all : HeapJoinTimes α) (table : PhaseTable) (overall : Spread α)
    (phase : Phase) (told : PhaseStatistics α) : Prop where
  ofPhase : told.phase = phase
  spread : Spread.of ((table.stagesOf phase).flatMap all.lastOf) = .ok told.spread
  deviation : told.deviation = .from told.spread.median overall.median

structure Statistics.Tells (all : HeapJoinTimes α) (table : PhaseTable) (told : Statistics α) :
    Prop where
  overall : Spread.of (all.values.flatMap JoinTimes.durations) = .ok told.overall
  stages : ∀ stage part, told.stages.get? stage = some part → part.Tells all stage
  stageThere : ∀ stage, (∃ part, told.stages.get? stage = some part) ↔
    ∃ heap, all.durationsOf heap stage ≠ []
  phases : ∀ phase part, told.phases.get? phase = some part →
    part.Tells all table told.overall phase
  phaseThere : ∀ phase, (∃ part, told.phases.get? phase = some part) ↔
    ∃ stage ∈ table.stagesOf phase, ∃ part, told.stages.get? stage = some part

namespace Statistics
variable {all : HeapJoinTimes α} {table : PhaseTable} {stage : Stage} {phase : Phase}
  {overall : Spread α}

theorem ofStage_iff {durations : SortedMap HeapId α} {part : StageStatistics α} :
    ofStage stage durations = .ok part ↔ ∃ spread, Spread.of durations.values = .ok spread ∧
      ⟨stage,spread,durations.map fun _ duration => .from duration spread.median⟩ = part := by
  unfold ofStage
  cases Spread.of durations.values <;> simp [bind,Except.bind,pure,Except.pure]

theorem ofPhase_iff {durations : List α} {part : PhaseStatistics α} :
    ofPhase overall phase durations = .ok part ↔ ∃ spread, Spread.of durations = .ok spread ∧
      ⟨phase,spread,.from spread.median overall.median⟩ = part := by
  unfold ofPhase
  cases Spread.of durations <;> simp [bind,Except.bind,pure,Except.pure]

theorem ofStage_ok (present : all.lastOf stage ≠ []) :
    ∃ part, ofStage stage (all.column stage) = .ok part := by
  rw [← HeapJoinTimes.values_column] at present
  obtain ⟨spread,made⟩ := Spread.of_ok present
  exact ⟨_,ofStage_iff.mpr ⟨spread,made,rfl⟩⟩

theorem ofPhase_ok (overall : Spread α) (phase : Phase) {durations : List α}
    (present : durations ≠ []) : ∃ part, ofPhase overall phase durations = .ok part := by
  obtain ⟨spread,made⟩ := Spread.of_ok present
  exact ⟨_,ofPhase_iff.mpr ⟨spread,made,rfl⟩⟩

theorem ofJoinTimes_iff {told : Statistics α} : ofJoinTimes all table = .ok told ↔
    Spread.of (all.values.flatMap JoinTimes.durations) = .ok told.overall ∧
    all.lastDurations.traverse ofStage = .ok told.stages ∧
    (phaseDurations all.lastDurations table).traverse (ofPhase told.overall) = .ok told.phases := by
  obtain ⟨overall,stages,phases⟩ := told
  unfold ofJoinTimes
  cases Spread.of (all.values.flatMap JoinTimes.durations) with
  | error failure => simp [Failable.context,Except.mapError,bind,Except.bind]
  | ok spread =>
    simp only [Failable.context,Except.mapError,bind,Except.bind]
    cases all.lastDurations.traverse ofStage with
    | error failure => simp
    | ok parts =>
      cases ran : (phaseDurations all.lastDurations table).traverse (ofPhase spread) with
      | error failure =>
        simp only [Except.ok.injEq,reduceCtorEq,false_iff,not_and]
        rintro rfl _
        simp [ran]
      | ok others =>
        simp only [pure,Except.pure,Except.ok.injEq,mk.injEq]
        constructor
        · rintro ⟨rfl,rfl,rfl⟩
          exact ⟨rfl,rfl,ran⟩
        · rintro ⟨rfl,rfl,done⟩
          exact ⟨rfl,rfl,Except.ok.inj (ran.symm.trans done)⟩

section Parts
variable {stages : SortedMap Stage (StageStatistics α)} {phases : SortedMap Phase (PhaseStatistics α)}

theorem stage_tells (each : all.lastDurations.traverse ofStage = .ok stages)
    {part : StageStatistics α} (held : stages.get? stage = some part) : part.Tells all stage := by
  obtain ⟨durations,found,made⟩ := (SortedMap.traverse_some_iff each).mp held
  obtain ⟨_,rfl⟩ := HeapJoinTimes.lastDurations_iff.mp found
  obtain ⟨spread,spreads,rfl⟩ := ofStage_iff.mp made
  rw [HeapJoinTimes.values_column] at spreads
  exact ⟨rfl,spreads,fun heap => by rw [SortedMap.get?_map,HeapJoinTimes.get?_column]⟩

theorem stage_there_iff (each : all.lastDurations.traverse ofStage = .ok stages) (stage : Stage) :
    (∃ part, stages.get? stage = some part) ↔ all.lastOf stage ≠ [] := by
  simp only [SortedMap.traverse_some_iff each,HeapJoinTimes.lastDurations_iff]
  constructor
  · rintro ⟨_,_,⟨present,_⟩,_⟩
    exact present
  · intro present
    obtain ⟨part,made⟩ := ofStage_ok present
    exact ⟨part,_,⟨present,rfl⟩,made⟩

theorem phase_tells
    (each : (phaseDurations all.lastDurations table).traverse (ofPhase overall) = .ok phases)
    {part : PhaseStatistics α} (held : phases.get? phase = some part) :
    part.Tells all table overall phase := by
  obtain ⟨durations,found,made⟩ := (SortedMap.traverse_some_iff each).mp held
  obtain ⟨_,rfl⟩ := phaseDurations_iff.mp found
  obtain ⟨spread,spreads,rfl⟩ := ofPhase_iff.mp made
  exact ⟨rfl,spreads,rfl⟩

theorem phase_there_iff
    (each : (phaseDurations all.lastDurations table).traverse (ofPhase overall) = .ok phases)
    (phase : Phase) : (∃ part, phases.get? phase = some part) ↔
      (table.stagesOf phase).flatMap all.lastOf ≠ [] := by
  simp only [SortedMap.traverse_some_iff each,phaseDurations_iff]
  constructor
  · rintro ⟨_,_,⟨present,rfl⟩,_⟩
    exact present
  · intro present
    obtain ⟨part,made⟩ := ofPhase_ok overall phase present
    exact ⟨part,_,⟨present,rfl⟩,made⟩

end Parts

theorem tells_of_ofJoinTimes {told : Statistics α} (made : ofJoinTimes all table = .ok told) :
    told.Tells all table := by
  obtain ⟨overall,eachStage,eachPhase⟩ := ofJoinTimes_iff.mp made
  refine ⟨overall,fun _ _ => stage_tells eachStage,?_,fun _ _ => phase_tells eachPhase,?_⟩
  · intro stage
    rw [stage_there_iff eachStage,HeapJoinTimes.lastOf_ne_nil]
  · intro phase
    simp only [phase_there_iff eachPhase,stage_there_iff eachStage,ne_eq,List.flatMap_eq_nil_iff,
      not_forall,exists_prop]

theorem ofJoinTimes_ok (table : PhaseTable)
    (present : all.values.flatMap JoinTimes.durations ≠ []) :
    ∃ told, ofJoinTimes all table = .ok told := by
  obtain ⟨overall,made⟩ := Spread.of_ok present
  obtain ⟨stages,eachStage⟩ : ∃ stages, all.lastDurations.traverse ofStage = .ok stages := by
    refine SortedMap.traverse_ok fun stage durations found => ?_
    obtain ⟨joined,rfl⟩ := HeapJoinTimes.lastDurations_iff.mp found
    exact ofStage_ok joined
  obtain ⟨phases,eachPhase⟩ : ∃ phases,
      (phaseDurations all.lastDurations table).traverse (ofPhase overall) = .ok phases :=
    SortedMap.traverse_ok fun phase durations found =>
      ofPhase_ok overall phase (phaseDurations_iff.mp found).1
  exact ⟨⟨overall,stages,phases⟩,ofJoinTimes_iff.mpr ⟨made,eachStage,eachPhase⟩⟩

theorem ofJoinTimes_nothing (table : PhaseTable)
    (nothing : all.values.flatMap JoinTimes.durations = []) :
    ofJoinTimes all table = fail "all joins: no values" := by
  unfold ofJoinTimes
  rw [nothing,Spread.of_nil]
  rfl

theorem ofJoinTimes_mirrors (all : HeapJoinTimes α) (made : table.Made) :
    ((∀ heap stage, all.durationsOf heap stage = []) →
      ofJoinTimes all table = fail "all joins: no values") ∧
    ((∃ heap stage, all.durationsOf heap stage ≠ []) → ∃ told, ofJoinTimes all table = .ok told ∧
      told.Tells all table ∧
      ∀ phase, ((∃ part, told.phases.get? phase = some part) ↔
          ∃ stage, table.phaseOf stage = some phase ∧
            ∃ part, told.stages.get? stage = some part) ∧
        ((table.stagesOf phase).Nodup → (table.stagesOf phase).Perm (table.given phase))) := by
  constructor
  · intro nothing
    refine ofJoinTimes_nothing table (List.eq_nil_iff_forall_not_mem.mpr fun duration listed => ?_)
    obtain ⟨heap,stage,inside⟩ := HeapJoinTimes.mem_joins.mp listed
    rw [nothing heap stage] at inside
    cases inside
  · rintro ⟨heap,stage,present⟩
    obtain ⟨duration,inside⟩ := List.exists_mem_of_ne_nil _ present
    obtain ⟨told,done⟩ := ofJoinTimes_ok table
      (List.ne_nil_of_mem (HeapJoinTimes.mem_joins.mpr ⟨heap,stage,inside⟩))
    have tells := tells_of_ofJoinTimes done
    refine ⟨told,done,tells,fun phase => ⟨?_,made.consistent.given_perm⟩⟩
    simp only [tells.phaseThere,made.consistent _ phase]

end Statistics
end Levels

namespace Sample

def heapTimes : HeapJoinTimes ℚ := .ofList [
  (0,.ofList [(.beginMarkPhase,[5,1]), (.scanSizedrefDone,[3])]),
  (1,.ofList [(.beginMarkPhase,[2]), (.scanSizedrefDone,[])])]

def markTimes : HeapJoinTimes ℚ :=
  .ofList [(0,.ofList [(.beginMarkPhase,[1]), (.scanSizedrefDone,[3])])]

theorem spread_three : Spread.of ([1,2,3] : List ℚ) = .ok ⟨2,3,1⟩ := by
  rw [Spread.of,Aggregate.median,Exact.sorted_ascending (by decide)]
  decide +kernel

end Sample

namespace Statistics

theorem ofJoinTimes_mirrors_sample : ∃ table told,
    PhaseTable.ofEntries (α := ℚ) [(.mark,[.beginMarkPhase]), (.plan,[.decideOnCompaction]),
      (.mark,[.scanSizedrefDone])] = .ok table ∧
    ofJoinTimes Sample.heapTimes table = .ok told ∧
    (∃ part, told.phases.get? .mark = some part ∧ part.spread = ⟨2,3,1⟩) ∧
    ¬ ∃ part, told.phases.get? .plan = some part := by
  obtain ⟨table,built,marks,plans,lasts⟩ : ∃ table, PhaseTable.ofEntries (α := ℚ)
      [(.mark,[.beginMarkPhase]), (.plan,[.decideOnCompaction]), (.mark,[.scanSizedrefDone])] =
        .ok table ∧ table.phaseOf .beginMarkPhase = some .mark ∧
      (∀ stage, table.phaseOf stage = some .plan → stage = .decideOnCompaction) ∧
      (table.stagesOf .mark).flatMap Sample.heapTimes.lastOf = [1,2,3] :=
    ⟨_,rfl,rfl,by intro stage; cases stage <;> decide,by decide +kernel⟩
  have marked : Sample.heapTimes.durationsOf 0 .beginMarkPhase ≠ [] := by decide +kernel
  have unplanned : Sample.heapTimes.lastOf .decideOnCompaction = [] := by decide +kernel
  obtain ⟨_,measured⟩ := ofJoinTimes_mirrors Sample.heapTimes (PhaseTable.made_ofEntries built)
  obtain ⟨told,made,tells,shown⟩ := measured ⟨0,.beginMarkPhase,marked⟩
  refine ⟨table,told,built,made,?_,?_⟩
  · have there := (tells.stageThere .beginMarkPhase).mpr ⟨0,marked⟩
    obtain ⟨part,held⟩ := (shown .mark).1.mpr ⟨_,marks,there⟩
    have spread := (tells.phases .mark part held).spread
    rw [lasts,Sample.spread_three] at spread
    exact ⟨part,held,(Except.ok.inj spread).symm⟩
  · rw [(shown .plan).1]
    rintro ⟨stage,planned,there⟩
    cases plans stage planned
    rw [tells.stageThere,← HeapJoinTimes.lastOf_ne_nil] at there
    exact there unplanned

theorem repeated_stage_weighs_twice : ∃ table told part,
    PhaseTable.ofEntries (α := ℚ) [(.mark,[.beginMarkPhase, .beginMarkPhase, .scanSizedrefDone])] =
      .ok table ∧
    ofJoinTimes Sample.markTimes table = .ok told ∧ told.phases.get? .mark = some part ∧
    part.spread.median = 1 ∧
    Spread.of ((table.given .mark).flatMap Sample.markTimes.lastOf) = .ok ⟨2,3,1⟩ := by
  obtain ⟨table,built,listed,lasts,once⟩ : ∃ table, PhaseTable.ofEntries (α := ℚ)
      [(.mark,[.beginMarkPhase, .beginMarkPhase, .scanSizedrefDone])] = .ok table ∧
      .beginMarkPhase ∈ table.stagesOf .mark ∧
      (table.stagesOf .mark).flatMap Sample.markTimes.lastOf = [1,1,3] ∧
      (table.given .mark).flatMap Sample.markTimes.lastOf = [1,3] :=
    ⟨_,rfl,by decide,by decide +kernel,by decide +kernel⟩
  have marked : Sample.markTimes.durationsOf 0 .beginMarkPhase ≠ [] := by decide +kernel
  have joined : Sample.markTimes.values.flatMap JoinTimes.durations ≠ [] := by decide +kernel
  obtain ⟨told,made⟩ := ofJoinTimes_ok table joined
  have tells := tells_of_ofJoinTimes made
  have there := (tells.stageThere .beginMarkPhase).mpr ⟨0,marked⟩
  obtain ⟨part,held⟩ := (tells.phaseThere .mark).mpr ⟨_,listed,there⟩
  have spread := (tells.phases .mark part held).spread
  rw [lasts,Spread.of,Aggregate.median,Exact.sorted_ascending (by decide)] at spread
  refine ⟨table,told,part,built,made,held,?_,?_⟩
  · rw [← Except.ok.inj spread]
  · rw [once,Spread.of,Aggregate.median,Exact.sorted_ascending (by decide)]
    decide +kernel

end Statistics
end JoinTrace
