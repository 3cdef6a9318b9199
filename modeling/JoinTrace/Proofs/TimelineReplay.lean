import JoinTrace.Proofs.ReplayAcceptance
import JoinTrace.Proofs.SortedMapLaws
import JoinTrace.Timeline.StageTiming

-- Of a list that replays without an error, the timeline tells the same as the replay: although its
-- scan pairs nothing, it leaves no stage running alone at the end of an item.
namespace JoinTrace
open TraceGrammar

namespace StageTimeline
variable {α : Type} [Scalar α]

theorem cell_reconstruct {config : Config α} {heaps : List (HeapId × List (Event α))}
    {timeline : StageTimeline α} (built : reconstruct config heaps = .ok timeline)
    (stage : Stage) (heap : HeapId) :
    ((marks heaps).cell stage heap).map (StageMarks.timing config stage heap) =
      (SortedMap.cell timeline stage heap).map .ok := by
  unfold reconstruct at built
  split at built
  · cases built
  · have row := SortedMap.get?_traverse built stage
    unfold SortedMap.cell
    cases marked : (marks heaps).get? stage with
    | none =>
      have absent : timeline.get? stage = none := by simpa [marked,eq_comm] using row
      simp [absent]
    | some column =>
      rw [marked,Option.map_some,eq_comm,Option.map_eq_some_iff] at row
      obtain ⟨timings,held,ran⟩ := row
      rw [held]
      exact SortedMap.get?_traverse ran.symm heap

theorem reconstruct_perm {heaps others : List (HeapId × List (Event α))}
    (distinct : (heaps.map (·.1)).Nodup) (perm : heaps.Perm others) (config : Config α) :
    reconstruct config heaps = reconstruct config others := by
  have once := firstRepeat?_eq_none.mpr distinct
  have once' := firstRepeat?_eq_none.mpr ((perm.map (·.1)).nodup_iff.mp distinct)
  have marked : marks heaps = marks others := by
    unfold marks
    rw [SortedMap.ofList_perm _ (perm.map fun heap => (heap.1,stageMarks heap.2))]
    simpa [Function.comp_def] using distinct
  simp only [reconstruct,once,once',marked]

end StageTimeline

namespace HeapScan
variable {α : Type}

theorem get?_mark (scan : HeapScan α) (stage other : Stage) (change : StageMarks α → StageMarks α) :
    (scan.mark stage change).marks.get? other =
      if stage = other then some (change ((scan.marks.get? stage).getD .none))
      else scan.marks.get? other := by
  rw [mark,SortedMap.get?_upsert]
  by_cases same : stage = other
  · simp [same]
  · simp [same,Ranked.rank_eq_iff]

theorem advance_restartStart {scan : HeapScan α} {event : Event α} (starts : event.isRestartStart) :
    scan.advance event = scan := by
  obtain ⟨⟨kind,_⟩,edge⟩ := Event.isRestartStart_iff.mp starts
  simp [advance,kind,edge]

theorem advance_restartEnd {scan : HeapScan α} {event : Event α} (ends : event.isRestartEnd)
    (idle : scan.alone = none) : scan.advance event = scan := by
  obtain ⟨⟨kind,_⟩,edge⟩ := Event.isRestartEnd_iff.mp ends
  simp [advance,kind,edge,idle]

theorem advance_closing {scan : HeapScan α} {event : Event α} {stage : Stage}
    (ends : event.isRestartEnd) (running : scan.alone = some stage) :
    scan.advance event = { scan.mark stage (·.addEnd event.reading) with alone := none } := by
  obtain ⟨⟨kind,_⟩,edge⟩ := Event.isRestartEnd_iff.mp ends
  simp [advance,kind,edge,running]

theorem advance_joinStart {scan : HeapScan α} {event : Event α} (starts : event.isJoinStart) :
    scan.advance event = scan.mark event.stage (·.addStart event.reading) := by
  obtain ⟨kind,edge⟩ := Event.isJoinStart_iff.mp starts
  simp [advance,kind,edge,Event.isSingleThreadedStart]

theorem advance_joinEnd {scan : HeapScan α} {event : Event α} (ends : event.isJoinEnd) :
    scan.advance event = scan.mark event.stage (·.addEnd event.reading) := by
  obtain ⟨kind,edge⟩ := Event.isJoinEnd_iff.mp ends
  simp [advance,kind,edge]

theorem advance_aloneStart {scan : HeapScan α} {event : Event α}
    (starts : event.isSingleThreadedStart) :
    scan.advance event =
      { scan.mark event.stage (·.addStart event.reading) with alone := some event.stage } := by
  obtain ⟨edge,kind⟩ := Event.isSingleThreadedStart_iff.mp starts
  rcases kind with kind | kind <;> simp [advance,kind,edge,Event.isSingleThreadedStart]

-- Restarts of other heaps go by without a trace while this heap runs nothing alone.
theorem foldl_maybeRestartEnd {scan : HeapScan α} {events : List (Event α)}
    (passing : MaybeRestartEnd events) (idle : scan.alone = none) :
    events.foldl advance scan = scan := by
  cases passing with
  | absent => rfl
  | present ends => exact advance_restartEnd ends idle

theorem foldl_maybeRestart {scan : HeapScan α} {events : List (Event α)}
    (passing : MaybeRestart events) (idle : scan.alone = none) :
    events.foldl advance scan = scan := by
  cases passing with
  | absent => rfl
  | present starts tail =>
    rw [List.foldl_cons,advance_restartStart starts]
    exact foldl_maybeRestartEnd tail idle

end HeapScan
namespace Join
variable {α : Type}

def ofStage (joins : List (Join α)) (stage : Stage) : List (Join α) :=
  joins.filter (·.stage = stage)

theorem ofStage_append (earlier : List (Join α)) (join : Join α) (stage : Stage) :
    ofStage (earlier ++ [join]) stage =
      if join.stage = stage then ofStage earlier stage ++ [join] else ofStage earlier stage := by
  by_cases same : join.stage = stage <;> simp [ofStage,same]

end Join

namespace StageMarks
variable {α : Type}

def ofJoins : List (Join α) → Option (StageMarks α)
  | [] => .none
  | first :: rest => some ⟨.ofNat (rest.length+1),.ofNat (rest.length+1),some first.start.reading,
    (first :: rest).getLast?.map (·.finish.reading)⟩

theorem ofJoins_append (joins : List (Join α)) (join : Join α) :
    ofJoins (joins ++ [join]) =
      some ((((ofJoins joins).getD .none).addStart join.start.reading).addEnd join.finish.reading) := by
  cases joins with
  | nil => simp [ofJoins,addStart,addEnd,none]
  | cons first rest =>
    have last : (first :: (rest ++ [join])).getLast? = some join := by
      rw [← List.cons_append]; exact List.getLast?_concat
    simp [ofJoins,addStart,addEnd,last,UInt32.ofNat_add]

def ofTrace (joins : List (Join α)) : Option (Event α) → Option (StageMarks α)
  | .none => ofJoins joins
  | some start => some (((ofJoins joins).getD .none).addStart start.reading)

end StageMarks

namespace HeapScan
variable {α : Type}

-- Between two items nothing runs alone, and the marks are those of the joins so far. The initial
-- stage is left out: the replay discards what the timeline still marks.
structure Describes (scan : HeapScan α) (joins : List (Join α)) : Prop where
  idle : scan.alone = none
  marked : ∀ stage, stage ≠ .generationDetermined →
    scan.marks.get? stage = StageMarks.ofJoins (Join.ofStage joins stage)

theorem describes_initial : Describes (⟨∅,none⟩ : HeapScan α) [] :=
  ⟨rfl,fun _ _ => rfl⟩

theorem Describes.markInitial {scan : HeapScan α} {joins : List (Join α)}
    (described : scan.Describes joins) (change : StageMarks α → StageMarks α) :
    (scan.mark .generationDetermined change).Describes joins := by
  refine ⟨described.idle,fun stage other => ?_⟩
  rw [get?_mark,if_neg (Ne.symm other)]
  exact described.marked stage other

theorem Describes.addJoin {scan after : HeapScan α} {joins : List (Join α)} {join : Join α}
    (described : scan.Describes joins) (idle : after.alone = none)
    (marks : after.marks = ((scan.mark join.stage (·.addStart join.start.reading)).mark join.stage
      (·.addEnd join.finish.reading)).marks) : after.Describes (joins ++ [join]) := by
  refine ⟨idle,fun stage other => ?_⟩
  rw [marks,get?_mark,get?_mark,get?_mark,Join.ofStage_append]
  by_cases same : join.stage = stage
  · subst same
    simp [described.marked _ other,StageMarks.ofJoins_append]
  · simp [same,described.marked _ other]

theorem describes_item {scan : HeapScan α} {earlier joins : List (Join α)}
    {front : List (Event α)} (described : scan.Describes earlier) (item : Item front joins) :
    (front.foldl advance scan).Describes (earlier ++ joins) := by
  cases item with
  | foreign starts tail =>
    rw [List.foldl_cons,advance_restartStart starts,foldl_maybeRestartEnd tail described.idle,
      List.append_nil]
    exact described
  | @waited start finish between rest starts passing ends same tail =>
    have waiting : (scan.mark start.stage (·.addStart start.reading)).alone = none := described.idle
    have waited : ((scan.mark start.stage (·.addStart start.reading)).mark finish.stage
      (·.addEnd finish.reading)).alone = none := described.idle
    rw [List.foldl_cons,advance_joinStart starts,List.foldl_append,
      foldl_maybeRestart passing waiting,List.foldl_cons,advance_joinEnd ends,
      foldl_maybeRestartEnd tail waited,same]
    exact described.addJoin described.idle rfl
  | @alone start restart finish starts restarts ends =>
    rw [List.foldl_cons,advance_aloneStart starts,List.foldl_cons,advance_restartStart restarts,
      List.foldl_cons,advance_closing ends rfl]
    exact described.addJoin rfl rfl

theorem describes_items {scan : HeapScan α} {earlier joins : List (Join α)}
    {middle : List (Event α)} (described : scan.Describes earlier) (items : Items middle joins) :
    (middle.foldl advance scan).Describes (earlier ++ joins) := by
  induction items generalizing scan earlier with
  | nil => rwa [List.append_nil]
  | cons first rest ih =>
    rw [List.foldl_append,← List.append_assoc]
    exact ih (describes_item described first)

theorem describes_opening {front : List (Event α)} (opening : Opening front) :
    (front.foldl advance ⟨∅,none⟩).Describes [] := by
  have ending {scan : HeapScan α} {event : Event α} (described : scan.Describes [])
      (ends : EndsInitial event) : (scan.advance event).Describes [] := by
    rw [advance_joinEnd ends.1,ends.2]
    exact described.markInitial _
  have leaving {scan : HeapScan α} {rest : List (Event α)} (described : scan.Describes [])
      (leftover : ∀ later ∈ rest, later.isRestartEnd ∨ EndsInitial later) :
      (rest.foldl advance scan).Describes [] := by
    induction rest generalizing scan with
    | nil => exact described
    | cons event rest ih =>
      refine ih ?_ fun later member => leftover later (List.mem_cons_of_mem _ member)
      rcases leftover event (by simp) with restarts | ends
      · rwa [advance_restartEnd restarts described.idle]
      · exact ending described ends
  cases opening with
  | restart starts leftover =>
    rw [List.foldl_cons,advance_restartStart starts]
    exact leaving describes_initial leftover
  | whole starts initial ends =>
    rw [List.foldl_cons,advance_joinStart starts,initial]
    exact ending (describes_initial.markInitial _) ends
  | lone ends => exact ending describes_initial ends

theorem marked_tail {scan : HeapScan α} {joins : List (Join α)} {back : List (Event α)}
    {cut : Option (Event α)} {policy : TrailingPolicy} {stage : Stage}
    (described : scan.Describes joins) (tail : Tail policy back cut)
    (other : stage ≠ .generationDetermined) :
    (back.foldl advance scan).marks.get? stage =
      StageMarks.ofTrace (Join.ofStage joins stage) (cut.filter (·.stage = stage)) := by
  have started (start : Event α) :
      (scan.mark start.stage (·.addStart start.reading)).marks.get? stage =
        StageMarks.ofTrace (Join.ofStage joins stage)
          ((some start).filter (·.stage = stage)) := by
    rw [get?_mark]
    by_cases same : start.stage = stage
    · subst same
      simp [described.marked _ other,StageMarks.ofTrace,Option.filter]
    · simp [same,described.marked _ other,StageMarks.ofTrace,Option.filter]
  cases tail with
  | ended => exact described.marked stage other
  | @waiting start rest starts passing tolerated =>
    have waiting : (scan.mark start.stage (·.addStart start.reading)).alone = none := described.idle
    rw [List.foldl_cons,advance_joinStart starts,foldl_maybeRestart passing waiting]
    exact started start
  | alone starts tolerated =>
    rw [List.foldl_cons,advance_aloneStart starts]
    exact started _
  | restarting starts restarts tolerated =>
    rw [List.foldl_cons,advance_aloneStart starts,List.foldl_cons,advance_restartStart restarts]
    exact started _

end HeapScan

theorem stageMarks_accepted {α : Type} {events : List (Event α)} {joins : List (Join α)}
    {cut : Option (Event α)} {policy : TrailingPolicy} {stage : Stage}
    (accepted : Accepted policy events joins cut) (other : stage ≠ .generationDetermined) :
    (stageMarks events).get? stage =
      StageMarks.ofTrace (Join.ofStage joins stage) (cut.filter (·.stage = stage)) := by
  cases accepted with
  | empty => rfl
  | traced opening items tail =>
    unfold stageMarks
    rw [List.foldl_append,List.foldl_append]
    exact HeapScan.marked_tail
      (HeapScan.describes_items (HeapScan.describes_opening opening) items) tail other

namespace StageMarks
variable {α : Type}

theorem ofTrace_isSome (joins : List (Join α)) (cut : Option (Event α)) :
    (ofTrace joins cut).isSome ↔ joins ≠ [] ∨ cut.isSome := by
  cases cut <;> cases joins <;> simp [ofTrace,ofJoins]

theorem ofTrace_fields {joins : List (Join α)} {cut : Option (Event α)} {marks : StageMarks α}
    (left : ofTrace joins cut = some marks) :
    marks.starts = .ofNat (joins.length + cut.toList.length) ∧ marks.ends = .ofNat joins.length ∧
      marks.firstStart = ((joins.head?.map (·.start)).or cut).map Event.reading ∧
      marks.lastEnd = joins.getLast?.map (·.finish.reading) := by
  cases cut with
  | none =>
    cases joins with
    | nil => cases left
    | cons first rest => cases left; simp
  | some start =>
    cases left
    cases joins <;> simp [ofJoins,addStart,none]

theorem timing_fields [Scalar α] {config : Config α} {stage : Stage} {heap : HeapId}
    {marks : StageMarks α} {timing : StageTiming α}
    (timed : marks.timing config stage heap = .ok timing) :
    timing.starts = marks.starts ∧ timing.ends = marks.ends ∧
      timing.start = marks.firstStart.map (·.time) ∧
      timing.finish = endAfter timing.start (marks.lastEnd.map (·.time)) := by
  unfold StageMarks.timing at timed
  split at timed
  · split at timed
    · cases timed; exact ⟨rfl,rfl,rfl,rfl⟩
    · cases timed
  · cases timed; exact ⟨rfl,rfl,rfl,rfl⟩

end StageMarks

variable {α : Type}

theorem timelineMarks_single (heap : HeapId) (events : List (Event α)) (stage : Stage) :
    (StageTimeline.marks [(heap,events)]).cell stage heap = (stageMarks events).get? stage := by
  rw [StageTimeline.marks,SortedMap.cell_transpose]
  simp [SortedMap.cell,SortedMap.ofList,SortedMap.get?_insert]

variable [Scalar α]

-- A count of 32 bits: it is taken modulo 2^32, so it is exact for every number below that.
structure Counts (counter : UInt32) (number : Nat) : Prop where
  wrapped : counter = .ofNat number
  exact : number < 2^32 → counter.toNat = number

theorem counts_ofNat (number : Nat) : Counts (.ofNat number) number := by
  refine ⟨rfl,fun fits => ?_⟩
  rw [UInt32.toNat_ofNat',Nat.mod_eq_of_lt fits]

structure TimesJoins (joins : List (Join α)) (cut : Option (Event α)) (timing : StageTiming α) :
    Prop where
  starts : Counts timing.starts (joins.length + if cut.isSome then 1 else 0)
  ends : Counts timing.ends joins.length
  start : timing.start = ((joins.head?.map (·.start)).or cut).map (·.time)
  finish : ∀ last ∈ joins.getLast?, ∃ start, timing.start = some start ∧
    timing.finish = if Scalar.lt last.finish.time start then none else some last.finish.time
  span : ∀ only, joins = [only] → Scalar.lt only.finish.time only.start.time = false →
    timing.span = some only.observation.duration

theorem timesJoins_of_marks {config : Config α} {stage : Stage} {heap : HeapId}
    {joins : List (Join α)} {cut : Option (Event α)} {marks : StageMarks α} {timing : StageTiming α}
    (left : StageMarks.ofTrace joins cut = some marks)
    (timed : marks.timing config stage heap = .ok timing) : TimesJoins joins cut timing := by
  obtain ⟨starts,ends,first,last⟩ := StageMarks.ofTrace_fields left
  obtain ⟨starts',ends',start,finish⟩ := StageMarks.timing_fields timed
  have begun : timing.start = ((joins.head?.map (·.start)).or cut).map (·.time) := by
    rw [start,first,Option.map_map]; rfl
  have number : joins.length + cut.toList.length = joins.length + if cut.isSome then 1 else 0 := by
    cases cut <;> rfl
  refine ⟨?_,?_,begun,?_,?_⟩
  · rw [starts',starts,number]
    exact counts_ofNat _
  · rw [ends',ends]
    exact counts_ofNat _
  · intro final member
    cases joins with
    | nil => cases member
    | cons head rest =>
      refine ⟨head.start.time,by simpa using begun,?_⟩
      rw [finish,begun,last,member]
      rfl
  · intro only single inOrder
    subst single
    rw [StageTiming.span,finish,begun,last]
    simp [endAfter,inOrder,spanOf,Join.observation,Event.reading]

theorem timeline_agrees_with_replay {heap : HeapId} {events : List (Event α)}
    {policy : TrailingPolicy} {config : Config α} {timeline : StageTimeline α}
    (clean : (Replayer.start heap events policy).run.2.1 = none)
    (built : StageTimeline.reconstruct config [(heap,events)] = .ok timeline) :
    let observed := (Replayer.start heap events policy).run.1
    let truncated := (Replayer.start heap events policy).run.2.2.truncatedStage
    ∃ joins cut, Accepted policy events joins cut ∧ observed = joins.map Join.observation ∧
      truncated = cut.map (·.stage) ∧
      ∀ stage, stage ≠ .generationDetermined →
        let seen := Join.ofStage joins stage
        let dropped := cut.filter (·.stage = stage)
        observed.filter (·.stage = stage) = seen.map Join.observation ∧
        (dropped.isSome ↔ truncated = some stage) ∧
        ((SortedMap.cell timeline stage heap).isSome ↔ seen ≠ [] ∨ truncated = some stage) ∧
        ∀ timing, SortedMap.cell timeline stage heap = some timing →
          TimesJoins seen dropped timing := by
  intro observed truncated
  obtain ⟨joins,cut,accepted⟩ := Replayer.run_clean clean
  obtain ⟨seen,_,last⟩ := Replayer.run_accepted heap accepted
  refine ⟨joins,cut,accepted,seen,last,fun stage other => ?_⟩
  have cells := StageTimeline.cell_reconstruct built stage heap
  rw [timelineMarks_single,stageMarks_accepted accepted other] at cells
  have cutHere : (cut.filter (·.stage = stage)).isSome ↔ truncated = some stage := by
    rw [show truncated = cut.map (·.stage) from last]
    cases cut <;> simp [Option.filter]
  refine ⟨?_,cutHere,?_,fun timing held => ?_⟩
  · rw [show observed = joins.map Join.observation from seen,List.filter_map]
    rfl
  · rw [← cutHere,← StageMarks.ofTrace_isSome,← Option.isSome_map,← cells,Option.isSome_map]
  · rw [held,Option.map_some,Option.map_eq_some_iff] at cells
    obtain ⟨marks,left,timed⟩ := cells
    exact timesJoins_of_marks left timed

theorem timeline_agrees_with_replay_sample :
    (Replayer.start 0 Sample.trace .doneOnly).run.2.1 = none ∧
    ∃ timeline, StageTimeline.reconstruct (⟨.doneOnly,0,0⟩ : Config ℚ) [(0,Sample.trace)] = .ok timeline ∧
      ∃ timing, SortedMap.cell timeline .beginMarkPhase 0 = some timing ∧
        timing.starts = 1 ∧ timing.ends = 1 ∧ timing.span = some 4 := by
  obtain ⟨replayed,clean,truncated⟩ := Replayer.run_accepted 0 Sample.trace_accepted
  refine ⟨clean,?_⟩
  cases built : StageTimeline.reconstruct (⟨.doneOnly,0,0⟩ : Config ℚ) [(0,Sample.trace)] with
  | error e =>
    have succeeds : (StageTimeline.reconstruct (⟨.doneOnly,0,0⟩ : Config ℚ)
      [(0,Sample.trace)]).isOk = true := by decide
    rw [built] at succeeds
    cases succeeds
  | ok timeline =>
    obtain ⟨joins,cut,_,_,_,agree⟩ := timeline_agrees_with_replay clean built
    obtain ⟨seen,cutHere,present,times⟩ := agree .beginMarkPhase (by decide)
    rw [replayed,Sample.joins_observed] at seen
    have observed : (Join.ofStage joins .beginMarkPhase).map Join.observation =
      [⟨.beginMarkPhase,4⟩] := seen.symm
    obtain ⟨only,single,four⟩ := List.map_eq_singleton_iff.mp observed
    have lasted : only.finish.time - only.start.time = 4 := congrArg Observation.duration four
    have inOrder : Scalar.lt only.finish.time only.start.time = false := by
      have : only.start.time ≤ only.finish.time := by linarith
      simpa [Scalar.lt] using this
    obtain ⟨timing,held⟩ := Option.isSome_iff_exists.mp (present.mpr (.inl (by simp [single])))
    have agreed := times timing held
    have other : ¬ (cut.filter (·.stage = .beginMarkPhase)).isSome := by
      rw [cutHere,truncated]
      decide
    refine ⟨timeline,rfl,timing,held,?_,?_,?_⟩
    · simpa [single,other] using agreed.starts.wrapped
    · simpa [single] using agreed.ends.wrapped
    · rw [agreed.span only single inOrder]
      exact congrArg some lasted

end JoinTrace
