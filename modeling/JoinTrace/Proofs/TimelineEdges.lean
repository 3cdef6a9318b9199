import JoinTrace.Proofs.StageSpans

-- What a timeline says of a stage on a heap, told from the history of that heap's list: which of
-- its events start the stage, and which end it, whatever order they come in.
namespace JoinTrace

namespace Event
variable {α : Type}

def OfStage (event : Event α) (stage : Stage) : Prop := event.kind ≠ .restart ∧ event.stage = stage

instance (event : Event α) (stage : Stage) : Decidable (event.OfStage stage) :=
  inferInstanceAs (Decidable (_ ∧ _))

def isMarker (event : Event α) : Bool :=
  event.isSingleThreadedStart || (event.kind == .restart && event.edge == .finish)

end Event

section History
variable {α : Type}

-- The stage that a heap with this history runs alone: that of the latest marker, unless this is the
-- end of a restart.
def runsAlone (before : List (Event α)) : Option Stage :=
  (before.filter (·.isMarker)).getLast?.bind fun marker =>
    if marker.isSingleThreadedStart then some marker.stage else none

def EndsStage (before : List (Event α)) (event : Event α) (stage : Stage) : Prop :=
  event.edge = .finish ∧
    (event.OfStage stage ∨ event.kind = .restart ∧ runsAlone before = some stage)

instance (before : List (Event α)) (event : Event α) (stage : Stage) :
    Decidable (EndsStage before event stage) := inferInstanceAs (Decidable (_ ∧ _))

def stageStarts (events : List (Event α)) (stage : Stage) : List (Event α) :=
  events.filter fun event => event.OfStage stage ∧ event.edge = .start

def stageEnds (events : List (Event α)) (stage : Stage) : List (Event α) :=
  (events.zipIdx.filter fun entry => EndsStage (events.take entry.2) entry.1 stage).map (·.1)

def Idle (before : List (Event α)) (event : Event α) : Prop :=
  event.kind = .restart ∧ (event.edge = .start ∨ runsAlone before = none)

theorem runsAlone_marker {event : Event α} (marks : event.isMarker) (before : List (Event α)) :
    runsAlone (before ++ [event]) =
      if event.isSingleThreadedStart then some event.stage else none := by
  simp [runsAlone,List.filter_append,marks]

theorem runsAlone_other {event : Event α} (other : event.isMarker = false)
    (before : List (Event α)) : runsAlone (before ++ [event]) = runsAlone before := by
  simp [runsAlone,List.filter_append,other]

theorem stageStarts_concat (events : List (Event α)) (event : Event α) (stage : Stage) :
    stageStarts (events ++ [event]) stage =
      stageStarts events stage ++ if event.OfStage stage ∧ event.edge = .start then [event] else [] := by
  rw [stageStarts,List.filter_append]
  by_cases starts : event.OfStage stage ∧ event.edge = .start <;> simp [stageStarts,starts]

theorem stageEnds_concat (events : List (Event α)) (event : Event α) (stage : Stage) :
    stageEnds (events ++ [event]) stage =
      stageEnds events stage ++ if EndsStage events event stage then [event] else [] := by
  have earlier : events.zipIdx.filter
      (fun entry => EndsStage ((events ++ [event]).take entry.2) entry.1 stage) =
        events.zipIdx.filter fun entry => EndsStage (events.take entry.2) entry.1 stage := by
    refine List.filter_congr fun entry listed => ?_
    have inside : entry.2 < events.length := by
      simpa using List.snd_lt_of_mem_zipIdx listed
    rw [List.take_append_of_le_length (Nat.le_of_lt inside)]
  rw [stageEnds,List.zipIdx_append,List.filter_append,earlier,List.map_append]
  by_cases ends : EndsStage events event stage <;> simp [stageEnds,ends]

theorem stageStarts_of_runsAlone {before : List (Event α)} {stage : Stage}
    (alone : runsAlone before = some stage) : stageStarts before stage ≠ [] := by
  obtain ⟨marker,latest,starts⟩ := Option.bind_eq_some_iff.mp alone
  obtain ⟨single,same⟩ := Option.ite_none_right_eq_some.mp starts
  have listed := (List.mem_filter.mp (List.mem_of_getLast? latest)).1
  obtain ⟨edge,kind⟩ := Event.isSingleThreadedStart_iff.mp single
  have own : marker.OfStage stage :=
    ⟨by rcases kind with kind | kind <;> simp [kind],Option.some.inj same⟩
  exact List.ne_nil_of_mem (List.mem_filter.mpr ⟨listed,by simp [own,edge]⟩)

end History

namespace StageMarks
variable {α : Type}

def ofEdges (starts ends : List (Event α)) : Option (StageMarks α) :=
  if starts = [] ∧ ends = [] then .none
  else some ⟨.ofNat starts.length,.ofNat ends.length,starts.head?.map Event.reading,
    ends.getLast?.map Event.reading⟩

theorem ofEdges_getD (starts ends : List (Event α)) :
    (ofEdges starts ends).getD none =
      ⟨.ofNat starts.length,.ofNat ends.length,starts.head?.map Event.reading,
        ends.getLast?.map Event.reading⟩ := by
  unfold ofEdges
  split
  · rename_i nothing
    rw [nothing.1,nothing.2]
    rfl
  · rfl

theorem ofEdges_start (starts ends : List (Event α)) (start : Event α) :
    ofEdges (starts ++ [start]) ends =
      some (((ofEdges starts ends).getD none).addStart start.reading) := by
  rw [ofEdges_getD,ofEdges,if_neg (by simp)]
  cases starts <;> simp [addStart,UInt32.ofNat_add]

theorem ofEdges_end (starts ends : List (Event α)) (last : Event α) :
    ofEdges starts (ends ++ [last]) =
      some (((ofEdges starts ends).getD none).addEnd last.reading) := by
  rw [ofEdges_getD,ofEdges,if_neg (by simp)]
  simp [addEnd,UInt32.ofNat_add]

end StageMarks

namespace HeapScan
variable {α : Type}

structure Tells (scan : HeapScan α) (events : List (Event α)) : Prop where
  alone : scan.alone = runsAlone events
  marked : ∀ stage,
    scan.marks.get? stage = StageMarks.ofEdges (stageStarts events stage) (stageEnds events stage)

theorem tells_nil : Tells (⟨∅,none⟩ : HeapScan α) [] := ⟨rfl,fun _ => rfl⟩

theorem Tells.advance_idle {scan : HeapScan α} {events : List (Event α)} (told : scan.Tells events)
    {event : Event α} (idle : Idle events event) : scan.advance event = scan := by
  obtain ⟨kind,starts | nothing⟩ := idle
  · simp [HeapScan.advance,kind,starts]
  · rw [HeapScan.advance,if_pos kind,told.alone,nothing]
    split <;> simp_all

theorem Tells.unmarked {scan : HeapScan α} {events : List (Event α)} (told : scan.Tells events)
    {event : Event α} (starts : ∀ stage, ¬ (event.OfStage stage ∧ event.edge = .start))
    (ends : ∀ stage, ¬ EndsStage events event stage) (stage : Stage) :
    scan.marks.get? stage = StageMarks.ofEdges (stageStarts (events ++ [event]) stage)
      (stageEnds (events ++ [event]) stage) := by
  rw [stageStarts_concat,stageEnds_concat,if_neg (starts stage),if_neg (ends stage),
    List.append_nil,List.append_nil]
  exact told.marked stage

theorem Tells.markStart {scan : HeapScan α} {events : List (Event α)} (told : scan.Tells events)
    {event : Event α} (own : event.kind ≠ .restart) (starts : event.edge = .start) (stage : Stage) :
    (scan.mark event.stage (·.addStart event.reading)).marks.get? stage =
      StageMarks.ofEdges (stageStarts (events ++ [event]) stage)
        (stageEnds (events ++ [event]) stage) := by
  have notEnd : ¬ EndsStage events event stage := fun ends => by cases starts.symm.trans ends.1
  rw [get?_mark,stageStarts_concat,stageEnds_concat,if_neg notEnd,List.append_nil]
  by_cases same : event.stage = stage
  · have starting : event.OfStage stage ∧ event.edge = .start := ⟨⟨own,same⟩,starts⟩
    subst same
    rw [if_pos rfl,if_pos starting,StageMarks.ofEdges_start,told.marked]
  · have other : ¬ (event.OfStage stage ∧ event.edge = .start) := fun starting => same starting.1.2
    rw [if_neg same,if_neg other,List.append_nil,told.marked]

theorem Tells.markEnd {scan : HeapScan α} {events : List (Event α)} (told : scan.Tells events)
    {event : Event α} {ended : Stage} (ends : ∀ stage, EndsStage events event stage ↔ ended = stage)
    (stage : Stage) :
    (scan.mark ended (·.addEnd event.reading)).marks.get? stage =
      StageMarks.ofEdges (stageStarts (events ++ [event]) stage)
        (stageEnds (events ++ [event]) stage) := by
  have finishes := ((ends ended).mpr rfl).1
  have notStart : ¬ (event.OfStage stage ∧ event.edge = .start) := fun starts => by
    cases finishes.symm.trans starts.2
  rw [get?_mark,stageStarts_concat,stageEnds_concat,if_neg notStart,List.append_nil]
  by_cases same : ended = stage
  · rw [if_pos same,if_pos ((ends stage).mpr same),StageMarks.ofEdges_end,same,told.marked]
  · rw [if_neg same,if_neg fun ending => same ((ends stage).mp ending),List.append_nil,told.marked]

theorem Tells.advance_restart {scan : HeapScan α} {events : List (Event α)}
    (told : scan.Tells events) {event : Event α} (restart : event.kind = .restart) :
    (scan.advance event).Tells (events ++ [event]) := by
  have foreign (stage : Stage) : ¬ (event.OfStage stage ∧ event.edge = .start) :=
    fun starts => starts.1.1 restart
  cases edge : event.edge with
  | start =>
    have other : event.isMarker = false := by
      simp [Event.isMarker,Event.isSingleThreadedStart,restart,edge]
    rw [told.advance_idle ⟨restart,.inl edge⟩]
    refine ⟨told.alone.trans (runsAlone_other other events).symm,told.unmarked foreign ?_⟩
    intro stage ends
    cases edge.symm.trans ends.1
  | finish =>
    have marks : event.isMarker := by simp [Event.isMarker,restart,edge]
    have notStart : event.isSingleThreadedStart = false := by
      simp [Event.isSingleThreadedStart,edge]
    have free : runsAlone (events ++ [event]) = none := by
      rw [runsAlone_marker marks,notStart]
      rfl
    cases alone : runsAlone events with
    | none =>
      rw [told.advance_idle ⟨restart,.inr alone⟩]
      refine ⟨told.alone.trans (alone.trans free.symm),told.unmarked foreign ?_⟩
      rintro stage ⟨_,own | ⟨_,running⟩⟩
      · exact own.1 restart
      · cases alone.symm.trans running
    | some ended =>
      have ends (stage : Stage) : EndsStage events event stage ↔ ended = stage := by
        simp [EndsStage,edge,Event.OfStage,restart,alone]
      have closed : scan.advance event =
          { scan.mark ended (·.addEnd event.reading) with alone := none } := by
        simp [HeapScan.advance,restart,edge,told.alone,alone]
      rw [closed]
      exact ⟨free.symm,told.markEnd ends⟩

theorem Tells.advance_own {scan : HeapScan α} {events : List (Event α)} (told : scan.Tells events)
    {event : Event α} (own : event.kind ≠ .restart) :
    (scan.advance event).Tells (events ++ [event]) := by
  cases edge : event.edge with
  | start =>
    have marked := told.markStart own edge
    by_cases single : event.isSingleThreadedStart
    · have marks : event.isMarker := by simp [Event.isMarker,single]
      rw [advance_aloneStart single]
      exact ⟨by rw [runsAlone_marker marks,if_pos single],marked⟩
    · have other : event.isMarker = false := by simp [Event.isMarker,single,own]
      have joined : scan.advance event = scan.mark event.stage (·.addStart event.reading) := by
        simp [HeapScan.advance,own,edge,single]
      rw [joined]
      exact ⟨told.alone.trans (runsAlone_other other events).symm,marked⟩
  | finish =>
    have other : event.isMarker = false := by
      simp [Event.isMarker,Event.isSingleThreadedStart,own,edge]
    have ends (stage : Stage) : EndsStage events event stage ↔ event.stage = stage := by
      simp [EndsStage,edge,Event.OfStage,own]
    have ended : scan.advance event = scan.mark event.stage (·.addEnd event.reading) := by
      simp [HeapScan.advance,own,edge]
    rw [ended]
    exact ⟨told.alone.trans (runsAlone_other other events).symm,told.markEnd ends⟩

-- By induction from the end of the list, as the scan and the history both grow there.
theorem tells (events : List (Event α)) :
    (events.foldl HeapScan.advance ⟨∅,none⟩).Tells events := by
  induction events using List.reverseRecOn with
  | nil => exact tells_nil
  | append_singleton events event ih =>
    rw [List.foldl_append]
    by_cases restart : event.kind = .restart
    · exact ih.advance_restart restart
    · exact ih.advance_own restart

end HeapScan

section Marks
variable {α : Type}

theorem stageMarks_get? (events : List (Event α)) (stage : Stage) :
    (stageMarks events).get? stage =
      StageMarks.ofEdges (stageStarts events stage) (stageEnds events stage) :=
  (HeapScan.tells events).marked stage

theorem stageMarks_idle {front : List (Event α)} {event : Event α} (idle : Idle front event)
    (back : List (Event α)) : stageMarks (front ++ event :: back) = stageMarks (front ++ back) := by
  unfold stageMarks
  rw [List.foldl_append,List.foldl_cons,(HeapScan.tells front).advance_idle idle,
    ← List.foldl_append]

theorem no_edges_iff {events : List (Event α)} {stage : Stage} :
    stageStarts events stage = [] ∧ stageEnds events stage = [] ↔
      ∀ event ∈ events, ¬ event.OfStage stage := by
  constructor
  · rintro ⟨starts,ends⟩ event listed own
    cases edge : event.edge with
    | start =>
      have started : event ∈ stageStarts events stage :=
        List.mem_filter.mpr ⟨listed,by simp [own,edge]⟩
      simp [starts] at started
    | finish =>
      obtain ⟨index,inside,rfl⟩ := List.mem_iff_getElem.mp listed
      have ended : events[index] ∈ stageEnds events stage := by
        refine List.mem_map.mpr ⟨(events[index],index),List.mem_filter.mpr ⟨?_,?_⟩,rfl⟩
        · exact List.mem_zipIdx_iff_getElem?.mpr (List.getElem?_eq_getElem inside)
        · simp [EndsStage,edge,own]
      simp [ends] at ended
  · intro none
    have starts (before : List (Event α)) (within : ∀ event ∈ before, event ∈ events) :
        stageStarts before stage = [] := by
      refine List.filter_eq_nil_iff.mpr fun event listed => ?_
      simp [none event (within event listed)]
    refine ⟨starts events fun _ listed => listed,?_⟩
    refine List.map_eq_nil_iff.mpr (List.filter_eq_nil_iff.mpr fun entry listed ending => ?_)
    have member : entry.1 ∈ events :=
      List.mem_of_getElem? (List.mem_zipIdx_iff_getElem?.mp listed)
    rcases (of_decide_eq_true ending).2 with own | ⟨_,alone⟩
    · exact none entry.1 member own
    · exact stageStarts_of_runsAlone alone
        (starts _ fun event listed => List.mem_of_mem_take listed)

end Marks

theorem StageMarks.timing_keys {α : Type} [Scalar α] {config : Config α} {stage : Stage}
    {heap : HeapId} {marks : StageMarks α} {timing : StageTiming α}
    (timed : marks.timing config stage heap = .ok timing) :
    timing.stage = stage ∧ timing.heap = heap := by
  unfold StageMarks.timing at timed
  split at timed
  · split at timed
    · cases timed; exact ⟨rfl,rfl⟩
    · cases timed
  · cases timed; exact ⟨rfl,rfl⟩

structure TimesHistory {α : Type} [Scalar α] (events : List (Event α)) (stage : Stage)
    (heap : HeapId) (timing : StageTiming α) : Prop where
  ofStage : timing.stage = stage
  onHeap : timing.heap = heap
  starts : Counts timing.starts (stageStarts events stage).length
  ends : Counts timing.ends (stageEnds events stage).length
  start : timing.start = (stageStarts events stage).head?.map (·.time)
  finish : ∀ time, timing.finish = some time ↔ ∃ last,
    (stageEnds events stage).getLast? = some last ∧ last.time = time ∧
      ∀ start, timing.start = some start → Scalar.lt time start = false

def LackIdle {α : Type} (heaps others : List (HeapId × List (Event α))) : Prop :=
  ∃ before heap front event back after, Idle front event ∧
    heaps = before ++ (heap,front ++ event :: back) :: after ∧
    others = before ++ (heap,front ++ back) :: after

namespace StageTimeline
variable {α : Type} {heaps others : List (HeapId × List (Event α))}

theorem marks_cell_iff (distinct : (heaps.map (·.1)).Nodup) {stage : Stage} {heap : HeapId}
    {left : StageMarks α} :
    (marks heaps).cell stage heap = some left ↔ ∃ events, (heap,events) ∈ heaps ∧
      StageMarks.ofEdges (stageStarts events stage) (stageEnds events stage) = some left := by
  simp only [← stageMarks_get?]
  constructor
  · exact marks_cell
  · rintro ⟨events,listed,marked⟩
    rw [marks,SortedMap.cell_transpose,SortedMap.cell_eq_some_iff]
    refine ⟨stageMarks events,SortedMap.get?_ofList_of_mem ?_ ?_,marked⟩
    · simpa [Function.comp_def] using distinct
    · exact List.mem_map_of_mem (f := fun heap => (heap.1,stageMarks heap.2)) listed

variable [Scalar α] {config : Config α} {timeline : StageTimeline α}

theorem reconstruct_lacking (lack : LackIdle heaps others) :
    reconstruct config others = reconstruct config heaps := by
  obtain ⟨before,heap,front,event,back,after,idle,rfl,rfl⟩ := lack
  simp only [reconstruct,marks,List.map_append,List.map_cons,stageMarks_idle idle]

theorem cell_isSome_iff (distinct : (heaps.map (·.1)).Nodup)
    (built : reconstruct config heaps = .ok timeline) (stage : Stage) (heap : HeapId) :
    (SortedMap.cell timeline stage heap).isSome ↔
      ∃ events, (heap,events) ∈ heaps ∧ ∃ event ∈ events, event.OfStage stage := by
  have cells := congrArg Option.isSome (cell_reconstruct built stage heap)
  rw [Option.isSome_map,Option.isSome_map] at cells
  rw [← cells,Option.isSome_iff_exists]
  simp only [marks_cell_iff distinct]
  constructor
  · rintro ⟨left,events,listed,marked⟩
    refine ⟨events,listed,?_⟩
    by_contra none
    have nothing := no_edges_iff.mpr fun event member own => none ⟨event,member,own⟩
    rw [StageMarks.ofEdges,if_pos nothing] at marked
    cases marked
  · rintro ⟨events,listed,event,member,own⟩
    have edges : ¬ (stageStarts events stage = [] ∧ stageEnds events stage = []) :=
      fun nothing => no_edges_iff.mp nothing event member own
    exact ⟨_,events,listed,if_neg edges⟩

theorem cell_timesHistory (distinct : (heaps.map (·.1)).Nodup)
    (built : reconstruct config heaps = .ok timeline) {stage : Stage} {heap : HeapId}
    {events : List (Event α)} {timing : StageTiming α} (listed : (heap,events) ∈ heaps)
    (held : SortedMap.cell timeline stage heap = some timing) :
    TimesHistory events stage heap timing := by
  obtain ⟨others,marks,listed',marked,timed⟩ := cell_marks built held
  cases List.inj_on_of_nodup_map distinct listed listed' rfl
  have left := StageMarks.ofEdges_getD (stageStarts events stage) (stageEnds events stage)
  rw [← stageMarks_get?,marked,Option.getD_some] at left
  obtain ⟨stage',heap'⟩ := StageMarks.timing_keys timed
  obtain ⟨starts,ends,start,finish⟩ := StageMarks.timing_fields timed
  subst left
  have started : Counts timing.starts (stageStarts events stage).length := by
    rw [starts]
    exact counts_ofNat _
  have ended : Counts timing.ends (stageEnds events stage).length := by
    rw [ends]
    exact counts_ofNat _
  refine ⟨stage',heap',started,ended,start.trans (Option.map_map ..),fun time => ?_⟩
  rw [finish]
  refine Iff.trans mem_endAfter ?_
  simp only [Option.map_map,Option.mem_def,Option.map_eq_some_iff,Function.comp_apply]
  constructor
  · rintro ⟨⟨last,final,same⟩,notBefore⟩
    exact ⟨last,final,same,notBefore⟩
  · rintro ⟨last,final,same,notBefore⟩
    exact ⟨⟨last,final,same⟩,notBefore⟩

theorem timeline_tells_history (distinct : (heaps.map (·.1)).Nodup)
    (built : reconstruct config heaps = .ok timeline) :
    (∀ stage heap, (SortedMap.cell timeline stage heap).isSome ↔
      ∃ events, (heap,events) ∈ heaps ∧ ∃ event ∈ events, event.OfStage stage) ∧
    (∀ stage heap events timing, (heap,events) ∈ heaps →
      SortedMap.cell timeline stage heap = some timing → TimesHistory events stage heap timing) ∧
    ∀ others, LackIdle heaps others → reconstruct config others = .ok timeline :=
  ⟨cell_isSome_iff distinct built,
    fun _ _ _ _ listed held => cell_timesHistory distinct built listed held,
    fun _ lack => (reconstruct_lacking lack).trans built⟩

end StageTimeline

namespace Sample

def exactClocks : Config ℚ := ⟨.doneOnly,0,0⟩

def disordered : List (Event ℚ) := [
  join .finish .beginMarkPhase 1, lastJoin .done 2, restart .start 3,
  join .start .beginMarkPhase 4, restart .finish 6, restart .finish 7, lastJoin .done 8]

end Sample

theorem StageTimeline.timeline_tells_history_sample :
    ∃ timeline, reconstruct Sample.exactClocks [(1,Sample.trace), (0,Sample.disordered)] =
        .ok timeline ∧
      ∃ timing, SortedMap.cell timeline .done 0 = some timing ∧ timing.starts = 2 ∧
        timing.ends = 1 ∧ timing.start = some 2 ∧ timing.finish = some 6 := by
  obtain ⟨timeline,built,_⟩ := Sample.ran (fun _ => ())
    (show (reconstruct Sample.exactClocks
      [(1,Sample.trace), (0,Sample.disordered)]).toOption.map _ = some () by decide +kernel)
  obtain ⟨present,told,_⟩ := timeline_tells_history (by decide) built
  obtain ⟨timing,held⟩ := Option.isSome_iff_exists.mp ((present .done 0).mpr
    ⟨Sample.disordered,by simp,Sample.lastJoin .done 2,by decide,by decide⟩)
  have tells := told .done 0 Sample.disordered timing (by simp) held
  have start : timing.start = some 2 := tells.start.trans (by decide)
  refine ⟨timeline,built,timing,held,tells.starts.wrapped.trans (by decide),
    tells.ends.wrapped.trans (by decide),
    start,(tells.finish 6).mpr ⟨Sample.restart .finish 6,by decide,rfl,fun first begun => ?_⟩⟩
  cases start.symm.trans begun
  decide

end JoinTrace
