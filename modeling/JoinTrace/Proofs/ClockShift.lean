import JoinTrace.Proofs.PhaseBoundaries
import JoinTrace.Proofs.ReportErrors
import JoinTrace.Proofs.Retiming

namespace JoinTrace
open SortedMap

variable {α : Type}

def Reading.retime (g : α → α) (reading : Reading α) : Reading α :=
  { reading with time := g reading.time }

def StageMarks.retime (g : α → α) (marks : StageMarks α) : StageMarks α :=
  { marks with
    firstStart := marks.firstStart.map (·.retime g)
    lastEnd := marks.lastEnd.map (·.retime g) }

def StageTiming.retime (g : α → α) (timing : StageTiming α) : StageTiming α :=
  { timing with start := timing.start.map g, finish := timing.finish.map g }

def TimeAndHeap.retime (g : α → α) (found : TimeAndHeap α) : TimeAndHeap α :=
  { found with time := g found.time }

def StageSpan.retime (g : α → α) (span : StageSpan α) : StageSpan α :=
  { span with start := span.start.map (·.retime g), finish := span.finish.map (·.retime g) }

def PhaseTiming.retime (g : α → α) (timing : PhaseTiming α) : PhaseTiming α :=
  { timing with start := timing.start.map g, finish := timing.finish.map g }

def Timeline.retime (g : α → α) (timeline : Timeline α) : Timeline α where
  stages := timeline.stages.map fun _ row => row.map fun _ => StageTiming.retime g
  spans := timeline.spans.map fun _ => StageSpan.retime g
  phases := timeline.phases.map fun _ => PhaseTiming.retime g

def Report.retime (g : α → α) (report : Report α) : Report α :=
  { report with timeline := report.timeline.retime g }

namespace StageMarks
variable (g : α → α)

theorem addStart_retime (marks : StageMarks α) (reading : Reading α) :
    (marks.addStart reading).retime g = (marks.retime g).addStart (reading.retime g) := by
  obtain ⟨starts,ends,first,last⟩ := marks
  cases first <;> rfl

theorem addEnd_retime (marks : StageMarks α) (reading : Reading α) :
    (marks.addEnd reading).retime g = (marks.retime g).addEnd (reading.retime g) := rfl

theorem upsert_retime (change change' : StageMarks α → StageMarks α)
    (agree : ∀ marks, (change marks).retime g = change' (marks.retime g))
    (table : SortedMap Stage (StageMarks α)) (stage : Stage) :
    (table.upsert stage fun found => change (found.getD .none)).map (fun _ => retime g) =
      (table.map fun _ => retime g).upsert stage fun found => change' (found.getD .none) := by
  apply map_upsert
  intro found
  cases found <;> exact agree _

end StageMarks

namespace HeapScan

def retime (g : α → α) (scan : HeapScan α) : HeapScan α :=
  { scan with marks := scan.marks.map fun _ => StageMarks.retime g }

theorem advance_retime (g : α → α) (scan : HeapScan α) (event : Event α) :
    (scan.advance event).retime g = (scan.retime g).advance (event.retime g) := by
  obtain ⟨marks,alone⟩ := scan
  obtain ⟨kind,edge,stage,heap,time,relative⟩ := event
  have started := StageMarks.upsert_retime g (·.addStart ⟨time,relative⟩)
    (·.addStart ⟨g time,relative⟩) (fun held => held.addStart_retime g _) marks
  have ended := StageMarks.upsert_retime g (·.addEnd ⟨time,relative⟩)
    (·.addEnd ⟨g time,relative⟩) (fun held => held.addEnd_retime g _) marks
  cases kind with
  | restart =>
    cases edge with
    | start => rfl
    | finish =>
      cases alone with
      | none => rfl
      | some running => exact congrArg (HeapScan.mk · none) (ended running)
  | join =>
    cases edge with
    | start => exact congrArg (HeapScan.mk · alone) (started stage)
    | finish => exact congrArg (HeapScan.mk · alone) (ended stage)
  | lastJoin | firstRJoin =>
    cases edge with
    | start => exact congrArg (HeapScan.mk · (some stage)) (started stage)
    | finish => exact congrArg (HeapScan.mk · alone) (ended stage)

end HeapScan

theorem stageMarks_retime (g : α → α) (events : List (Event α)) :
    stageMarks (events.map (·.retime g)) = (stageMarks events).map fun _ => StageMarks.retime g := by
  have scanned (scan : HeapScan α) :
      (events.map (·.retime g)).foldl HeapScan.advance (scan.retime g) =
        (events.foldl HeapScan.advance scan).retime g := by
    induction events generalizing scan with
    | nil => rfl
    | cons event rest ih => rw [List.map_cons,List.foldl_cons,← HeapScan.advance_retime,ih]; rfl
  exact congrArg HeapScan.marks (scanned ⟨∅,none⟩)

def retimed (g : α → α) (heaps : List (HeapId × List (Event α))) : List (HeapId × List (Event α)) :=
  heaps.map fun heap => (heap.1,heap.2.map (·.retime g))

namespace StageTimeline

theorem marks_retime (g : α → α) (heaps : List (HeapId × List (Event α))) :
    marks (retimed g heaps) =
      (marks heaps).map fun _ row => row.map fun _ => StageMarks.retime g := by
  unfold marks
  rw [map_transpose,map_ofList]
  simp only [retimed,List.map_map,Function.comp_def,stageMarks_retime]

end StageTimeline

theorem StageSpan.keep_retime {g : α → α} (better : α → α → Bool)
    (orders : ∀ x y, better (g x) (g y) = better x y) (held : Option (TimeAndHeap α))
    (heap : HeapId) (time : Option α) :
    keep better (held.map (·.retime g)) heap (time.map g) =
      (keep better held heap time).map (·.retime g) := by
  cases time with
  | none => rfl
  | some t =>
    cases held with
    | none => rfl
    | some best =>
      simp only [keep,Option.map_some,TimeAndHeap.retime,orders]
      split <;> rfl

theorem foldl_consider_map {g : α → α} (pick : α → α → α)
    (picks : ∀ x y, pick (g x) (g y) = g (pick x y)) (times : List α) :
    (times.map g).foldl (consider pick) none = (times.foldl (consider pick) none).map g := by
  have folded (held : Option α) : (times.map g).foldl (consider pick) (held.map g) =
      (times.foldl (consider pick) held).map g := by
    induction times generalizing held with
    | nil => rfl
    | cons time rest ih =>
      have considered : consider pick (held.map g) (g time) = (consider pick held time).map g := by
        cases held with
        | none => rfl
        | some best => exact congrArg some (picks best time)
      rw [List.map_cons,List.foldl_cons,considered,ih]
      rfl
  exact folded none

namespace PhaseBounds
variable (g : α → α)

theorem members_retime (spans : StageSpans α) (table : PhaseTable) (phase : Phase) :
    members (spans.map fun _ => StageSpan.retime g) table phase =
      (members spans table phase).map (StageSpan.retime g) := by
  simp only [members,get?_map,List.map_filterMap]

theorem starts_retime (members : List (StageSpan α)) :
    starts (members.map (StageSpan.retime g)) = (starts members).map g := by
  simp only [starts,List.filterMap_map,List.map_filterMap,Function.comp_def,StageSpan.retime,
    Option.map_map,TimeAndHeap.retime]

theorem finishes_retime (members : List (StageSpan α)) :
    finishes (members.map (StageSpan.retime g)) = (finishes members).map g := by
  simp only [finishes,List.filterMap_map,List.map_filterMap,Function.comp_def,StageSpan.retime,
    Option.map_map,TimeAndHeap.retime]

end PhaseBounds

section Shift
variable [Scalar α] {g : α → α} (shift : Shift g)
include shift

theorem endAfter_shift (start finish : Option α) :
    endAfter (start.map g) (finish.map g) = (endAfter start finish).map g := by
  cases start with
  | none => rfl
  | some s =>
    cases finish with
    | none => rfl
    | some f =>
      simp only [endAfter,Option.map_some,shift.order]
      split <;> rfl

theorem StageMarks.clockSpans_shift (marks : StageMarks α) :
    (marks.retime g).clockSpans = marks.clockSpans := by
  obtain ⟨starts,ends,first,last⟩ := marks
  rcases first with _ | ⟨start,_ | startBeside⟩
  · rfl
  · rfl
  · rcases last with _ | ⟨finish,_ | finishBeside⟩
    · rfl
    · rfl
    · simp only [clockSpans,retime,Reading.retime,Option.map_some,shift.distance]

-- The spans on both clocks stay, so that they agree or disagree as before.
theorem StageMarks.timing_shift (config : Config α) (stage : Stage) (heap : HeapId)
    (marks : StageMarks α) :
    timing config stage heap (marks.retime g) =
      (timing config stage heap marks).map (StageTiming.retime g) := by
  have start : (marks.retime g).firstStart.map (·.time) = (marks.firstStart.map (·.time)).map g := by
    simp [retime,Reading.retime,Function.comp_def]
  have last : (marks.retime g).lastEnd.map (·.time) = (marks.lastEnd.map (·.time)).map g := by
    simp [retime,Reading.retime,Function.comp_def]
  unfold timing
  simp only [clockSpans_shift shift,start,last,endAfter_shift shift]
  cases marks.clockSpans with
  | none => rfl
  | some spans =>
    by_cases agree : config.clocksAgree spans.1 spans.2
    · simp only [if_pos agree]
      rfl
    · simp only [if_neg agree]
      rfl

theorem StageTimeline.reconstruct_shift (config : Config α)
    (heaps : List (HeapId × List (Event α))) :
    reconstruct config (retimed g heaps) =
      (reconstruct config heaps).map (SortedMap.map fun _ row => row.map fun _ => StageTiming.retime g) := by
  have listed : (retimed g heaps).map (·.1) = heaps.map (·.1) := by
    simp [retimed,Function.comp_def]
  unfold reconstruct
  rw [listed,marks_retime]
  cases firstRepeat? (heaps.map (·.1)) with
  | some heap => rfl
  | none =>
    apply traverse_map
    intro stage row
    apply traverse_map
    intro heap marks
    exact StageMarks.timing_shift shift config stage heap marks

theorem StageSpan.ofTimings_shift (stage : Stage) (row : SortedMap HeapId (StageTiming α)) :
    ofTimings stage (row.map fun _ => StageTiming.retime g) = (ofTimings stage row).retime g := by
  have widened (span : StageSpan α) (heap : HeapId) (timing : StageTiming α) :
      (span.retime g).widen heap (timing.retime g) = (span.widen heap timing).retime g := by
    have first := keep_retime Scalar.lt shift.order span.start heap timing.start
    have last := keep_retime (fun t best => Scalar.lt best t) (fun t best => shift.order best t)
      span.finish heap timing.finish
    exact congrArg₂ (StageSpan.mk span.stage) first last
  have folded (entries : List (HeapId × StageTiming α)) (span : StageSpan α) :
      (entries.map fun entry => (entry.1,entry.2.retime g)).foldl
          (fun span entry => span.widen entry.1 entry.2) (span.retime g) =
        (entries.foldl (fun span entry => span.widen entry.1 entry.2) span).retime g := by
    induction entries generalizing span with
    | nil => rfl
    | cons entry rest ih => rw [List.map_cons,List.foldl_cons,widened,ih]; rfl
  exact folded row.entries ⟨stage,none,none⟩

theorem StageTimeline.spans_shift (timeline : StageTimeline α) :
    StageTimeline.spans (timeline.map fun _ row => row.map fun _ => StageTiming.retime g) =
      timeline.spans.map fun _ => StageSpan.retime g := by
  refine ext_get? fun stage => ?_
  simp only [spans,get?_map,Option.map_map,Function.comp_def,StageSpan.ofTimings_shift shift]

namespace PhaseBounds

theorem startOf_shift (spans : StageSpans α) (table : PhaseTable) (phase : Phase) :
    startOf (spans.map fun _ => StageSpan.retime g) table phase =
      (startOf spans table phase).map g := by
  have first := foldl_consider_map Scalar.min shift.earlier
  have last := foldl_consider_map Scalar.max shift.later
  unfold startOf
  split <;> simp only [members_retime,starts_retime,finishes_retime,earliest,latest,first,last]

theorem lastOf_shift (spans : StageSpans α) (table : PhaseTable) (pause : α) (phase : Phase) :
    lastOf (spans.map fun _ => StageSpan.retime g) table (g pause) phase =
      (lastOf spans table pause phase).map g := by
  have last := foldl_consider_map Scalar.max shift.later
  unfold lastOf
  split
  · rfl
  · simp only [members_retime,finishes_retime,latest,last]

end PhaseBounds

theorem phaseTimings_shift (spans : StageSpans α) (table : PhaseTable) (pause : α) :
    phaseTimings (spans.map fun _ => StageSpan.retime g) table (g pause) =
      (phaseTimings spans table pause).map fun _ => PhaseTiming.retime g := by
  refine ext_get? fun phase => ?_
  rw [get?_map,phaseTimings_get?,phaseTimings_get?]
  simp only [PhaseBounds.members_retime,List.map_eq_nil_iff,PhaseBounds.startOf_shift shift,
    PhaseBounds.lastOf_shift shift,endAfter_shift shift]
  split <;> rfl

theorem Timeline.reconstruct_shift (config : Config α) (table : PhaseTable) (pause : α)
    (heaps : List (HeapId × List (Event α))) :
    reconstruct config table (g pause) (retimed g heaps) =
      (reconstruct config table pause heaps).map (Timeline.retime g) := by
  unfold reconstruct
  rw [StageTimeline.reconstruct_shift shift]
  cases StageTimeline.reconstruct config heaps with
  | error e => rfl
  | ok stages =>
    simp only [Except.map,StageTimeline.spans_shift shift,phaseTimings_shift shift]
    rfl

theorem Reporter.report_retime (reporter : Reporter α) (cycle : Cycle α) :
    reporter.report (cycle.retime g) = (reporter.report cycle).map (Report.retime g) := by
  have lists : (cycle.retime g).eventLists = retimed g cycle.eventLists := by
    simp [Cycle.eventLists,Cycle.retime,HeapHistory.retime,retimed,Function.comp_def]
  have timed := Timeline.reconstruct_shift shift reporter.config reporter.table cycle.pause
    cycle.eventLists
  have paused : (cycle.retime g).pause = g cycle.pause := rfl
  unfold report
  rw [Statistics.compute_retime shift,CycleSummary.ofCycle_retime shift,lists,paused,timed]
  cases Statistics.compute cycle reporter.table reporter.config.policy with
  | error e => rfl
  | ok statistics =>
    cases Timeline.reconstruct reporter.config reporter.table cycle.pause cycle.eventLists with
    | error e => rfl
    | ok timeline =>
      cases CycleSummary.ofCycle cycle reporter.table reporter.config.policy with
      | error e => rfl
      | ok summary => rfl

end Shift

namespace Exact

-- Exact times lose nothing to a later or earlier start of the clock.
theorem shift_add (c : ℚ) : Shift (· + c) where
  distance x y := add_sub_add_right_eq_sub y x c
  order x y := by simp [Scalar.lt]
  earlier x y := by rw [min_eq,min_eq,min_add_add_right]
  later x y := by rw [max_eq,max_eq,max_add_add_right]

end Exact

namespace Reporter

theorem report_shift (table : PhaseTable) (config : Config ℚ) :
    ∃ reporter, make table config = .ok reporter ∧ ∀ (c : ℚ) (cycle : Cycle ℚ),
      (∀ e, reporter.report (cycle.retime (· + c)) = .error e ↔ reporter.report cycle = .error e) ∧
      ∀ report, reporter.report cycle = .ok report →
        ∃ later, reporter.report (cycle.retime (· + c)) = .ok later ∧
          later.gcNumber = report.gcNumber ∧ later.statistics = report.statistics ∧
          later.heapMetrics = report.heapMetrics ∧
          later.timeline = report.timeline.retime (· + c) := by
  refine ⟨_,make_ok table config,fun c cycle => ?_⟩
  rw [report_retime (Exact.shift_add c)]
  constructor
  · intro e
    cases report ⟨table,config,(JoinCatalog.builder table).catalog⟩ cycle <;> simp [Except.map]
  · intro report reported
    rw [reported]
    exact ⟨report.retime (· + c),rfl,rfl,rfl,rfl,rfl⟩

theorem report_shift_sample :
    ∃ reporter report later, make .builtin Sample.config = .ok reporter ∧
      reporter.report Sample.cycle = .ok report ∧
      reporter.report (Sample.cycle.retime (· + 100)) = .ok later ∧
      later.statistics = report.statistics ∧ later.heapMetrics = report.heapMetrics ∧
      later.timeline = report.timeline.retime (· + 100) ∧
      reporter.report (Sample.repeatedCycle.retime (· + 100)) = .error (.duplicateHeap 1) := by
  obtain ⟨reporter,made,told⟩ := report_shift .builtin Sample.config
  obtain ⟨report,reported⟩ := Sample.reported made
  obtain ⟨later,moved,_,statistics,metrics,timeline⟩ := (told 100 Sample.cycle).2 report reported
  have refused : reporter.report Sample.repeatedCycle = .error (.duplicateHeap 1) := by
    cases (make_ok _ _).symm.trans made
    exact report_error_iff.mpr (.inl (Statistics.compute_error_iff.mpr
      ⟨⟨_,rfl⟩,Sample.repeatedCycle_refused⟩))
  exact ⟨reporter,report,later,made,reported,moved,statistics,metrics,timeline,
    ((told 100 Sample.repeatedCycle).1 _).mpr refused⟩

end Reporter
end JoinTrace
