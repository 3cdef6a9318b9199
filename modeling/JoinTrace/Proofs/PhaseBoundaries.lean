import JoinTrace.Proofs.StageSpans

-- Where the phases of a timeline begin and end, told from the spans of their stages, and what
-- becomes of a boundary between two phases when the end on its one side is dropped.
namespace JoinTrace
open Scalar (Number)

namespace PhaseBounds
variable {α : Type}

def members (spans : StageSpans α) (table : PhaseTable) (phase : Phase) : List (StageSpan α) :=
  (table.stagesOf phase).filterMap spans.get?

def starts (members : List (StageSpan α)) : List α :=
  members.filterMap fun span => span.start.map (·.time)

def finishes (members : List (StageSpan α)) : List α :=
  members.filterMap fun span => span.finish.map (·.time)

theorem foldl_eitherOr (pick : α → α → α) (edge : StageSpan α → Option α)
    (members : List (StageSpan α)) (held : Option α) :
    members.foldl (fun held span => eitherOr pick held (edge span)) held =
      (members.filterMap edge).foldl (consider pick) held := by
  rw [List.foldl_filterMap]
  refine congrArg (fun step => members.foldl step held) (funext fun held => funext fun span => ?_)
  cases edge span <;> cases held <;> rfl

variable [Scalar α]

theorem foldl_absorb (members : List (StageSpan α)) (bounds : PhaseBounds α) :
    members.foldl absorb bounds =
      ⟨members.foldl (fun held span => eitherOr Scalar.min held (span.start.map (·.time))) bounds.start,
        members.foldl (fun held span => eitherOr Scalar.max held (span.finish.map (·.time)))
          bounds.finish⟩ := by
  induction members generalizing bounds with
  | nil => rfl
  | cons span rest ih => exact ih (bounds.absorb span)

theorem ofSpans?_eq (members : List (StageSpan α)) :
    ofSpans? members = if members = [] then none
      else some ⟨earliest (starts members),latest (finishes members)⟩ := by
  cases members with
  | nil => rfl
  | cons first rest =>
    simp only [ofSpans?,reduceCtorEq,if_false,foldl_absorb,foldl_eitherOr]
    rfl

variable (spans : StageSpans α) (table : PhaseTable)

theorem ofTable_get? (phase : Phase) :
    (ofTable spans table).get? phase = ofSpans? (members spans table phase) := by
  rw [ofTable,SortedMap.get?_filterMap,members,PhaseTable.stagesOf]
  cases table.stagesByPhase.get? phase <;> rfl

theorem finishOf_ofTable (phase : Phase) :
    finishOf (ofTable spans table) phase = latest (finishes (members spans table phase)) := by
  rw [finishOf,ofTable_get?,ofSpans?_eq]
  split
  next none => rw [none]; rfl
  next => rfl

theorem times_numbers {edge : StageSpan α → Option (TimeAndHeap α)} {members : List (StageSpan α)}
    (numbers : ∀ span ∈ members, ∀ found ∈ edge span, Number found.time) :
    ∀ time ∈ members.filterMap fun span => (edge span).map (·.time), Number time := by
  intro time member
  obtain ⟨span,listed,held⟩ := List.mem_filterMap.mp member
  obtain ⟨found,edged,rfl⟩ := Option.map_eq_some_iff.mp held
  exact numbers span listed found edged

def startOf : Phase → Option α
  | .plan => latest (finishes (members spans table .mark))
  | .sweep => latest (finishes (members spans table .plan))
  | phase => earliest (starts (members spans table phase))

def lastOf (pause : α) : Phase → Option α
  | .postGc => some pause
  | phase => latest (finishes (members spans table phase))

theorem startOf_plain {phase : Phase} (notPlan : phase ≠ .plan) (notSweep : phase ≠ .sweep) :
    startOf spans table phase = earliest (starts (members spans table phase)) := by
  cases phase <;> first | rfl | contradiction

theorem lastOf_plain {pause : α} {phase : Phase} (notPostGc : phase ≠ .postGc) :
    lastOf spans table pause phase = latest (finishes (members spans table phase)) := by
  cases phase <;> first | rfl | contradiction

end PhaseBounds

open PhaseBounds

theorem phaseTimings_get? {α : Type} [Scalar α] (spans : StageSpans α) (table : PhaseTable) (pause : α)
    (phase : Phase) :
    (phaseTimings spans table pause).get? phase = if members spans table phase = [] then none
      else some ⟨phase,startOf spans table phase,
        endAfter (startOf spans table phase) (lastOf spans table pause phase)⟩ := by
  rw [phaseTimings,SortedMap.get?_map,redefine,SortedMap.get?_map,ofTable_get?,ofSpans?_eq]
  by_cases nothing : members spans table phase = []
  · rw [if_pos nothing,if_pos nothing]
    rfl
  · rw [if_neg nothing,if_neg nothing]
    cases phase <;> simp only [Option.map_some,finishOf_ofTable] <;> rfl

namespace Sample

def unmarked : List (HeapId × List (Event Float)) := [
  (0,[edge .start .beginMarkPhase 5, edge .finish .scanSizedrefDone 1,
    edge .start .decideOnCompaction 6, edge .finish .decideOnCompaction 7])]

end Sample

namespace Timeline
variable {α : Type} [Scalar α] {config : Config α} {table : PhaseTable} {pause : α}
  {heaps : List (HeapId × List (Event α))} {timeline : Timeline α} {phase : Phase}

theorem phases_get? (built : reconstruct config table pause heaps = .ok timeline) (phase : Phase) :
    timeline.phases.get? phase = if members timeline.spans table phase = [] then none
      else some ⟨phase,startOf timeline.spans table phase,
        endAfter (startOf timeline.spans table phase) (lastOf timeline.spans table pause phase)⟩ := by
  rw [(reconstruct_parts built).2.2,phaseTimings_get?]

theorem phase_timing (built : reconstruct config table pause heaps = .ok timeline)
    {timing : PhaseTiming α} (held : timeline.phases.get? phase = some timing) :
    timing.start = startOf timeline.spans table phase ∧
      timing.finish = endAfter timing.start (lastOf timeline.spans table pause phase) := by
  rw [phases_get? built] at held
  split at held
  · cases held
  · cases held
    exact ⟨rfl,rfl⟩

theorem phase_present_iff (built : reconstruct config table pause heaps = .ok timeline) :
    (timeline.phases.get? phase).isSome ↔
      ∃ stage ∈ table.stagesOf phase, (timeline.spans.get? stage).isSome := by
  rw [phases_get? built,← not_iff_not]
  by_cases nothing : members timeline.spans table phase = []
  · simpa [nothing] using List.filterMap_eq_nil_iff.mp nothing
  · simpa [nothing] using fun absent => nothing (List.filterMap_eq_nil_iff.mpr absent)

theorem published_end_iff (built : reconstruct config table pause heaps = .ok timeline)
    (notPostGc : phase ≠ .postGc) :
    latest (finishes (members timeline.spans table phase)) =
        (timeline.phases.get? phase).bind (·.finish) ↔
      ∀ timing, timeline.phases.get? phase = some timing → ∀ s ∈ timing.start,
        ∀ f ∈ latest (finishes (members timeline.spans table phase)), Scalar.lt f s = false := by
  cases held : timeline.phases.get? phase with
  | none =>
    rw [phases_get? built] at held
    split at held
    next nothing => simp [nothing,finishes,latest]
    next => cases held
  | some timing =>
    obtain ⟨_,finish⟩ := phase_timing built held
    rw [lastOf_plain _ _ notPostGc] at finish
    simp only [Option.bind_some,finish,Option.some.injEq,forall_eq']
    cases ended : latest (finishes (members timeline.spans table phase)) with
    | none => simp [endAfter]
    | some f =>
      have kept : f ∈ endAfter timing.start (some f) ↔ _ := mem_endAfter
      rw [Option.mem_def,Option.mem_def] at kept
      simp only [true_and,Option.mem_def,Option.some.injEq,forall_eq'] at kept ⊢
      exact eq_comm.trans kept

-- Planning starts at the latest end of marking, and sweeping at that of planning, even where this
-- end is dropped for preceding the start of its own phase. The published boundaries join up unless
-- the later phase starts before the earlier one.
theorem boundary_joined_iff (built : reconstruct config table pause heaps = .ok timeline) :
    ∀ pair ∈ [(Phase.mark,Phase.plan), (Phase.plan,Phase.sweep)],
      ∀ later, timeline.phases.get? pair.2 = some later →
        later.start = latest (finishes (members timeline.spans table pair.1)) ∧
        (later.start = (timeline.phases.get? pair.1).bind (·.finish) ↔
          ∀ earlier, timeline.phases.get? pair.1 = some earlier →
            ∀ s ∈ earlier.start, ∀ f ∈ later.start, Scalar.lt f s = false) := by
  intro pair listed later held
  obtain ⟨start,notPostGc⟩ : later.start = latest (finishes (members timeline.spans table pair.1)) ∧
      pair.1 ≠ .postGc := by
    have begun := (phase_timing built held).1
    rcases List.mem_pair.mp listed with rfl | rfl
    · exact ⟨begun,by decide⟩
    · exact ⟨begun,by decide⟩
  rw [start]
  exact ⟨rfl,published_end_iff built notPostGc⟩

theorem plan_starts_at_dropped_end : ∃ timeline mark plan,
    reconstruct .standard .builtin 20 Sample.unmarked = .ok timeline ∧
    timeline.phases.get? .mark = some mark ∧ timeline.phases.get? .plan = some plan ∧
    mark.finish = none ∧ plan.start = some 1 := by
  obtain ⟨timeline,built,read⟩ := Sample.ran
    (fun timeline => (timeline.phases.get? .mark,timeline.phases.get? .plan))
    (show (reconstruct .standard .builtin 20 Sample.unmarked).toOption.map _ =
      some (some ⟨.mark,some 5,none⟩,some ⟨.plan,some 1,some 7⟩) by decide)
  obtain ⟨marked,planned⟩ := Prod.mk.inj read
  exact ⟨timeline,_,_,built,marked,planned,rfl,rfl⟩

theorem boundary_joined_iff_sample : ∃ timeline mark plan sweep,
    reconstruct .standard .builtin 20 Sample.partly = .ok timeline ∧
    timeline.phases.get? .mark = some mark ∧ timeline.phases.get? .plan = some plan ∧
    timeline.phases.get? .sweep = some sweep ∧
    plan.start = mark.finish ∧ sweep.start = plan.finish := by
  obtain ⟨timeline,built,read⟩ := Sample.ran (fun timeline => (timeline.phases.get? .mark,
      timeline.phases.get? .plan,timeline.phases.get? .sweep))
    (show (reconstruct .standard .builtin 20 Sample.partly).toOption.map _ =
      some (some ⟨.mark,some 2,some 6⟩,some ⟨.plan,some 6,some 8⟩,some ⟨.sweep,some 8,some 10⟩)
      by decide)
  obtain ⟨marked,read⟩ := Prod.mk.inj read
  obtain ⟨planned,swept⟩ := Prod.mk.inj read
  have joined := boundary_joined_iff built
  have plan := ((joined (.mark,.plan) List.mem_cons_self _ planned).2).mpr fun earlier held => by
    cases marked.symm.trans held
    decide
  have sweep := ((joined (.plan,.sweep) (.tail _ List.mem_cons_self) _ swept).2).mpr
    fun earlier held => by
      cases planned.symm.trans held
      decide
  rw [marked] at plan
  rw [planned] at sweep
  exact ⟨timeline,_,_,_,built,marked,planned,swept,plan,sweep⟩

-- What is published of an edge `last`: itself or nothing, as it comes after the start or not.
structure Published (start last finish : Option α) : Prop where
  kept : ∀ f, finish = some f ↔ last = some f ∧ ∀ s ∈ start, Scalar.lt f s = false
  dropped : finish = none ↔ last = none ∨ ∃ s ∈ start, ∃ f ∈ last, Scalar.lt f s

theorem published_endAfter (start last : Option α) : Published start last (endAfter start last) :=
  ⟨fun _ => mem_endAfter,endAfter_eq_none⟩

structure Arranged (table : PhaseTable) (pause : α) (timeline : Timeline α) : Prop where
  heapOrder : ∀ stage heap timing, SortedMap.cell timeline.stages stage heap = some timing →
    InOrder timing.start timing.finish
  spanned : timeline.spans.keys = timeline.stages.keys
  spanStart : ∀ stage row span, timeline.stages.get? stage = some row →
    timeline.spans.get? stage = some span →
      Foremost (Ahead Scalar.le) (StageSpan.edges row (·.start)) span.start
  spanFinish : ∀ stage row span, timeline.stages.get? stage = some row →
    timeline.spans.get? stage = some span →
      Foremost (Ahead fun x y => Scalar.le y x) (StageSpan.edges row (·.finish)) span.finish
  present : ∀ phase, (timeline.phases.get? phase).isSome ↔
    ∃ stage ∈ table.stagesOf phase, (timeline.spans.get? stage).isSome
  phaseOrder : ∀ phase timing, timeline.phases.get? phase = some timing →
    InOrder timing.start timing.finish
  phaseStart : ∀ phase timing, timeline.phases.get? phase = some timing → phase ≠ .plan →
    phase ≠ .sweep → Foremost (fun a b => Scalar.le a b) (starts (members timeline.spans table phase))
      timing.start
  phaseFinish : ∀ phase timing, timeline.phases.get? phase = some timing → phase ≠ .postGc →
    ∃ last, Foremost (fun a b => Scalar.le b a) (finishes (members timeline.spans table phase)) last ∧
      Published timing.start last timing.finish
  pauseFinish : ∀ timing, timeline.phases.get? .postGc = some timing →
    Published timing.start (some pause) timing.finish

section Arranged
variable [OrderedScalar α] (timed : Timed heaps)
  (built : reconstruct config table pause heaps = .ok timeline)
include timed built

theorem members_numbers (phase : Phase) :
    (∀ s ∈ starts (members timeline.spans table phase), Number s) ∧
      ∀ f ∈ finishes (members timeline.spans table phase), Number f := by
  have edges {span : StageSpan α} (member : span ∈ members timeline.spans table phase) :
      (∀ s ∈ span.start, Number s.time) ∧ ∀ f ∈ span.finish, Number f.time := by
    obtain ⟨stage,_,spanned⟩ := List.mem_filterMap.mp member
    obtain ⟨row,listed,_⟩ := Option.map_eq_some_iff.mp ((spans_get? built stage).symm.trans spanned)
    obtain ⟨first,last⟩ := span_foremost timed built listed spanned
    obtain ⟨begins,ends⟩ := edges_numbers timed built listed
    exact ⟨fun s start => begins s (first.mem start),fun f finish => ends f (last.mem finish)⟩
  exact ⟨times_numbers fun _ listed => (edges listed).1,times_numbers fun _ listed => (edges listed).2⟩

theorem members_foremost (phase : Phase) :
    Foremost (fun a b => Scalar.le a b) (starts (members timeline.spans table phase))
        (earliest (starts (members timeline.spans table phase))) ∧
      Foremost (fun a b => Scalar.le b a) (finishes (members timeline.spans table phase))
        (latest (finishes (members timeline.spans table phase))) := by
  obtain ⟨begins,ends⟩ := members_numbers timed built phase
  exact ⟨earliest_foremost begins,latest_foremost ends⟩

theorem boundary_numbers (phase : Phase) :
    (∀ s ∈ earliest (starts (members timeline.spans table phase)), Number s) ∧
      ∀ f ∈ latest (finishes (members timeline.spans table phase)), Number f := by
  obtain ⟨begins,ends⟩ := members_numbers timed built phase
  obtain ⟨first,last⟩ := members_foremost timed built phase
  exact ⟨fun s held => begins s (first.mem held),fun f held => ends f (last.mem held)⟩

theorem phase_inOrder (paused : Number pause) {timing : PhaseTiming α}
    (held : timeline.phases.get? phase = some timing) : InOrder timing.start timing.finish := by
  obtain ⟨start,finish⟩ := phase_timing built held
  have bounds := boundary_numbers timed built
  rw [finish]
  refine inOrder_endAfter ?_ ?_
  · rw [start]
    -- Two phases start where another one's spans end.
    cases phase with
    | plan => exact (bounds .mark).2
    | sweep => exact (bounds .plan).2
    | init | mark | relocate | compact | heapVerify | postGc => exact (bounds _).1
  · cases phase with
    | postGc => exact fun _ same => Option.some.inj same ▸ paused
    | init | mark | plan | relocate | compact | sweep | heapVerify => exact (bounds _).2

theorem reconstruct_arranged (paused : Number pause) : Arranged table pause timeline where
  heapOrder _ _ _ := StageTimeline.cell_inOrder timed (reconstruct_parts built).1
  spanned := by
    rw [(reconstruct_parts built).2.1]
    exact List.map_map
  spanStart _ _ _ listed spanned := (span_foremost timed built listed spanned).1
  spanFinish _ _ _ listed spanned := (span_foremost timed built listed spanned).2
  present _ := phase_present_iff built
  phaseOrder _ _ := phase_inOrder timed built paused
  phaseStart phase timing held notPlan notSweep := by
    rw [(phase_timing built held).1,startOf_plain _ _ notPlan notSweep]
    exact (members_foremost timed built phase).1
  phaseFinish phase timing held notPostGc := by
    obtain ⟨_,finish⟩ := phase_timing built held
    rw [finish,lastOf_plain _ _ notPostGc]
    exact ⟨_,(members_foremost timed built phase).2,published_endAfter ..⟩
  pauseFinish timing held := by
    rw [(phase_timing built held).2]
    exact published_endAfter ..

end Arranged

theorem reconstruct_arranged_sample : Timed Sample.partly ∧ Number (20 : Float) ∧ ∃ timeline timing,
    reconstruct .standard .builtin 20 Sample.partly = .ok timeline ∧ Arranged .builtin 20 timeline ∧
    (timeline.spans.get? .done).bind (·.finish) = none ∧
    timeline.phases.get? .postGc = some timing ∧ timing.start = some 11 ∧ timing.finish = some 20 ∧
    InOrder timing.start timing.finish := by
  have timed : Timed Sample.partly := by decide
  have paused : Number (20 : Float) := by decide
  obtain ⟨timeline,built,read⟩ := Sample.ran
    (fun timeline => ((timeline.spans.get? .done).bind (·.finish),timeline.phases.get? .postGc))
    (show (reconstruct .standard .builtin 20 Sample.partly).toOption.map _ =
      some (none,some ⟨.postGc,some 11,some 20⟩) by decide)
  obtain ⟨endless,ended⟩ := Prod.mk.inj read
  have arranged := reconstruct_arranged timed built paused
  exact ⟨timed,paused,timeline,_,built,arranged,endless,ended,rfl,rfl,
    arranged.phaseOrder _ _ ended⟩

end Timeline

end JoinTrace
