import JoinTrace.Proofs.Foremost
import JoinTrace.Proofs.TimelineReplay
import JoinTrace.Timeline

-- The edges that a timeline publishes: a stage's on one heap, in order, and of these the earliest
-- start and the latest end over all heaps, which may be in no order.
namespace JoinTrace
open Scalar (Number)

namespace StageMarks
variable {α : Type} {holds : Reading α → Prop} {marks : StageMarks α}

structure All (holds : Reading α → Prop) (marks : StageMarks α) : Prop where
  first : ∀ reading ∈ marks.firstStart, holds reading
  last : ∀ reading ∈ marks.lastEnd, holds reading

theorem all_none : All holds none := ⟨by simp [none],by simp [none]⟩

theorem All.addStart {reading : Reading α} (kept : marks.All holds) (read : holds reading) :
    (marks.addStart reading).All holds := by
  obtain ⟨_,_,begun,_⟩ := marks
  refine ⟨fun first held => ?_,kept.last⟩
  cases begun with
  | none =>
    cases held
    exact read
  | some earlier =>
    cases held
    exact kept.first _ rfl

theorem All.addEnd {reading : Reading α} (kept : marks.All holds) (read : holds reading) :
    (marks.addEnd reading).All holds := by
  refine ⟨kept.first,fun last held => ?_⟩
  cases held
  exact read

end StageMarks

namespace HeapScan
variable {α : Type} {holds : Reading α → Prop} {scan : HeapScan α}

def All (holds : Reading α → Prop) (scan : HeapScan α) : Prop :=
  ∀ stage marks, scan.marks.get? stage = some marks → marks.All holds

theorem All.mark (kept : scan.All holds) {change : StageMarks α → StageMarks α}
    (keeps : ∀ marks, marks.All holds → (change marks).All holds) (stage : Stage) :
    (scan.mark stage change).All holds := by
  intro other marks held
  rw [get?_mark] at held
  split at held
  · cases held
    refine keeps _ ?_
    cases found : scan.marks.get? stage with
    | none => exact StageMarks.all_none
    | some earlier => exact kept stage earlier found
  · exact kept other marks held

theorem All.advance (kept : scan.All holds) {event : Event α} (read : holds event.reading) :
    (scan.advance event).All holds := by
  have starts := kept.mark (fun _ all => all.addStart read)
  have ends := kept.mark (fun _ all => all.addEnd read)
  unfold HeapScan.advance
  split
  · split
    · exact ends _
    · exact kept
  · split
    · dsimp only
      split
      · exact starts _
      · exact starts _
    · exact ends _

end HeapScan

theorem stageMarks_all {α : Type} {holds : Reading α → Prop} {events : List (Event α)}
    (read : ∀ event ∈ events, holds event.reading) {stage : Stage} {marks : StageMarks α}
    (marked : (stageMarks events).get? stage = some marks) : marks.All holds := by
  have kept (scan : HeapScan α) (before : scan.All holds) :
      (events.foldl HeapScan.advance scan).All holds := by
    clear marked
    induction events generalizing scan with
    | nil => exact before
    | cons event rest ih =>
      obtain ⟨first,later⟩ := List.forall_mem_cons.mp read
      exact ih later _ (before.advance first)
  exact kept ⟨∅,none⟩ (fun _ _ held => nomatch held) stage marks marked

namespace StageTimeline
variable {α : Type}

theorem marks_cell {heaps : List (HeapId × List (Event α))} {stage : Stage} {heap : HeapId}
    {left : StageMarks α} (marked : (marks heaps).cell stage heap = some left) :
    ∃ events, (heap,events) ∈ heaps ∧ (stageMarks events).get? stage = some left := by
  rw [marks,SortedMap.cell_transpose,SortedMap.cell_eq_some_iff] at marked
  obtain ⟨scanned,found,left⟩ := marked
  obtain ⟨⟨_,events⟩,listed,same⟩ := List.mem_map.mp (SortedMap.mem_of_get?_ofList found)
  cases same
  exact ⟨events,listed,left⟩

variable [Scalar α]

theorem cell_marks {config : Config α} {heaps : List (HeapId × List (Event α))}
    {timeline : StageTimeline α} (built : reconstruct config heaps = .ok timeline) {stage : Stage}
    {heap : HeapId} {timing : StageTiming α} (held : SortedMap.cell timeline stage heap = some timing) :
    ∃ events marks, (heap,events) ∈ heaps ∧ (stageMarks events).get? stage = some marks ∧
      marks.timing config stage heap = .ok timing := by
  have cells := cell_reconstruct built stage heap
  rw [held,Option.map_some,Option.map_eq_some_iff] at cells
  obtain ⟨marks,left,timed⟩ := cells
  obtain ⟨events,listed,marked⟩ := marks_cell left
  exact ⟨events,marks,listed,marked,timed⟩

end StageTimeline

section Edges
variable {α : Type} [Scalar α]

def InOrder (start finish : Option α) : Prop := ∀ s ∈ start, ∀ f ∈ finish, Scalar.le s f

theorem mem_endAfter {start finish : Option α} {f : α} :
    f ∈ endAfter start finish ↔ f ∈ finish ∧ ∀ s ∈ start, Scalar.lt f s = false := by
  cases start with
  | none => simp [endAfter]
  | some s =>
    cases finish with
    | none => simp [endAfter]
    | some last => grind [endAfter]

theorem endAfter_eq_none {start finish : Option α} :
    endAfter start finish = none ↔
      finish = none ∨ ∃ s ∈ start, ∃ f ∈ finish, Scalar.lt f s := by
  cases start with
  | none => simp [endAfter]
  | some s =>
    cases finish with
    | none => simp [endAfter]
    | some last => simp [endAfter]

variable [OrderedScalar α]

theorem inOrder_endAfter {start finish : Option α} (begun : ∀ s ∈ start, Number s)
    (ended : ∀ f ∈ finish, Number f) : InOrder start (endAfter start finish) := by
  intro s starts f ends
  obtain ⟨finishes,notBefore⟩ := mem_endAfter.mp ends
  exact (OrderedScalar.not_lt (ended f finishes) (begun s starts)).mp (notBefore s starts)

end Edges

def Timed {α : Type} [Scalar α] (heaps : List (HeapId × List (Event α))) : Prop :=
  ∀ heap ∈ heaps, ∀ event ∈ heap.2, Number event.time

instance {α : Type} [Scalar α] (heaps : List (HeapId × List (Event α))) : Decidable (Timed heaps) :=
  inferInstanceAs (Decidable (∀ heap ∈ heaps, ∀ event ∈ heap.2, Number event.time))

namespace StageTimeline
variable {α : Type} [Scalar α] {config : Config α} {heaps : List (HeapId × List (Event α))}
  {timeline : StageTimeline α} {stage : Stage} {heap : HeapId} {timing : StageTiming α}

theorem cell_edges (timed : Timed heaps) (built : reconstruct config heaps = .ok timeline)
    (held : SortedMap.cell timeline stage heap = some timing) :
    ∃ last, timing.finish = endAfter timing.start last ∧ (∀ s ∈ timing.start, Number s) ∧
      ∀ f ∈ last, Number f := by
  obtain ⟨events,marks,listed,marked,timings⟩ := cell_marks built held
  obtain ⟨_,_,start,finish⟩ := StageMarks.timing_fields timings
  have numbers : marks.All fun reading => Number reading.time := stageMarks_all (timed _ listed) marked
  refine ⟨_,finish,fun s starts => ?_,fun f ends => ?_⟩
  · rw [start] at starts
    obtain ⟨reading,first,rfl⟩ := Option.map_eq_some_iff.mp starts
    exact numbers.first reading first
  · obtain ⟨reading,last,rfl⟩ := Option.map_eq_some_iff.mp ends
    exact numbers.last reading last

theorem cell_numbers (timed : Timed heaps) (built : reconstruct config heaps = .ok timeline)
    (held : SortedMap.cell timeline stage heap = some timing) :
    (∀ s ∈ timing.start, Number s) ∧ ∀ f ∈ timing.finish, Number f := by
  obtain ⟨last,finish,starts,ends⟩ := cell_edges timed built held
  refine ⟨starts,fun f published => ?_⟩
  rw [finish] at published
  exact ends f (mem_endAfter.mp published).1

theorem cell_inOrder [OrderedScalar α] (timed : Timed heaps)
    (built : reconstruct config heaps = .ok timeline)
    (held : SortedMap.cell timeline stage heap = some timing) :
    InOrder timing.start timing.finish := by
  obtain ⟨last,finish,starts,ends⟩ := cell_edges timed built held
  rw [finish]
  exact inOrder_endAfter starts ends

end StageTimeline

-- A way along the clock: `notAfter` lets equal times pass, `better` does not.
structure Direction {α : Type} [Scalar α] (notAfter better : α → α → Bool) : Prop where
  trans {x y z : α} : notAfter x y → notAfter y z → notAfter x z
  total {x y : α} : Number x → Number y → notAfter x y ∨ notAfter y x
  strict {x y : α} : better x y ↔ notAfter x y ∧ ¬ notAfter y x
  tie {x y : α} : Scalar.eq x y ↔ notAfter x y ∧ notAfter y x

def Ahead {α : Type} [Scalar α] (notAfter : α → α → Bool) (a b : TimeAndHeap α) : Prop :=
  notAfter a.time b.time ∧ (Scalar.eq a.time b.time → a.heap ≤ b.heap)

namespace Direction
variable {α : Type} [Scalar α]

theorem forwards [OrderedScalar α] : Direction (α := α) Scalar.le Scalar.lt :=
  ⟨OrderedScalar.le_trans,OrderedScalar.le_total,OrderedScalar.lt_iff,OrderedScalar.eq_iff⟩

theorem backwards [OrderedScalar α] :
    Direction (α := α) (fun x y => Scalar.le y x) (fun x y => Scalar.lt y x) where
  trans near far := OrderedScalar.le_trans far near
  total first second := OrderedScalar.le_total second first
  strict := OrderedScalar.lt_iff
  tie := OrderedScalar.eq_iff.trans and_comm

variable {notAfter better : α → α → Bool} (direction : Direction notAfter better)
include direction

theorem ahead_trans {a b c : TimeAndHeap α} (first : Ahead notAfter a b)
    (second : Ahead notAfter b c) : Ahead notAfter a c := by
  refine ⟨direction.trans first.1 second.1,fun equal => ?_⟩
  have back := (direction.tie.mp equal).2
  have near := direction.tie.mpr ⟨first.1,direction.trans second.1 back⟩
  have far := direction.tie.mpr ⟨second.1,direction.trans back first.1⟩
  exact UInt32.le_trans (first.2 near) (second.2 far)

theorem ahead_refl {a : TimeAndHeap α} (number : Number a.time) : Ahead notAfter a a :=
  ⟨(direction.total number number).elim id id,fun _ => UInt32.le_refl _⟩

end Direction

namespace StageSpan
variable {α : Type}

def edges (row : SortedMap HeapId (StageTiming α)) (edge : StageTiming α → Option α) :
    List (TimeAndHeap α) :=
  row.entries.filterMap fun entry => (edge entry.2).map (⟨·,entry.1⟩)

theorem mem_edges {row : SortedMap HeapId (StageTiming α)} {edge : StageTiming α → Option α}
    {found : TimeAndHeap α} :
    found ∈ edges row edge ↔ ∃ timing, row.get? found.heap = some timing ∧
      edge timing = some found.time := by
  simp only [edges,List.mem_filterMap,Option.map_eq_some_iff,SortedMap.get?_eq_some_iff]
  constructor
  · rintro ⟨entry,listed,time,held,rfl⟩
    exact ⟨entry.2,listed,held⟩
  · rintro ⟨timing,listed,held⟩
    exact ⟨_,listed,_,held,rfl⟩

theorem edges_ascend (row : SortedMap HeapId (StageTiming α)) (edge : StageTiming α → Option α) :
    (edges row edge).Pairwise fun a b => a.heap ≤ b.heap := by
  refine (List.pairwise_map.mp row.ordered).filterMap _ ?_
  intro entry next lower a first b second
  obtain ⟨_,_,rfl⟩ := Option.map_eq_some_iff.mp first
  obtain ⟨_,_,rfl⟩ := Option.map_eq_some_iff.mp second
  exact UInt32.le_of_lt lower

def prefer (better : α → α → Bool) (held next : TimeAndHeap α) : TimeAndHeap α :=
  if better next.time held.time then next else held

theorem foldl_keep (better : α → α → Bool) (row : SortedMap HeapId (StageTiming α))
    (edge : StageTiming α → Option α) (held : Option (TimeAndHeap α)) :
    row.entries.foldl (fun held entry => keep better held entry.1 (edge entry.2)) held =
      (edges row edge).foldl (consider (prefer better)) held := by
  rw [edges,List.foldl_filterMap]
  refine congrArg (fun step => row.entries.foldl step held) (funext fun held => funext fun entry => ?_)
  cases edge entry.2 with
  | none => rfl
  | some time =>
    cases held with
    | none => rfl
    | some best => simp only [keep,Option.map_some,consider,prefer,Option.elim_some]; split <;> rfl

variable [Scalar α]

-- Heaps come in ascending order, so that the one held in a tie is the lower one.
theorem prefer_right {notAfter better : α → α → Bool} (direction : Direction notAfter better)
    {held next : TimeAndHeap α} (first : Number held.time) (second : Number next.time)
    (ascend : held.heap ≤ next.heap) :
    prefer better held next = held ∧ Ahead notAfter held next ∨
      prefer better held next = next ∧ Ahead notAfter next held := by
  by_cases wins : better next.time held.time
  · obtain ⟨before,notAfter⟩ := direction.strict.mp wins
    exact .inr ⟨if_pos wins,before,fun equal => absurd (direction.tie.mp equal).2 notAfter⟩
  · refine .inl ⟨if_neg wins,?_,fun _ => ascend⟩
    have total := direction.total first second
    rw [direction.strict] at wins
    tauto

theorem edges_scan {notAfter better : α → α → Bool} (direction : Direction notAfter better)
    {row : SortedMap HeapId (StageTiming α)} {edge : StageTiming α → Option α}
    (numbers : ∀ found ∈ edges row edge, Number found.time) :
    Foremost (Ahead notAfter) (edges row edge)
      ((edges row edge).foldl (consider (prefer better)) none) := by
  refine foremost_scan direction.ahead_trans
    (fun found member => direction.ahead_refl (numbers found member)) ?_
  exact (edges_ascend row edge).imp_of_mem fun first second ascend =>
    prefer_right direction (numbers _ first) (numbers _ second) ascend

theorem ofTimings_start (stage : Stage) (row : SortedMap HeapId (StageTiming α)) :
    (ofTimings stage row).start = (edges row (·.start)).foldl (consider (prefer Scalar.lt)) none := by
  rw [← foldl_keep]
  exact (List.foldl_hom StageSpan.start fun _ _ => rfl).symm

theorem ofTimings_finish (stage : Stage) (row : SortedMap HeapId (StageTiming α)) :
    (ofTimings stage row).finish =
      (edges row (·.finish)).foldl (consider (prefer fun t best => Scalar.lt best t)) none := by
  rw [← foldl_keep]
  exact (List.foldl_hom StageSpan.finish fun _ _ => rfl).symm

end StageSpan

namespace Timeline
variable {α : Type} [Scalar α] {config : Config α} {table : PhaseTable} {pause : α}
  {heaps : List (HeapId × List (Event α))} {timeline : Timeline α}

theorem reconstruct_parts (built : reconstruct config table pause heaps = .ok timeline) :
    StageTimeline.reconstruct config heaps = .ok timeline.stages ∧
      timeline.spans = timeline.stages.spans ∧
      timeline.phases = phaseTimings timeline.spans table pause := by
  unfold reconstruct at built
  split at built
  · cases built
  · rename_i stages ran
    cases built
    exact ⟨ran,rfl,rfl⟩

theorem spans_get? (built : reconstruct config table pause heaps = .ok timeline) (stage : Stage) :
    timeline.spans.get? stage = (timeline.stages.get? stage).map (StageSpan.ofTimings stage) := by
  rw [(reconstruct_parts built).2.1,StageTimeline.spans,SortedMap.get?_map]

theorem edges_numbers (timed : Timed heaps) (built : reconstruct config table pause heaps = .ok timeline)
    {stage : Stage} {row : SortedMap HeapId (StageTiming α)}
    (listed : timeline.stages.get? stage = some row) :
    (∀ found ∈ StageSpan.edges row (·.start), Number found.time) ∧
      ∀ found ∈ StageSpan.edges row (·.finish), Number found.time := by
  have numbers {heap : HeapId} {timing : StageTiming α} (held : row.get? heap = some timing) :=
    StageTimeline.cell_numbers timed (reconstruct_parts built).1
      (SortedMap.cell_eq_some_iff.mpr ⟨row,listed,held⟩)
  constructor
  · intro found member
    obtain ⟨timing,held,edge⟩ := StageSpan.mem_edges.mp member
    exact (numbers held).1 _ edge
  · intro found member
    obtain ⟨timing,held,edge⟩ := StageSpan.mem_edges.mp member
    exact (numbers held).2 _ edge

variable [OrderedScalar α]

theorem span_foremost (timed : Timed heaps) (built : reconstruct config table pause heaps = .ok timeline)
    {stage : Stage} {row : SortedMap HeapId (StageTiming α)} {span : StageSpan α}
    (listed : timeline.stages.get? stage = some row) (spanned : timeline.spans.get? stage = some span) :
    Foremost (Ahead Scalar.le) (StageSpan.edges row (·.start)) span.start ∧
      Foremost (Ahead fun x y => Scalar.le y x) (StageSpan.edges row (·.finish)) span.finish := by
  rw [spans_get? built,listed] at spanned
  cases spanned
  obtain ⟨starts,ends⟩ := edges_numbers timed built listed
  rw [StageSpan.ofTimings_start,StageSpan.ofTimings_finish]
  exact ⟨StageSpan.edges_scan .forwards starts,StageSpan.edges_scan .backwards ends⟩

-- The start and the end of a span may come from different heaps. They are in order as soon as any
-- published start is not after any published end, hence if one heap has published both.
theorem span_in_order_iff (timed : Timed heaps)
    (built : reconstruct config table pause heaps = .ok timeline) :
    ∀ stage row span, timeline.stages.get? stage = some row → timeline.spans.get? stage = some span →
      ∀ s ∈ span.start, ∀ f ∈ span.finish,
        (Scalar.le s.time f.time ↔ ∃ a ∈ StageSpan.edges row (·.start),
          ∃ b ∈ StageSpan.edges row (·.finish), Scalar.le a.time b.time) ∧
        ((∃ heap timing, row.get? heap = some timing ∧ timing.start.isSome ∧ timing.finish.isSome) →
          Scalar.le s.time f.time) := by
  intro stage row span listed spanned s starts f ends
  obtain ⟨first,last⟩ := span_foremost timed built listed spanned
  rw [starts] at first
  rw [ends] at last
  have between : (∃ a ∈ StageSpan.edges row (·.start), ∃ b ∈ StageSpan.edges row (·.finish),
      Scalar.le a.time b.time) → Scalar.le s.time f.time := by
    rintro ⟨a,begins,b,finishes,ordered⟩
    have early := (first.2 a begins).1
    have late := (last.2 b finishes).1
    exact OrderedScalar.le_trans early (OrderedScalar.le_trans ordered late)
  refine ⟨⟨fun ordered => ⟨s,first.1,f,last.1,ordered⟩,between⟩,?_⟩
  rintro ⟨heap,timing,held,begun,ended⟩
  obtain ⟨a,begins⟩ := Option.isSome_iff_exists.mp begun
  obtain ⟨b,finishes⟩ := Option.isSome_iff_exists.mp ended
  have cell := SortedMap.cell_eq_some_iff.mpr ⟨row,listed,held⟩
  have ordered := StageTimeline.cell_inOrder timed (reconstruct_parts built).1 cell a begins b finishes
  exact between ⟨⟨a,heap⟩,StageSpan.mem_edges.mpr ⟨timing,held,begins⟩,⟨b,heap⟩,
    StageSpan.mem_edges.mpr ⟨timing,held,finishes⟩,ordered⟩

end Timeline

namespace Sample

theorem ran {ε τ ν : Type} {run : Except ε τ} (read : τ → ν) {seen : ν}
    (shown : run.toOption.map read = some seen) : ∃ out, run = .ok out ∧ read out = seen := by
  cases run with
  | error e => cases shown
  | ok out => exact ⟨out,rfl,Option.some.inj shown⟩

def edge (edge : Edge) (stage : Stage) (time : Float) : Event Float := ⟨.join,edge,stage,0,time,none⟩

def partly : List (HeapId × List (Event Float)) := [
  (1,[edge .start .beginMarkPhase 2, edge .finish .beginMarkPhase 6,
    edge .start .decideOnCompaction 7, edge .finish .decideOnCompaction 8]),
  (0,[edge .start .beginMarkPhase 2, edge .finish .scanSizedrefDone 1]),
  (2,[edge .finish .done 5, edge .start .adjustHandleAgeSweep 9,
    edge .finish .adjustHandleAgeSweep 10, edge .start .done 11])]

def halves : List (HeapId × List (Event Float)) :=
  [(0,[edge .finish .beginMarkPhase 1]), (1,[edge .start .beginMarkPhase 5])]

end Sample

namespace Timeline

theorem span_inverted_across_heaps :
    Timed Sample.halves ∧ ∃ timeline span,
      reconstruct .standard .builtin 20 Sample.halves = .ok timeline ∧
      timeline.spans.get? .beginMarkPhase = some span ∧
      ∃ s ∈ span.start, ∃ f ∈ span.finish, Scalar.le s.time f.time = false := by
  obtain ⟨timeline,built,spanned⟩ := Sample.ran (fun timeline => timeline.spans.get? .beginMarkPhase)
    (show (reconstruct .standard .builtin 20 Sample.halves).toOption.map _ =
      some (some ⟨.beginMarkPhase,some ⟨5,1⟩,some ⟨1,0⟩⟩) by decide)
  exact ⟨by decide,timeline,_,built,spanned,_,rfl,_,rfl,by decide⟩

theorem span_in_order_iff_sample :
    Timed Sample.partly ∧ ∃ timeline, reconstruct .standard .builtin 20 Sample.partly = .ok timeline ∧
      ∃ row span s f, timeline.stages.get? .beginMarkPhase = some row ∧
        timeline.spans.get? .beginMarkPhase = some span ∧ s ∈ span.start ∧ f ∈ span.finish ∧
        Scalar.le s.time f.time := by
  have timed : Timed Sample.partly := by decide
  obtain ⟨timeline,built,read⟩ := Sample.ran
    (fun timeline => (timeline.spans.get? .beginMarkPhase,
      SortedMap.cell timeline.stages .beginMarkPhase 1))
    (show (reconstruct .standard .builtin 20 Sample.partly).toOption.map _ =
      some (some ⟨.beginMarkPhase,some ⟨2,0⟩,some ⟨6,1⟩⟩,
        some ⟨.beginMarkPhase,1,some 2,some 6,1,1⟩) by decide)
  obtain ⟨spanned,cell⟩ := Prod.mk.inj read
  obtain ⟨row,listed,held⟩ := SortedMap.cell_eq_some_iff.mp cell
  have both := span_in_order_iff timed built _ row _ listed spanned _ rfl _ rfl
  exact ⟨timed,timeline,built,row,_,_,_,listed,spanned,rfl,rfl,both.2 ⟨1,_,held,rfl,rfl⟩⟩

end Timeline
end JoinTrace
