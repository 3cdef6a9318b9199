import JoinTrace.Proofs.Registration
import JoinTrace.Proofs.TimelineEdges

-- A timeline is built for all heaps at once, yet no heap has a part in the entries of another. Only
-- the refusals compare heaps: the one of a repeated heap, and the choice of the clocks to blame.
namespace JoinTrace

theorem firstRepeatAfter_eq_some {τ : Type} [BEq τ] [LawfulBEq τ] {seen items : List τ} {item : τ}
    (distinct : seen.Nodup) (found : firstRepeatAfter seen items = some item) :
    FirstRepeat (seen.reverse ++ items) item := by
  induction items generalizing seen with
  | nil => cases found
  | cons next rest ih =>
    unfold firstRepeatAfter at found
    split at found
    · rename_i present
      cases found
      exact ⟨seen.reverse,rest,rfl,List.nodup_reverse.mpr distinct,
        List.mem_reverse.mpr (List.contains_iff_mem.mp present)⟩
    · rename_i absent
      have fresh : next ∉ seen := mt List.contains_iff_mem.mpr absent
      have later := ih (List.nodup_cons.mpr ⟨fresh,distinct⟩) found
      rwa [List.reverse_cons,List.append_assoc] at later

theorem firstRepeat?_eq_some {τ : Type} [BEq τ] [LawfulBEq τ] {items : List τ} {item : τ}
    (found : firstRepeat? items = some item) : FirstRepeat items item :=
  firstRepeatAfter_eq_some List.nodup_nil found

section Clocks
variable {α : Type} [Scalar α]

def ClockedSpans (starts ends : List (Event α)) (absolute relative : α) : Prop :=
  ∃ first last started ended,
    starts.head? = some first ∧ first.relative = some started ∧
    ends.getLast? = some last ∧ last.relative = some ended ∧
    absolute = last.time - first.time ∧ relative = ended - started

def ClocksDisagree (config : Config α) (events : List (Event α)) (stage : Stage)
    (absolute relative : α) : Prop :=
  ClockedSpans (stageStarts events stage) (stageEnds events stage) absolute relative ∧
    config.clocksAgree absolute relative = false

theorem ClockedSpans.leaves {starts ends : List (Event α)} {absolute relative : α}
    (clocked : ClockedSpans starts ends absolute relative) :
    ∃ marks, StageMarks.ofEdges starts ends = some marks := by
  obtain ⟨first,_,_,_,head,_⟩ := clocked
  refine ⟨_,if_neg fun nothing => ?_⟩
  rw [nothing.1] at head
  cases head

def NotAfter (stage : Stage) (heap : HeapId) (later : Stage) (other : HeapId) : Prop :=
  Ranked.rank stage < Ranked.rank later ∨ stage = later ∧ heap ≤ other

structure FirstDisagreement (config : Config α) (heaps : List (HeapId × List (Event α)))
    (stage : Stage) (heap : HeapId) (absolute relative : α) : Prop where
  disagree : ∃ events, (heap,events) ∈ heaps ∧
    ClocksDisagree config events stage absolute relative
  first : ∀ other ∈ heaps, ∀ later absolute relative,
    ClocksDisagree config other.2 later absolute relative → NotAfter stage heap later other.1

namespace StageMarks

theorem clockSpans_ofEdges {starts ends : List (Event α)} {marks : StageMarks α}
    (left : ofEdges starts ends = some marks) {absolute relative : α} :
    marks.clockSpans = some (absolute,relative) ↔ ClockedSpans starts ends absolute relative := by
  have kept := ofEdges_getD starts ends
  rw [left,Option.getD_some] at kept
  subst kept
  unfold clockSpans
  constructor
  · intro spans
    split at spans
    · rename_i started _ ended begun ceased
      obtain ⟨first,head,read⟩ := Option.map_eq_some_iff.mp begun
      obtain ⟨last,final,read'⟩ := Option.map_eq_some_iff.mp ceased
      obtain ⟨rfl,beside⟩ := Reading.mk.inj read
      obtain ⟨rfl,beside'⟩ := Reading.mk.inj read'
      cases spans
      exact ⟨first,last,started,ended,head,beside,final,beside',rfl,rfl⟩
    · cases spans
  · rintro ⟨first,last,started,ended,head,read,final,read',rfl,rfl⟩
    simp [head,final,Event.reading,read,read']

theorem timing_error_iff {config : Config α} {stage : Stage} {heap : HeapId} {marks : StageMarks α}
    {e : AnalysisError α} :
    marks.timing config stage heap = .error e ↔ ∃ absolute relative,
      marks.clockSpans = some (absolute,relative) ∧ config.clocksAgree absolute relative = false ∧
        e = .clockMismatch stage heap absolute relative := by
  unfold timing
  cases marks.clockSpans with
  | none => simp
  | some spans =>
    obtain ⟨absolute,relative⟩ := spans
    dsimp only
    split
    · rename_i agree
      refine ⟨nofun,?_⟩
      rintro ⟨_,_,same,differ,_⟩
      cases same
      cases agree.symm.trans differ
    · rename_i differ
      constructor
      · intro refused
        cases refused
        exact ⟨absolute,relative,rfl,by simpa using differ,rfl⟩
      · rintro ⟨_,_,same,_,rfl⟩
        cases same
        rfl

end StageMarks
end Clocks

namespace StageTimeline
variable {α : Type} {config : Config α} {heaps : List (HeapId × List (Event α))}

theorem marks_cell_listed (distinct : (heaps.map (·.1)).Nodup) {heap : HeapId}
    {events : List (Event α)} (listed : (heap,events) ∈ heaps) (stage : Stage) :
    (marks heaps).cell stage heap =
      StageMarks.ofEdges (stageStarts events stage) (stageEnds events stage) := by
  refine Option.ext fun left => ?_
  rw [marks_cell_iff distinct]
  constructor
  · rintro ⟨others,listed',marked⟩
    cases List.inj_on_of_nodup_map distinct listed listed' rfl
    exact marked
  · exact fun marked => ⟨events,listed,marked⟩

variable [Scalar α]

theorem reconstruct_distinct (distinct : (heaps.map (·.1)).Nodup) :
    reconstruct config heaps =
      (marks heaps).traverse fun stage row => row.traverse (StageMarks.timing config stage) := by
  rw [reconstruct,firstRepeat?_eq_none.mpr distinct]

theorem timing_refused_iff (distinct : (heaps.map (·.1)).Nodup) {stage : Stage} {heap : HeapId}
    {e : AnalysisError α} :
    (∃ left, (marks heaps).cell stage heap = some left ∧ left.timing config stage heap = .error e) ↔
      ∃ events absolute relative, (heap,events) ∈ heaps ∧
        ClocksDisagree config events stage absolute relative ∧
        e = .clockMismatch stage heap absolute relative := by
  constructor
  · rintro ⟨left,marked,refused⟩
    obtain ⟨events,listed,made⟩ := (marks_cell_iff distinct).mp marked
    obtain ⟨absolute,relative,spans,differ,rfl⟩ := StageMarks.timing_error_iff.mp refused
    exact ⟨events,absolute,relative,listed,
      ⟨(StageMarks.clockSpans_ofEdges made).mp spans,differ⟩,rfl⟩
  · rintro ⟨events,absolute,relative,listed,⟨clocked,differ⟩,rfl⟩
    obtain ⟨left,made⟩ := clocked.leaves
    exact ⟨left,(marks_cell_iff distinct).mpr ⟨events,listed,made⟩,
      StageMarks.timing_error_iff.mpr ⟨absolute,relative,
        (StageMarks.clockSpans_ofEdges made).mpr clocked,differ,rfl⟩⟩

theorem reconstruct_error_iff (distinct : (heaps.map (·.1)).Nodup) {e : AnalysisError α} :
    reconstruct config heaps = .error e ↔ ∃ stage heap absolute relative,
      FirstDisagreement config heaps stage heap absolute relative ∧
        e = .clockMismatch stage heap absolute relative := by
  rw [reconstruct_distinct distinct,SortedMap.traverse_cells_error_iff]
  constructor
  · rintro ⟨stage,heap,left,marked,refused,before⟩
    obtain ⟨events,absolute,relative,listed,disagree,rfl⟩ :=
      (timing_refused_iff distinct).mp ⟨left,marked,refused⟩
    refine ⟨stage,heap,absolute,relative,⟨⟨events,listed,disagree⟩,?_⟩,rfl⟩
    rintro ⟨other,others⟩ listed' later absolute' relative' disagree'
    obtain ⟨left',marked',refused'⟩ :=
      (timing_refused_iff distinct).mpr ⟨others,absolute',relative',listed',disagree',rfl⟩
    by_contra earlier
    obtain ⟨result,done⟩ := before later other left' marked' (by
      simp only [NotAfter,not_or,not_and,Nat.not_lt,UInt32.not_le] at earlier
      rcases Nat.lt_or_eq_of_le earlier.1 with lower | same
      · exact .inl lower
      · have same := Ranked.rank_inj same
        exact .inr ⟨same,earlier.2 same.symm⟩)
    cases refused'.symm.trans done
  · rintro ⟨stage,heap,absolute,relative,⟨⟨events,listed,disagree⟩,first⟩,rfl⟩
    obtain ⟨left,marked,refused⟩ :=
      (timing_refused_iff distinct).mpr ⟨events,absolute,relative,listed,disagree,rfl⟩
    refine ⟨stage,heap,left,marked,refused,fun later other left' marked' lower => ?_⟩
    cases timed : left'.timing config later other with
    | ok timing => exact ⟨timing,rfl⟩
    | error e =>
      obtain ⟨others,absolute',relative',listed',disagree',_⟩ :=
        (timing_refused_iff distinct).mp ⟨left',marked',timed⟩
      have notAfter := first (other,others) listed' later absolute' relative' disagree'
      rcases lower with earlier | ⟨rfl,lower⟩
      · rcases notAfter with after | ⟨rfl,_⟩
        · exact absurd earlier (Nat.lt_asymm after)
        · exact absurd earlier (Nat.lt_irrefl _)
      · rcases notAfter with after | ⟨_,after⟩
        · exact absurd after (Nat.lt_irrefl _)
        · exact absurd lower (Nat.not_lt.mpr after)

-- Of several disagreements one is the first, so that the timeline is refused for any of them.
theorem reconstruct_ok_iff (distinct : (heaps.map (·.1)).Nodup) :
    (∃ timeline, reconstruct config heaps = .ok timeline) ↔
      ∀ heap ∈ heaps, ∀ stage absolute relative,
        ¬ ClocksDisagree config heap.2 stage absolute relative := by
  constructor
  · rintro ⟨timeline,built⟩ ⟨heap,events⟩ listed stage absolute relative disagree
    obtain ⟨left,marked,refused⟩ :=
      (timing_refused_iff distinct).mpr ⟨events,absolute,relative,listed,disagree,rfl⟩
    have cells := cell_reconstruct built stage heap
    rw [marked,Option.map_some,refused,eq_comm,Option.map_eq_some_iff] at cells
    obtain ⟨_,_,same⟩ := cells
    cases same
  · intro agree
    cases built : reconstruct config heaps with
    | ok timeline => exact ⟨timeline,rfl⟩
    | error e =>
      obtain ⟨stage,heap,absolute,relative,⟨⟨events,listed,disagree⟩,_⟩,_⟩ :=
        (reconstruct_error_iff distinct).mp built
      exact absurd disagree (agree (heap,events) listed stage absolute relative)

theorem reconstruct_alone (distinct : (heaps.map (·.1)).Nodup) {timeline : StageTimeline α}
    (built : reconstruct config heaps = .ok timeline) {heap : HeapId} {events : List (Event α)}
    (listed : (heap,events) ∈ heaps) :
    ∃ single, reconstruct config [(heap,events)] = .ok single ∧ ∀ stage,
      SortedMap.cell timeline stage heap = SortedMap.cell single stage heap := by
  have once : ([(heap,events)].map (·.1)).Nodup := List.nodup_singleton heap
  have agree := (reconstruct_ok_iff distinct).mp ⟨timeline,built⟩ (heap,events) listed
  obtain ⟨single,built'⟩ := (reconstruct_ok_iff once).mpr (List.forall_mem_singleton.mpr agree)
  refine ⟨single,built',fun stage => ?_⟩
  have whole := cell_reconstruct built stage heap
  have part := cell_reconstruct built' stage heap
  rw [marks_cell_listed distinct listed] at whole
  rw [marks_cell_listed once (List.mem_singleton_self _)] at part
  exact Option.map_injective (fun _ _ => Except.ok.inj) (whole.symm.trans part)

theorem heaps_stand_apart (config : Config α) (heaps : List (HeapId × List (Event α))) :
    (¬ (heaps.map (·.1)).Nodup → ∃ heap, FirstRepeat (heaps.map (·.1)) heap ∧
      reconstruct config heaps = .error (.duplicateHeap heap)) ∧
    ((heaps.map (·.1)).Nodup →
      (∀ e, reconstruct config heaps = .error e ↔ ∃ stage heap absolute relative,
        FirstDisagreement config heaps stage heap absolute relative ∧
          e = .clockMismatch stage heap absolute relative) ∧
      ((∃ timeline, reconstruct config heaps = .ok timeline) ↔
        ∀ heap ∈ heaps, ∀ stage absolute relative,
          ¬ ClocksDisagree config heap.2 stage absolute relative) ∧
      (∀ timeline, reconstruct config heaps = .ok timeline →
        ∀ heap events, (heap,events) ∈ heaps →
          ∃ single, reconstruct config [(heap,events)] = .ok single ∧ ∀ stage,
            SortedMap.cell timeline stage heap = SortedMap.cell single stage heap) ∧
      ∀ others, heaps.Perm others → reconstruct config others = reconstruct config heaps) := by
  refine ⟨fun repeated => ?_,fun distinct => ⟨fun e => reconstruct_error_iff distinct,
    reconstruct_ok_iff distinct,fun _ built _ _ listed => reconstruct_alone distinct built listed,
    fun others perm => (reconstruct_perm distinct perm config).symm⟩⟩
  cases found : firstRepeat? (heaps.map (·.1)) with
  | none => exact absurd (firstRepeat?_eq_none.mp found) repeated
  | some heap => exact ⟨heap,firstRepeat?_eq_some found,by rw [reconstruct,found]⟩

end StageTimeline

namespace Sample

def skewed : List (Event ℚ) := [
  ⟨.join,.start,.beginMarkPhase,0,1,some 1⟩, ⟨.join,.finish,.beginMarkPhase,0,5,some 6⟩]

end Sample

theorem StageTimeline.heaps_stand_apart_sample :
    reconstruct Sample.exactClocks [(3,Sample.skewed), (2,[]), (3,[])] =
      .error (.duplicateHeap 3) ∧
    FirstDisagreement Sample.exactClocks [(3,Sample.skewed), (2,Sample.skewed)]
      .beginMarkPhase 2 4 5 ∧
    ∃ timeline single,
      reconstruct Sample.exactClocks [(3,Sample.trace), (2,Sample.disordered)] = .ok timeline ∧
      reconstruct Sample.exactClocks [(2,Sample.disordered)] = .ok single ∧
      SortedMap.cell timeline .done 2 = SortedMap.cell single .done 2 := by
  obtain ⟨repeated,_⟩ := heaps_stand_apart Sample.exactClocks
    [(3,Sample.skewed), (2,[]), (3,[])]
  obtain ⟨_,disagree⟩ := heaps_stand_apart Sample.exactClocks
    [(3,Sample.skewed), (2,Sample.skewed)]
  obtain ⟨_,agree⟩ := heaps_stand_apart Sample.exactClocks
    [(3,Sample.trace), (2,Sample.disordered)]
  obtain ⟨heap,again,refused⟩ := repeated (by decide)
  have third : FirstRepeat [(3 : HeapId),2,3] 3 := ⟨[3,2],[],rfl,by decide,by decide⟩
  cases third.unique again
  obtain ⟨_,_,_,_,first,same⟩ := ((disagree (by decide)).1
    (.clockMismatch .beginMarkPhase 2 4 5)).mp (by decide +kernel)
  cases same
  obtain ⟨timeline,built,_⟩ := Sample.ran (fun _ => ())
    (show (reconstruct Sample.exactClocks
      [(3,Sample.trace), (2,Sample.disordered)]).toOption.map _ = some () by decide +kernel)
  obtain ⟨_,_,apart,_⟩ := agree (by decide)
  obtain ⟨single,alone,cells⟩ := apart timeline built 2 Sample.disordered (by simp)
  exact ⟨refused,first,timeline,single,built,alone,cells .done⟩

end JoinTrace
