import JoinTrace.Proofs.NumberLimits
import JoinTrace.Proofs.TimelineHeaps

-- Spans that no comparison can call close. A NaN on either clock is always reported; a span that is
-- infinite on one clock alone is only where the relative tolerance is zero, since any other scales
-- with the infinity and lets it pass.
namespace JoinTrace
open Binary64 (OneInfinite Top)

namespace Config
variable {config : Config Float} {absolute relative : Float}

structure Bounded (config : Config Float) : Prop where
  relative : 0 ≤ config.relativeTolerance ∧ config.relativeTolerance.isFinite
  absolute : 0 ≤ config.absoluteTolerance ∧ config.absoluteTolerance.isFinite

theorem nan_disagrees (nan : absolute.isNaN ∨ relative.isNaN) :
    config.clocksAgree absolute relative = false := by
  have apart : (absolute - relative).abs.isNaN := Binary64.abs_isNaN (Binary64.sub_isNaN nan)
  unfold clocksAgree
  exact Bool.or_eq_false_iff.mpr
    ⟨Binary64.le_isNaN (.inl apart),Binary64.le_isNaN (.inl apart)⟩

theorem infinite_agrees_iff (bounded : config.Bounded) (one : OneInfinite absolute relative) :
    config.clocksAgree absolute relative ↔ 0 < config.relativeTolerance := by
  have apart : Top (absolute - relative).abs := Binary64.abs_top (Binary64.sub_isInf one)
  have larger : Top (Scalar.max absolute.abs relative.abs) := Binary64.max_top
    (one.imp (fun first => Binary64.abs_top first.1) (fun second => Binary64.abs_top second.2))
  have beyond : Scalar.le (absolute - relative).abs config.absoluteTolerance = false := by
    refine Bool.eq_false_iff.mpr fun within => ?_
    cases bounded.absolute.2.symm.trans (apart.of_le within).not_finite
  change (Scalar.le (absolute - relative).abs _ || Scalar.le (absolute - relative).abs
    (config.relativeTolerance * Scalar.max absolute.abs relative.abs)) = true ↔ _
  rw [beyond,Bool.false_or]
  constructor
  · intro within
    by_contra notPositive
    have zero := Binary64.eq_zero bounded.relative.1 notPositive
    cases within.symm.trans (Binary64.le_isNaN (.inr (Binary64.mul_isNaN zero larger)))
  · intro positive
    exact apart.le (Binary64.mul_top bounded.relative.2 positive larger)

end Config

section Spans
variable {α : Type} [Scalar α]

theorem ClockedSpans.unique {starts ends : List (Event α)} {absolute relative a r : α}
    (clocked : ClockedSpans starts ends absolute relative) (again : ClockedSpans starts ends a r) :
    a = absolute ∧ r = relative := by
  obtain ⟨first,last,started,ended,head,read,final,read',rfl,rfl⟩ := clocked
  obtain ⟨_,_,_,_,head',again,final',again',rfl,rfl⟩ := again
  cases head.symm.trans head'
  cases final.symm.trans final'
  cases read.symm.trans again
  cases read'.symm.trans again'
  exact ⟨rfl,rfl⟩

end Spans

namespace StageTimeline
variable {α : Type} [Scalar α] {config : Config α} {heaps : List (HeapId × List (Event α))}
  {heap : HeapId} {events : List (Event α)} {stage : Stage} {absolute relative : α}

def Blames (config : Config α) (heaps : List (HeapId × List (Event α))) (stage : Stage)
    (heap : HeapId) : Prop :=
  ∃ absolute relative, reconstruct config heaps = .error (.clockMismatch stage heap absolute relative)

theorem blames_some (distinct : (heaps.map (·.1)).Nodup) (listed : (heap,events) ∈ heaps)
    (disagree : ClocksDisagree config events stage absolute relative) :
    ∃ stage heap, Blames config heaps stage heap := by
  cases built : reconstruct config heaps with
  | ok timeline =>
    exact absurd disagree ((reconstruct_ok_iff distinct).mp ⟨timeline,built⟩ _ listed _ _ _)
  | error e =>
    obtain ⟨stage,heap,absolute,relative,_,rfl⟩ := (reconstruct_error_iff distinct).mp built
    exact ⟨stage,heap,absolute,relative,built⟩

theorem not_blames (distinct : (heaps.map (·.1)).Nodup) (listed : (heap,events) ∈ heaps)
    (clocked : ClockedSpans (stageStarts events stage) (stageEnds events stage) absolute relative)
    (agree : config.clocksAgree absolute relative) : ¬ Blames config heaps stage heap := by
  intro blamed
  obtain ⟨a,r,refused⟩ := blamed
  obtain ⟨_,_,_,_,first,same⟩ := (reconstruct_error_iff distinct).mp refused
  cases same
  obtain ⟨others,listed',clocked',differ⟩ := first.disagree
  cases List.inj_on_of_nodup_map distinct listed listed' rfl
  obtain ⟨rfl,rfl⟩ := clocked.unique clocked'
  cases agree.symm.trans differ

end StageTimeline

theorem StageTimeline.boundless_spans {config : Config Float} (bounded : config.Bounded)
    {heaps : List (HeapId × List (Event Float))} (distinct : (heaps.map (·.1)).Nodup)
    {heap : HeapId} {events : List (Event Float)} (listed : (heap,events) ∈ heaps) {stage : Stage}
    {absolute relative : Float}
    (clocked : ClockedSpans (stageStarts events stage) (stageEnds events stage) absolute relative) :
    (absolute.isNaN ∨ relative.isNaN → ∃ stage heap, Blames config heaps stage heap) ∧
    (¬ (absolute.isNaN ∨ relative.isNaN) → absolute.isInf ≠ relative.isInf →
      (¬ 0 < config.relativeTolerance → ∃ stage heap, Blames config heaps stage heap) ∧
      (0 < config.relativeTolerance → ¬ Blames config heaps stage heap)) := by
  have reported (disagree : config.clocksAgree absolute relative = false) :
      ∃ stage heap, Blames config heaps stage heap := blames_some distinct listed ⟨clocked,disagree⟩
  refine ⟨fun nan => reported (Config.nan_disagrees nan),fun numbers one => ?_⟩
  have agree := Config.infinite_agrees_iff bounded (Binary64.oneInfinite numbers one)
  exact ⟨fun zero => reported (Bool.eq_false_iff.mpr (mt agree.mp zero)),
    fun positive => not_blames distinct listed clocked (agree.mpr positive)⟩

namespace Sample

def overflowing : List (Event Float) := [
  ⟨.join,.start,.beginMarkPhase,0,-1e308,some 0⟩, ⟨.join,.finish,.beginMarkPhase,0,1e308,some 1⟩]

def unscaled : Config Float := ⟨.doneOnly,0,1⟩

def nan : Float := 0 / 0

def unread : List (Event Float) := [
  ⟨.join,.start,.beginMarkPhase,0,2,some 2⟩, ⟨.join,.finish,.beginMarkPhase,0,4,some nan⟩]

theorem overflowing_clocked : ClockedSpans (stageStarts overflowing .beginMarkPhase)
    (stageEnds overflowing .beginMarkPhase) (1e308 - -1e308) (1 - 0) :=
  ⟨_,_,_,_,rfl,rfl,rfl,rfl,rfl,rfl⟩

theorem unread_clocked : ClockedSpans (stageStarts unread .beginMarkPhase)
    (stageEnds unread .beginMarkPhase) (4 - 2) (nan - 2) :=
  ⟨_,_,_,_,rfl,rfl,rfl,rfl,rfl,rfl⟩

end Sample

namespace StageTimeline

theorem infinite_span_passes : ∃ absolute relative : Float,
    (Config.standard : Config Float).Bounded ∧
    ClockedSpans (stageStarts Sample.overflowing .beginMarkPhase)
      (stageEnds Sample.overflowing .beginMarkPhase) absolute relative ∧
    absolute.isInf ∧ relative.isFinite ∧
    ∃ timeline, reconstruct (.standard : Config Float) [(0,Sample.overflowing)] = .ok timeline := by
  obtain ⟨timeline,built,_⟩ := Sample.ran (fun _ => ())
    (show (reconstruct (.standard : Config Float) [(0,Sample.overflowing)]).toOption.map _ = some ()
      by decide +kernel)
  exact ⟨_,_,⟨by decide +kernel,by decide +kernel⟩,Sample.overflowing_clocked,
    by decide +kernel,by decide +kernel,timeline,built⟩

theorem boundless_spans_sample :
    (∃ stage heap, Blames (.standard : Config Float) [(3,Sample.unread)] stage heap) ∧
    (∃ stage heap, Blames Sample.unscaled [(0,Sample.overflowing)] stage heap) ∧
    ¬ Blames (.standard : Config Float) [(3,[]), (0,Sample.overflowing)] .beginMarkPhase 0 := by
  have standard : (Config.standard : Config Float).Bounded := ⟨by decide +kernel,by decide +kernel⟩
  have unscaled : Sample.unscaled.Bounded := ⟨by decide +kernel,by decide +kernel⟩
  obtain ⟨reported,_⟩ := boundless_spans standard
    (show ([((3 : HeapId),Sample.unread)].map (·.1)).Nodup by decide)
    List.mem_cons_self Sample.unread_clocked
  obtain ⟨_,refused⟩ := boundless_spans unscaled
    (show ([((0 : HeapId),Sample.overflowing)].map (·.1)).Nodup by decide)
    List.mem_cons_self Sample.overflowing_clocked
  obtain ⟨_,passed⟩ := boundless_spans standard
    (show ([((3 : HeapId),[]), (0,Sample.overflowing)].map (·.1)).Nodup by decide)
    (List.mem_cons_of_mem _ List.mem_cons_self) Sample.overflowing_clocked
  exact ⟨reported (.inr (by decide +kernel)),
    (refused (by decide +kernel) (by decide +kernel)).1 (by decide +kernel),
    (passed (by decide +kernel) (by decide +kernel)).2 (by decide +kernel)⟩

end StageTimeline
end JoinTrace
