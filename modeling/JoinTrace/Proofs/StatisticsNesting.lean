import Mathlib.Order.Bounds.Basic
import Mathlib.Tactic.Linarith
import Mathlib.Tactic.Ring
import JoinTrace.Proofs.StatisticsLevels

-- How the levels of the statistics lie within each other, in exact numbers. Each level is over other
-- joins than the one above it, so only its ends can be compared with those of that one.
namespace JoinTrace

section Ends
variable {τ ρ κ : Type} [PartialOrder κ] {items : List τ} {members : τ → List κ}
  {parts : τ → ρ → Prop} {least greatest : κ}

theorem isLeast_flatMap {first : ρ → κ}
    (found : IsLeast {value | value ∈ items.flatMap members} least)
    (each : ∀ item part, parts item part → IsLeast {value | value ∈ members item} (first part))
    (some : ∀ item, members item ≠ [] → ∃ part, parts item part) :
    IsLeast {value | ∃ item ∈ items, ∃ part, parts item part ∧ first part = value} least := by
  obtain ⟨listed,below⟩ := found
  have under {item : τ} {part : ρ} (member : item ∈ items) (told : parts item part) :
      least ≤ first part := by
    have inside : first part ∈ members item := (each item part told).1
    exact below (List.mem_flatMap.mpr ⟨item,member,inside⟩)
  constructor
  · obtain ⟨item,member,inside⟩ := List.mem_flatMap.mp listed
    obtain ⟨part,told⟩ := some item (List.ne_nil_of_mem inside)
    exact ⟨item,member,part,told,le_antisymm ((each item part told).2 inside) (under member told)⟩
  · rintro value ⟨item,member,part,told,rfl⟩
    exact under member told

theorem isGreatest_flatMap {last : ρ → κ}
    (found : IsGreatest {value | value ∈ items.flatMap members} greatest)
    (each : ∀ item part, parts item part → IsGreatest {value | value ∈ members item} (last part))
    (some : ∀ item, members item ≠ [] → ∃ part, parts item part) :
    IsGreatest {value | ∃ item ∈ items, ∃ part, parts item part ∧ last part = value} greatest :=
  isLeast_flatMap (κ := κᵒᵈ) found each some

end Ends

namespace Exact
variable {values : List ℚ}

theorem isLeast_min {least : ℚ} (found : Aggregate.min values = .ok least) :
    IsLeast {value | value ∈ values} least := by
  cases values with
  | nil => cases found
  | cons first rest =>
    have folded : (first :: rest).min? = some least := by
      rw [List.min?_cons',← Except.ok.inj found,show Scalar.min = min from funext₂ min_eq]
    exact List.min?_eq_some_iff.mp folded

theorem isGreatest_max {greatest : ℚ} (found : Aggregate.max values = .ok greatest) :
    IsGreatest {value | value ∈ values} greatest := by
  cases values with
  | nil => cases found
  | cons first rest =>
    have folded : (first :: rest).max? = some greatest := by
      rw [List.max?_cons',← Except.ok.inj found,show Scalar.max = max from funext₂ max_eq]
    exact List.max?_eq_some_iff.mp folded

theorem median_within {middle low high : ℚ} (found : Aggregate.median values = .ok middle)
    (inside : ∀ value ∈ values, low ≤ value ∧ value ≤ high) : low ≤ middle ∧ middle ≤ high := by
  have placed {place : Nat} {value : ℚ} (at_place : (Scalar.sorted values)[place]? = some value) :
      low ≤ value ∧ value ≤ high :=
    inside value ((List.mergeSort_perm ..).mem_iff.mp (List.mem_of_getElem? at_place))
  simp only [Aggregate.median] at found
  split at found
  · split at found
    · rename_i value here
      cases found
      exact placed here
    · cases found
  · split at found
    · rename_i below above here there
      cases found
      obtain ⟨low_below,below_high⟩ := placed here
      obtain ⟨low_above,above_high⟩ := placed there
      change low ≤ (below+above)/2 ∧ (below+above)/2 ≤ high
      constructor <;> linarith
    · cases found

end Exact

def Spread.Ordered (spread : Spread ℚ) : Prop :=
  spread.min ≤ spread.median ∧ spread.median ≤ spread.max

structure Spread.Covers (values : List ℚ) (spread : Spread ℚ) : Prop where
  least : IsLeast {value | value ∈ values} spread.min
  greatest : IsGreatest {value | value ∈ values} spread.max
  ordered : spread.Ordered

theorem Spread.covers_of {values : List ℚ} {spread : Spread ℚ}
    (made : Spread.of values = .ok spread) : Covers values spread := by
  obtain ⟨middle,most,fewest⟩ := Spread.of_parts made
  have least := Exact.isLeast_min fewest
  have greatest := Exact.isGreatest_max most
  exact ⟨least,greatest,Exact.median_within middle fun value listed =>
    ⟨least.2 listed,greatest.2 listed⟩⟩

theorem Spread.Covers.deviation_le {values : List ℚ} {spread : Spread ℚ}
    (covers : Covers values spread) {value : ℚ} (listed : value ∈ values) :
    (Deviation.from value spread.median).absolute ≤ spread.max - spread.min := by
  obtain ⟨above,below⟩ := covers.ordered
  have low := covers.least.2 listed
  have high := covers.greatest.2 listed
  exact abs_sub_le_iff.mpr ⟨by linarith,by linarith⟩

theorem Deviation.percentage_from (value median : ℚ) :
    (Deviation.from value median).percentage =
      if median = 0 then fail "pct deviation from a zero median"
      else .ok (100 * (Deviation.from value median).absolute / median) := by
  have zero : (Scalar.ofNat 0 : ℚ) = 0 := Nat.cast_zero
  have hundred : (Scalar.ofNat 100 : ℚ) = 100 := rfl
  simp only [Deviation.from,Scalar.eq,zero,hundred,decide_eq_true_eq]
  split
  next => rfl
  next => rw [div_mul_eq_mul_div,mul_comm]

namespace Statistics

theorem levels_nest {all : HeapJoinTimes ℚ} {table : PhaseTable} {told : Statistics ℚ}
    (made : ofJoinTimes all table = .ok told) :
    told.overall.Ordered ∧
    (∀ stage part, told.stages.get? stage = some part → part.spread.Ordered ∧
      told.overall.min ≤ part.spread.min ∧ part.spread.max ≤ told.overall.max ∧
      ∀ heap deviation, part.heaps.get? heap = some deviation →
        deviation.absolute ≤ part.spread.max - part.spread.min ∧
        deviation.percentage =
          if part.spread.median = 0 then fail "pct deviation from a zero median"
          else .ok (100 * deviation.absolute / part.spread.median)) ∧
    ∀ phase part, told.phases.get? phase = some part → part.spread.Ordered ∧
      IsLeast {least | ∃ stage ∈ table.stagesOf phase, ∃ kept,
        told.stages.get? stage = some kept ∧ kept.spread.min = least} part.spread.min ∧
      IsGreatest {greatest | ∃ stage ∈ table.stagesOf phase, ∃ kept,
        told.stages.get? stage = some kept ∧ kept.spread.max = greatest} part.spread.max := by
  have tells := tells_of_ofJoinTimes made
  have overall := Spread.covers_of tells.overall
  have ofStage {stage : Stage} {part : StageStatistics ℚ}
      (held : told.stages.get? stage = some part) : part.spread.Covers (all.lastOf stage) :=
    Spread.covers_of (tells.stages stage part held).spread
  have stageThere (stage : Stage) (joined : all.lastOf stage ≠ []) :
      ∃ part, told.stages.get? stage = some part :=
    (tells.stageThere stage).mpr (HeapJoinTimes.lastOf_ne_nil.mp joined)
  refine ⟨overall.ordered,fun stage part held => ?_,fun phase part held => ?_⟩
  · have covers := ofStage held
    have within : {value | value ∈ all.lastOf stage} ⊆
        {value | value ∈ all.values.flatMap JoinTimes.durations} := fun _ => HeapJoinTimes.lastOf_subset
    refine ⟨covers.ordered,covers.least.mono overall.least within,
      covers.greatest.mono overall.greatest within,fun heap deviation kept => ?_⟩
    rw [(tells.stages stage part held).heaps,Option.map_eq_some_iff] at kept
    obtain ⟨last,ends,rfl⟩ := kept
    have listed : last ∈ all.lastOf stage := HeapJoinTimes.mem_lastOf.mpr ⟨heap,ends⟩
    exact ⟨covers.deviation_le listed,Deviation.percentage_from last _⟩
  · have covers := Spread.covers_of (tells.phases phase part held).spread
    exact ⟨covers.ordered,
      isLeast_flatMap covers.least (fun _ _ found => (ofStage found).least) stageThere,
      isGreatest_flatMap covers.greatest (fun _ _ found => (ofStage found).greatest) stageThere⟩

theorem levels_nest_sample : ∃ told marks phase,
    ofJoinTimes Sample.heapTimes .builtin = .ok told ∧
    told.stages.get? .beginMarkPhase = some marks ∧ told.phases.get? .mark = some phase ∧
    marks.spread.max ≤ told.overall.max ∧ phase.spread.min ≤ marks.spread.min ∧
    phase.spread.Ordered := by
  have joined : Sample.heapTimes.values.flatMap JoinTimes.durations ≠ [] := by decide +kernel
  have marked : Sample.heapTimes.durationsOf 0 .beginMarkPhase ≠ [] := by decide +kernel
  have listed : .beginMarkPhase ∈ PhaseTable.builtin.stagesOf .mark := by decide +kernel
  obtain ⟨told,made⟩ := ofJoinTimes_ok .builtin joined
  have tells := tells_of_ofJoinTimes made
  obtain ⟨marks,held⟩ := (tells.stageThere .beginMarkPhase).mpr ⟨0,marked⟩
  obtain ⟨phase,found⟩ := (tells.phaseThere .mark).mpr ⟨_,listed,marks,held⟩
  obtain ⟨_,stages,phases⟩ := levels_nest made
  obtain ⟨_,_,below,_⟩ := stages _ _ held
  obtain ⟨ordered,least,_⟩ := phases _ _ found
  exact ⟨told,marks,phase,made,held,found,below,least.2 ⟨_,listed,marks,held,rfl⟩,ordered⟩

end Statistics
end JoinTrace
