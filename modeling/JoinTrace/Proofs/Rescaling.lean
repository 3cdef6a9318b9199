import Mathlib.Algebra.BigOperators.Group.List.Basic
import Mathlib.Algebra.Order.BigOperators.Group.List
import Mathlib.Algebra.BigOperators.Ring.List
import JoinTrace.Proofs.OrderStatistics

-- Aggregates of exact numbers that are counted in another unit and from another origin. Sums and
-- means follow the numbers term by term, the order statistics place by place, and a variance its
-- deviations, which the origin does not enter.
namespace JoinTrace

-- What becomes of an aggregate of so many numbers. The square of the unit is the unit of a variance,
-- for which a standard deviation stands.
def AggregateFn.rescale (aggregate : AggregateFn) (unit origin : ℚ) (count : ℕ) (value : ℚ) : ℚ :=
  match aggregate with
  | .sum => unit*value + count*origin
  | .stdev => unit^2 * value
  | _ => unit*value + origin

namespace Exact

section Rescaling
variable {values : List ℚ} {unit origin : ℚ}

theorem rescaled_monotone (positive : 0 ≤ unit) (origin : ℚ) :
    Monotone fun value => unit*value + origin := by
  intro low high below
  have scaled := mul_le_mul_of_nonneg_left below positive
  dsimp only
  linarith

theorem sorted_map {g : ℚ → ℚ} (rises : Monotone g) (values : List ℚ) :
    Scalar.sorted (values.map g) = (Scalar.sorted values).map g := by
  have ascending : ((Scalar.sorted values).map g).Pairwise (· ≤ ·) :=
    List.pairwise_map.mpr ((sorted_rises values).imp fun below => rises below)
  have perm : (values.map g).Perm ((Scalar.sorted values).map g) :=
    (List.mergeSort_perm ..).symm.map g
  rw [Scalar.sorted_perm perm,sorted_ascending ascending]

theorem placed_map {g : ℚ → ℚ} (rises : Monotone g) (some : values ≠ []) (place : ℕ) :
    placed (values.map g) place = g (placed values place) := by
  have filled := List.length_pos_iff.mpr some
  have inside : min place (values.length-1) < values.length := by omega
  have inside' : min place (values.length-1) < (values.map g).length := by rwa [List.length_map]
  rw [← placed_clamp,List.length_map,← placed_clamp values place]
  have there := getElem?_sorted inside'
  rw [sorted_map rises,List.getElem?_map,getElem?_sorted inside] at there
  exact (Option.some.inj there).symm

theorem along_rescaled (corner : ℕ → ℚ) (unit origin place : ℚ) :
    along (fun place => unit*corner place + origin) place = unit * along corner place + origin := by
  unfold along
  ring

theorem quantile_rescaled (positive : 0 ≤ unit) (some : values ≠ []) (percent : ℚ) :
    quantile (values.map fun value => unit*value + origin) percent =
      unit * quantile values percent + origin := by
  have corners := funext (placed_map (rescaled_monotone positive origin) some)
  rw [quantile,quantile,corners,List.length_map,along_rescaled]

theorem mean_eq (some : values ≠ []) :
    Aggregate.mean values = .ok (values.sum/values.length) := by
  rw [Aggregate.mean,sum_eq,if_neg (by simpa using some)]
  rfl

theorem sum_rescaled (values : List ℚ) (unit origin : ℚ) :
    (values.map fun value => unit*value + origin).sum = unit*values.sum + values.length*origin := by
  rw [List.sum_map_add,List.sum_map_mul_left,List.map_id',List.map_const',List.sum_replicate,
    nsmul_eq_mul]

theorem mean_of_rescaled (some : values ≠ []) (unit origin : ℚ) :
    (unit*values.sum + values.length*origin)/values.length =
      unit*(values.sum/values.length) + origin := by
  have counted : (values.length : ℚ) ≠ 0 := by simpa using some
  field_simp

theorem map_of_found (statistic : List ℚ → Failable ℚ) (g : ℚ → ℚ)
    (nothing : statistic [] = fail Aggregate.noValues)
    (found : values ≠ [] → ∃ value, statistic values = .ok value ∧
      statistic (values.map g) = .ok (g value)) :
    statistic (values.map g) = (statistic values).map g := by
  rcases eq_or_ne values [] with rfl | some
  · rw [List.map_nil,nothing]
    rfl
  · obtain ⟨value,here,there⟩ := found some
    rw [here,there]
    rfl

section Followed
variable (positive : 0 ≤ unit) (values : List ℚ) (origin : ℚ)
include positive

theorem median_rescaled : Aggregate.median (values.map fun value => unit*value + origin) =
    (Aggregate.median values).map fun value => unit*value + origin := by
  refine map_of_found Aggregate.median _ median_nil fun some => ⟨_,median_eq some,?_⟩
  rw [median_eq (by simpa using some),quantile_rescaled positive some]

theorem percentile_rescaled {percent : ℚ} (inside : percent ∈ Set.Icc 0 100) :
    Aggregate.percentile (values.map fun value => unit*value + origin) percent =
      (Aggregate.percentile values percent).map fun value => unit*value + origin := by
  refine map_of_found (Aggregate.percentile · percent) _ (percentile_nil percent) fun some =>
    ⟨_,percentile_eq some inside,?_⟩
  rw [percentile_eq (by simpa using some) inside,quantile_rescaled positive some]

theorem max_rescaled : Aggregate.max (values.map fun value => unit*value + origin) =
    (Aggregate.max values).map fun value => unit*value + origin := by
  refine map_of_found Aggregate.max _ rfl fun some => ⟨_,max_placed some,?_⟩
  rw [max_placed (by simpa using some),List.length_map,
    placed_map (rescaled_monotone positive origin) some]

theorem min_rescaled : Aggregate.min (values.map fun value => unit*value + origin) =
    (Aggregate.min values).map fun value => unit*value + origin := by
  refine map_of_found Aggregate.min _ rfl fun some => ⟨_,min_placed some,?_⟩
  rw [min_placed (by simpa using some),placed_map (rescaled_monotone positive origin) some]

end Followed

theorem mean_rescaled (values : List ℚ) (unit origin : ℚ) :
    Aggregate.mean (values.map fun value => unit*value + origin) =
      (Aggregate.mean values).map fun value => unit*value + origin := by
  refine map_of_found Aggregate.mean _ rfl fun some => ⟨_,mean_eq some,?_⟩
  rw [mean_eq (by simpa using some),sum_rescaled,List.length_map,mean_of_rescaled some]

theorem variance_eq (several : 2 ≤ values.length) : Aggregate.variance values =
    .ok ((values.map fun value => (value - values.sum/values.length)^2).sum /
      (values.length-1 : ℕ)) := by
  have some : values ≠ [] := List.length_pos_iff.mp (by omega)
  rw [Aggregate.variance,if_neg (by omega),mean_eq some]
  simp only [sum_eq,← pow_two]
  rfl

theorem variance_few (few : values.length < 2) :
    Aggregate.variance values = fail "not enough values for stdev" := if_pos few

theorem variance_rescaled (values : List ℚ) (unit origin : ℚ) :
    Aggregate.variance (values.map fun value => unit*value + origin) =
      (Aggregate.variance values).map fun value => unit^2 * value := by
  rcases Nat.lt_or_ge values.length 2 with few | several
  · rw [variance_few few,variance_few (by simpa using few)]
    rfl
  · have some : values ≠ [] := List.length_pos_iff.mp (by omega)
    -- The origin moves the mean as it moves every number.
    have centre := mean_of_rescaled some unit origin
    have deviation (value : ℚ) :
        (unit*value + origin - (unit*(values.sum/values.length) + origin))^2 =
          unit^2 * (value - values.sum/values.length)^2 := by ring
    rw [variance_eq several,variance_eq (by simpa using several),sum_rescaled,List.length_map,
      List.map_map,centre]
    simp only [Function.comp_def,deviation,List.sum_map_mul_left,mul_div_assoc]
    rfl

theorem apply_rescaled (positive : 0 ≤ unit) (aggregate : AggregateFn) (values : List ℚ)
    (origin : ℚ) :
    aggregate.apply (values.map fun value => unit*value + origin) =
      (aggregate.apply values).map (aggregate.rescale unit origin values.length) := by
  cases aggregate with
  | mean => exact mean_rescaled values unit origin
  | max => exact max_rescaled positive values origin
  | min => exact min_rescaled positive values origin
  | sum =>
    refine congrArg Except.ok ?_
    rw [sum_eq,sum_eq,sum_rescaled]
    rfl
  | p95 =>
    exact percentile_rescaled positive values origin
      ⟨by norm_num [Scalar.ofNat],by norm_num [Scalar.ofNat]⟩
  | stdev =>
    have roots (spread : Failable ℚ) : spread.map Scalar.sqrt = spread := by cases spread <;> rfl
    change (Aggregate.variance _).map Scalar.sqrt =
      ((Aggregate.variance values).map Scalar.sqrt).map _
    rw [roots,roots,variance_rescaled]
    rfl

end Rescaling

section Bounds
variable {values : List ℚ}

theorem mean_within (some : values ≠ []) :
    placed values 0 ≤ values.sum/values.length ∧
      values.sum/values.length ≤ placed values (values.length-1) := by
  have filled : (0 : ℚ) < values.length := by exact_mod_cast List.length_pos_iff.mpr some
  have least := isLeast_min (min_placed some)
  have greatest := isGreatest_max (max_placed some)
  constructor
  · rw [le_div_iff₀ filled,mul_comm,← nsmul_eq_mul]
    exact List.card_nsmul_le_sum _ _ fun value listed => least.2 listed
  · rw [div_le_iff₀ filled,mul_comm,← nsmul_eq_mul]
    exact List.sum_le_card_nsmul _ _ fun value listed => greatest.2 listed

theorem deviations_eq_zero_iff :
    (values.map fun value => (value - values.sum/values.length)^2).sum = 0 ↔
      ∀ value ∈ values, ∀ other ∈ values, value = other := by
  have squares : ∀ square ∈ values.map fun value => (value - values.sum/values.length)^2,
      0 ≤ square := by
    intro square listed
    obtain ⟨value,_,rfl⟩ := List.mem_map.mp listed
    positivity
  constructor
  · intro nothing value listed other listed'
    have centred {value : ℚ} (listed : value ∈ values) : value = values.sum/values.length := by
      have square := List.all_zero_of_le_zero_le_of_sum_eq_zero squares nothing
        (List.mem_map_of_mem listed)
      exact sub_eq_zero.mp ((pow_eq_zero_iff two_ne_zero).mp square)
    exact (centred listed).trans (centred listed').symm
  · intro alike
    refine List.sum_eq_zero fun square listed => ?_
    obtain ⟨value,member,rfl⟩ := List.mem_map.mp listed
    have total := List.sum_eq_card_nsmul values value fun other there =>
      alike other there value member
    have counted : (values.length : ℚ) ≠ 0 := by simpa using List.ne_nil_of_mem member
    rw [total,nsmul_eq_mul,mul_div_cancel_left₀ _ counted,sub_self]
    norm_num

theorem variance_bounds (several : 2 ≤ values.length) : ∃ spread,
    Aggregate.variance values = .ok spread ∧ 0 ≤ spread ∧
      (spread = 0 ↔ ∀ value ∈ values, ∀ other ∈ values, value = other) := by
  have counted : (0 : ℚ) < (values.length-1 : ℕ) := by
    exact_mod_cast (by omega : 0 < values.length-1)
  refine ⟨_,variance_eq several,?_,?_⟩
  · refine div_nonneg (List.sum_nonneg fun square listed => ?_) counted.le
    obtain ⟨value,_,rfl⟩ := List.mem_map.mp listed
    positivity
  · rw [div_eq_zero_iff,or_iff_left counted.ne',deviations_eq_zero_iff]

end Bounds

theorem aggregates_follow :
    (∀ values others : List ℚ, values.Perm others →
      (∀ aggregate : AggregateFn, aggregate.apply others = aggregate.apply values) ∧
      Aggregate.variance others = Aggregate.variance values ∧
      Aggregate.median others = Aggregate.median values) ∧
    (∀ (values : List ℚ) (unit origin : ℚ), 0 ≤ unit →
      (∀ aggregate : AggregateFn,
        aggregate.apply (values.map fun value => unit*value + origin) =
          (aggregate.apply values).map (aggregate.rescale unit origin values.length)) ∧
      Aggregate.variance (values.map fun value => unit*value + origin) =
        (Aggregate.variance values).map (fun spread => unit^2 * spread) ∧
      Aggregate.median (values.map fun value => unit*value + origin) =
        (Aggregate.median values).map fun middle => unit*middle + origin) ∧
    (∀ values : List ℚ, values ≠ [] → ∃ least mean greatest,
      Aggregate.min values = .ok least ∧ Aggregate.mean values = .ok mean ∧
      Aggregate.max values = .ok greatest ∧ least ≤ mean ∧ mean ≤ greatest) ∧
    ∀ values : List ℚ, 2 ≤ values.length → ∃ spread, Aggregate.variance values = .ok spread ∧
      0 ≤ spread ∧ (spread = 0 ↔ ∀ value ∈ values, ∀ other ∈ values, value = other) := by
  refine ⟨fun values others perm => ?_,fun values unit origin positive => ?_,fun values some => ?_,
    fun values several => variance_bounds several⟩
  · exact ⟨fun aggregate => (apply_perm aggregate perm).symm,(variance_perm perm).symm,
      (Aggregate.median_perm perm).symm⟩
  · exact ⟨fun aggregate => apply_rescaled positive aggregate values origin,
      variance_rescaled values unit origin,median_rescaled positive values origin⟩
  · exact ⟨_,_,_,min_placed some,mean_eq some,max_placed some,mean_within some⟩

theorem aggregates_follow_sample :
    AggregateFn.mean.apply [3000,1000,(2000 : ℚ)] = .ok 2000 ∧
    AggregateFn.mean.apply ([3000,1000,(2000 : ℚ)].map fun value => 1/1000*value + 5) = .ok 7 ∧
    Aggregate.median ([3000,1000,(2000 : ℚ)].map fun value => 1/1000*value + 5) =
      (Aggregate.median [3000,1000,(2000 : ℚ)]).map (fun middle => 1/1000*middle + 5) ∧
    AggregateFn.stdev.apply [1000,2000,(3000 : ℚ)] = AggregateFn.stdev.apply [3000,1000,2000] ∧
    ∃ spread, Aggregate.variance [3000,1000,(2000 : ℚ)] = .ok spread ∧ 0 ≤ spread ∧ spread ≠ 0 := by
  obtain ⟨reordered,rescaled,_,varies⟩ := aggregates_follow
  obtain ⟨follows,_,middles⟩ := rescaled [3000,1000,2000] (1/1000) 5 (by norm_num)
  have mean : AggregateFn.mean.apply [3000,1000,(2000 : ℚ)] = .ok 2000 := by decide +kernel
  have seconds := follows .mean
  rw [mean] at seconds
  obtain ⟨spread,found,positive,alike⟩ := varies [3000,1000,2000] (by simp)
  have several : spread ≠ 0 := fun nothing => by
    have same := alike.mp nothing 3000 (by simp) 1000 (by simp)
    norm_num at same
  exact ⟨mean,seconds.trans (by decide +kernel),middles,
    (reordered [3000,1000,2000] [1000,2000,3000] (by decide)).1 .stdev,spread,found,positive,several⟩

end Exact
end JoinTrace
