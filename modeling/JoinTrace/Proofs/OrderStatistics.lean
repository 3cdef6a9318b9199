import Mathlib.Order.Interval.Set.Defs
import Mathlib.Tactic.FieldSimp
import Mathlib.Tactic.Positivity
import JoinTrace.Proofs.Rearranged
import JoinTrace.Proofs.StatisticsNesting

-- Percentiles and the median of exact numbers, as heights of one line through the sorted values.
-- Its corners are the values in their order, and each of them is told by how many values do not
-- exceed it, so that the line rises with every value.
namespace JoinTrace.Exact

section Places
variable {values others : List ℚ}

theorem sorted_rises (values : List ℚ) : (Scalar.sorted values).Pairwise (· ≤ ·) :=
  (Scalar.sorted_ordered values).imp of_decide_eq_true

theorem length_sorted (values : List ℚ) : (Scalar.sorted values).length = values.length :=
  List.length_mergeSort values

theorem getElem_le_iff {ascending : List ℚ} (rises : ascending.Pairwise (· ≤ ·)) {place : ℕ}
    (inside : place < ascending.length) {bound : ℚ} :
    ascending[place] ≤ bound ↔ place < ascending.countP (· ≤ bound) := by
  induction ascending generalizing place with
  | nil => cases inside
  | cons first rest ih =>
    obtain ⟨lowest,rises⟩ := List.pairwise_cons.mp rises
    by_cases within : first ≤ bound
    · cases place with
      | zero => simp [within]
      | succ place => simpa [within] using ih rises (Nat.lt_of_succ_lt_succ inside)
    · have beyond : ∀ value ∈ first :: rest, ¬ value ≤ bound :=
        List.forall_mem_cons.mpr ⟨within,fun value listed low =>
          within ((lowest value listed).trans low)⟩
      have none : (first :: rest).countP (· ≤ bound) = 0 :=
        List.countP_eq_zero.mpr fun value listed => by simpa using beyond value listed
      rw [none]
      exact iff_of_false (beyond _ (List.getElem_mem inside)) (Nat.not_lt_zero _)

def placed (values : List ℚ) (place : ℕ) : ℚ :=
  (Scalar.sorted values).getD (min place (values.length-1)) 0

theorem getElem?_sorted {place : ℕ} (inside : place < values.length) :
    (Scalar.sorted values)[place]? = some (placed values place) := by
  have clamped : min place (values.length-1) = place := by omega
  rw [placed,clamped,List.getD_eq_getElem?_getD]
  rw [← length_sorted] at inside
  rw [List.getElem?_eq_getElem inside,Option.getD_some]

theorem placed_clamp (values : List ℚ) (place : ℕ) :
    placed values (min place (values.length-1)) = placed values place := by
  rw [placed,placed,min_assoc,min_self]

theorem placed_mem (some : values ≠ []) (place : ℕ) : placed values place ∈ values := by
  have positive := List.length_pos_iff.mpr some
  have inside : min place (values.length-1) < values.length := by omega
  rw [← placed_clamp]
  exact (List.mergeSort_perm ..).mem_iff.mp (List.mem_of_getElem? (getElem?_sorted inside))

-- No more values than those before a place lie below the one there.
theorem placed_le_iff {place : ℕ} (inside : place < values.length) {bound : ℚ} :
    placed values place ≤ bound ↔ place < values.countP (· ≤ bound) := by
  have sorted : place < (Scalar.sorted values).length := by rwa [length_sorted]
  have there := (List.getElem?_eq_getElem sorted).symm.trans (getElem?_sorted inside)
  rw [← Option.some.inj there,getElem_le_iff (sorted_rises values) sorted]
  exact iff_of_eq (congrArg (place < ·) ((List.mergeSort_perm ..).countP_eq _))

theorem placed_monotone (values : List ℚ) : Monotone (placed values) := by
  refine monotone_nat_of_le_succ fun place => ?_
  rcases Nat.lt_or_ge (place+1) values.length with inside | behind
  · have next := (placed_le_iff inside).mp (le_refl _)
    exact (placed_le_iff (by omega)).mpr (by omega)
  · have last : min (place+1) (values.length-1) = min place (values.length-1) := by omega
    rw [← placed_clamp values (place+1),last,placed_clamp]

theorem countP_within_le (larger : List.Forall₂ (· ≤ ·) values others) (bound : ℚ) :
    others.countP (· ≤ bound) ≤ values.countP (· ≤ bound) := by
  induction larger with
  | nil => exact le_refl _
  | cons low _ ih =>
    rw [List.countP_cons,List.countP_cons]
    refine Nat.add_le_add ih ?_
    split
    · rename_i within
      rw [if_pos (by simpa using low.trans (of_decide_eq_true within))]
    · exact Nat.zero_le _

theorem placed_le_placed (larger : List.Forall₂ (· ≤ ·) values others) (place : ℕ) :
    placed values place ≤ placed others place := by
  have length := larger.length_eq
  rcases eq_or_ne values [] with rfl | some
  · cases larger
    exact le_refl _
  · have positive := List.length_pos_iff.mpr some
    have inside : min place (values.length-1) < values.length := by omega
    rw [← placed_clamp values,← placed_clamp others,← length]
    generalize min place (values.length-1) = here at inside ⊢
    have below := (placed_le_iff (length ▸ inside)).mp (le_refl (placed others here))
    exact (placed_le_iff inside).mpr (below.trans_le (countP_within_le larger _))

theorem min_placed (some : values ≠ []) : Aggregate.min values = .ok (placed values 0) := by
  have filled := List.length_pos_iff.mpr some
  have reached : ∃ least, Aggregate.min values = .ok least := by
    obtain ⟨first,rest,rfl⟩ := List.exists_cons_of_ne_nil some
    exact ⟨_,rfl⟩
  obtain ⟨least,found⟩ := reached
  obtain ⟨listed,below⟩ := isLeast_min found
  have counted : 0 < values.countP (· ≤ least) :=
    List.countP_pos_iff.mpr ⟨least,listed,by simp⟩
  have above := (placed_le_iff filled).mpr counted
  rw [found,le_antisymm (below (placed_mem some 0)) above]

theorem max_placed (some : values ≠ []) :
    Aggregate.max values = .ok (placed values (values.length-1)) := by
  have filled := List.length_pos_iff.mpr some
  have reached : ∃ greatest, Aggregate.max values = .ok greatest := by
    obtain ⟨first,rest,rfl⟩ := List.exists_cons_of_ne_nil some
    exact ⟨_,rfl⟩
  obtain ⟨greatest,found⟩ := reached
  obtain ⟨listed,above⟩ := isGreatest_max found
  -- More values than stand before the last place are all of them.
  have all : values.length ≤ values.countP (· ≤ placed values (values.length-1)) := by
    have last := (placed_le_iff (Nat.sub_lt filled Nat.one_pos)).mp (le_refl _)
    omega
  have counted := List.countP_eq_length.mp (le_antisymm List.countP_le_length all)
  have below := of_decide_eq_true (counted greatest listed)
  rw [found,le_antisymm below (above (placed_mem some _))]

end Places

section Line
variable {corner other : ℕ → ℚ} {place later : ℚ}

def along (corner : ℕ → ℚ) (place : ℚ) : ℚ :=
  corner ⌊place⌋₊ * (1 - (place - ⌊place⌋₊)) + corner (⌊place⌋₊+1) * (place - ⌊place⌋₊)

theorem along_corner (corner : ℕ → ℚ) (place : ℕ) : along corner place = corner place := by
  simp [along]

theorem along_middle (corner : ℕ → ℚ) (place : ℕ) :
    along corner (place + 1/2) = (corner place + corner (place+1))/2 := by
  have floor : ⌊(place : ℚ) + 1/2⌋₊ = place := by
    rw [Nat.floor_eq_iff (by positivity)]
    constructor <;> linarith
  rw [along,floor]
  ring

theorem ceil_past (past : (⌊place⌋₊ : ℚ) < place) : ⌈place⌉₊ = ⌊place⌋₊+1 :=
  (Nat.ceil_eq_iff (Nat.succ_ne_zero _)).mpr
    ⟨by simpa using past,by simpa using (Nat.lt_floor_add_one place).le⟩

theorem way_within (positive : 0 ≤ place) :
    0 ≤ place - ⌊place⌋₊ ∧ 0 ≤ 1 - (place - ⌊place⌋₊) := by
  have below := Nat.floor_le positive
  have above := (Nat.lt_floor_add_one place).le
  constructor <;> linarith

theorem along_within (rises : Monotone corner) (positive : 0 ≤ place) :
    corner ⌊place⌋₊ ≤ along corner place ∧ along corner place ≤ corner (⌊place⌋₊+1) := by
  obtain ⟨gone,left⟩ := way_within positive
  have up : corner ⌊place⌋₊ ≤ corner (⌊place⌋₊+1) := rises (Nat.le_succ _)
  unfold along
  constructor <;> nlinarith

theorem along_le_along (rises : Monotone corner) (positive : 0 ≤ place) (after : place ≤ later) :
    along corner place ≤ along corner later := by
  rcases (Nat.floor_le_floor after).eq_or_lt with same | past
  · have up : corner ⌊later⌋₊ ≤ corner (⌊later⌋₊+1) := rises (Nat.le_succ _)
    unfold along
    rw [same]
    nlinarith
  · calc along corner place ≤ corner (⌊place⌋₊+1) := (along_within rises positive).2
      _ ≤ corner ⌊later⌋₊ := rises past
      _ ≤ along corner later := (along_within rises (positive.trans after)).1

theorem along_mono (higher : ∀ place, corner place ≤ other place) (positive : 0 ≤ place) :
    along corner place ≤ along other place := by
  obtain ⟨gone,left⟩ := way_within positive
  exact add_le_add (mul_le_mul_of_nonneg_right (higher _) left)
    (mul_le_mul_of_nonneg_right (higher _) gone)

end Line

section Quantiles
variable {values others : List ℚ} {percent : ℚ}

theorem floor_eq (place : ℚ) : Scalar.floor place = ⌊place⌋₊ := rfl

theorem ceil_eq (place : ℚ) (positive : 0 ≤ place) : Scalar.ceil place = ⌈place⌉₊ := by
  have below := Nat.floor_le positive
  simp only [Scalar.ceil,floor_eq,Scalar.lt,Scalar.ofNat,decide_eq_true_eq]
  split
  · rename_i past
    exact (ceil_past past).symm
  · rename_i reached
    rw [le_antisymm (not_lt.mp reached) below,Nat.floor_natCast,Nat.ceil_natCast]

theorem between_places (corner : ℕ → ℚ) {place : ℚ} (positive : 0 ≤ place) :
    corner (Scalar.floor place) * (Scalar.ofNat 1 - (place - Scalar.ofNat (Scalar.floor place))) +
        corner (Scalar.ceil place) * (place - Scalar.ofNat (Scalar.floor place)) =
      along corner place := by
  have one : (Scalar.ofNat 1 : ℚ) = 1 := Nat.cast_one
  have same (n : ℕ) : (Scalar.ofNat n : ℚ) = n := rfl
  rw [one,same,ceil_eq place positive,floor_eq,along]
  rcases (Nat.floor_le positive).eq_or_lt with reached | past
  · rw [sub_eq_zero.mpr reached.symm,mul_zero,mul_zero]
  · rw [ceil_past past]

theorem rank_eq (length : ℕ) (percent : ℚ) :
    Aggregate.rank length percent = (length-1 : ℕ) * (percent/100) := rfl

theorem rank_within (length : ℕ) (inside : percent ∈ Set.Icc 0 100) :
    0 ≤ Aggregate.rank length percent ∧ Aggregate.rank length percent ≤ (length-1 : ℕ) := by
  obtain ⟨low,high⟩ := inside
  rw [rank_eq]
  refine ⟨by positivity,mul_le_of_le_one_right (Nat.cast_nonneg _) ?_⟩
  linarith

theorem places_within {length : ℕ} (some : 0 < length) (inside : percent ∈ Set.Icc 0 100) :
    Scalar.floor (Aggregate.rank length percent) < length ∧
      Scalar.ceil (Aggregate.rank length percent) < length := by
  obtain ⟨positive,last⟩ := rank_within length inside
  have up : ⌈Aggregate.rank length percent⌉₊ ≤ length-1 := Nat.ceil_le.mpr last
  have down := Nat.floor_le_ceil (Aggregate.rank length percent)
  rw [floor_eq,ceil_eq _ positive]
  omega

def quantile (values : List ℚ) (percent : ℚ) : ℚ :=
  along (placed values) (Aggregate.rank values.length percent)

theorem percentile_eq (some : values ≠ []) (inside : percent ∈ Set.Icc 0 100) :
    Aggregate.percentile values percent = .ok (quantile values percent) := by
  obtain ⟨lower,upper⟩ := places_within (List.length_pos_iff.mpr some) inside
  simp only [Aggregate.percentile,length_sorted,getElem?_sorted lower,getElem?_sorted upper]
  exact congrArg _ (between_places (placed values) (rank_within values.length inside).1)

theorem median_eq (some : values ≠ []) : Aggregate.median values = .ok (quantile values 50) := by
  have filled := List.length_pos_iff.mpr some
  have half : values.length/2 < values.length := Nat.div_lt_self filled (by norm_num)
  have before : values.length/2-1 < values.length := by omega
  simp only [Aggregate.median,length_sorted,getElem?_sorted half,getElem?_sorted before,quantile,
    rank_eq]
  split
  · rename_i odd
    have middle : ((values.length-1 : ℕ) : ℚ) * (50/100) = (values.length/2 : ℕ) := by
      have twice : values.length-1 = 2*(values.length/2) := by omega
      rw [twice]
      push_cast
      ring
    rw [middle,along_corner]
  · rename_i even
    have middle : ((values.length-1 : ℕ) : ℚ) * (50/100) = (values.length/2-1 : ℕ) + 1/2 := by
      have twice : values.length-1 = 2*(values.length/2-1)+1 := by omega
      rw [twice]
      push_cast
      ring
    have next : values.length/2-1+1 = values.length/2 := by omega
    rw [middle,along_middle,next]
    rfl

theorem quantile_lowest (values : List ℚ) : quantile values 0 = placed values 0 := by
  rw [quantile,rank_eq,zero_div,mul_zero]
  exact_mod_cast along_corner (placed values) 0

theorem quantile_highest (values : List ℚ) :
    quantile values 100 = placed values (values.length-1) := by
  rw [quantile,rank_eq,div_self (by norm_num),mul_one,along_corner]

theorem quantile_monotone (values : List ℚ) :
    MonotoneOn (quantile values) (Set.Icc 0 100) := by
  intro low inside high _ below
  have later : Aggregate.rank values.length low ≤ Aggregate.rank values.length high := by
    rw [rank_eq,rank_eq]
    gcongr
  exact along_le_along (placed_monotone values) (rank_within values.length inside).1 later

theorem quantile_within (inside : percent ∈ Set.Icc 0 100) :
    placed values 0 ≤ quantile values percent ∧
      quantile values percent ≤ placed values (values.length-1) := by
  obtain ⟨low,high⟩ := inside
  rw [← quantile_lowest,← quantile_highest]
  exact ⟨quantile_monotone values ⟨le_refl _,by norm_num⟩ ⟨low,high⟩ low,
    quantile_monotone values ⟨low,high⟩ ⟨by norm_num,le_refl _⟩ high⟩

theorem quantile_mono (larger : List.Forall₂ (· ≤ ·) values others)
    (inside : percent ∈ Set.Icc 0 100) : quantile values percent ≤ quantile others percent := by
  rw [quantile,quantile,← larger.length_eq]
  exact along_mono (placed_le_placed larger) (rank_within values.length inside).1

theorem quantile_single (value : ℚ) (inside : percent ∈ Set.Icc 0 100) :
    quantile [value] percent = value := by
  have only (place : ℕ) : placed [value] place = value :=
    List.mem_singleton.mp (placed_mem (List.cons_ne_nil value []) place)
  have within : placed [value] 0 ≤ quantile [value] percent ∧
      quantile [value] percent ≤ placed [value] 0 := quantile_within inside
  rw [only] at within
  exact le_antisymm within.2 within.1

theorem percentile_nil (percent : ℚ) :
    Aggregate.percentile [] percent = fail Aggregate.noValues := by
  simp [Aggregate.percentile,Scalar.sorted]

theorem median_nil : Aggregate.median ([] : List ℚ) = fail Aggregate.noValues := by
  simp [Aggregate.median,Scalar.sorted]

end Quantiles

theorem failure_iff (statistic : List ℚ → Failable ℚ) {values : List ℚ} {value : ℚ}
    (found : values ≠ [] → statistic values = .ok value)
    (nothing : statistic [] = fail Aggregate.noValues) :
    (∃ failure, statistic values = .error failure) ↔ values = [] := by
  constructor
  · rintro ⟨failure,failed⟩
    by_contra some
    cases (found some).symm.trans failed
  · rintro rfl
    exact ⟨_,nothing⟩

structure OrderStatistics (values : List ℚ) (least greatest middle : ℚ) (height : ℚ → ℚ) :
    Prop where
  min : Aggregate.min values = .ok least
  max : Aggregate.max values = .ok greatest
  median : Aggregate.median values = .ok middle
  percentile : ∀ percent ∈ Set.Icc (0 : ℚ) 100,
    Aggregate.percentile values percent = .ok (height percent)
  places : ∀ percent ∈ Set.Icc (0 : ℚ) 100,
    Scalar.floor (Aggregate.rank (Scalar.sorted values).length percent) <
        (Scalar.sorted values).length ∧
      Scalar.ceil (Aggregate.rank (Scalar.sorted values).length percent) <
        (Scalar.sorted values).length
  within : ∀ percent ∈ Set.Icc (0 : ℚ) 100, least ≤ height percent ∧ height percent ≤ greatest
  middle_within : least ≤ middle ∧ middle ≤ greatest
  ascends : MonotoneOn height (Set.Icc 0 100)
  lowest : height 0 = least
  highest : height 100 = greatest
  half : height 50 = middle

theorem orderStatistics {values : List ℚ} (some : values ≠ []) :
    OrderStatistics values (placed values 0) (placed values (values.length-1)) (quantile values 50)
      (quantile values) where
  min := min_placed some
  max := max_placed some
  median := median_eq some
  percentile _ inside := percentile_eq some inside
  places _ inside := by
    rw [length_sorted]
    exact places_within (List.length_pos_iff.mpr some) inside
  within _ inside := quantile_within inside
  middle_within := quantile_within ⟨by norm_num,by norm_num⟩
  ascends := quantile_monotone values
  lowest := quantile_lowest values
  highest := quantile_highest values
  half := rfl

theorem raised_larger {values : List ℚ} {place : ℕ} {raised : ℚ} (inside : place < values.length)
    (larger : values[place] ≤ raised) :
    List.Forall₂ (· ≤ ·) values (values.set place raised) := by
  refine List.forall₂_iff_get.mpr ⟨(List.length_set ..).symm,fun other here there => ?_⟩
  rw [List.get_eq_getElem,List.get_eq_getElem,List.getElem_set]
  split
  · rename_i same
    subst same
    exact larger
  · exact le_refl _

theorem order_statistics :
    (∀ values : List ℚ, ∀ percent ∈ Set.Icc (0 : ℚ) 100,
      (∃ failure, Aggregate.percentile values percent = .error failure) ↔ values = []) ∧
    (∀ values : List ℚ, (∃ failure, Aggregate.median values = .error failure) ↔ values = []) ∧
    (∀ values, values ≠ [] → ∃ least greatest middle height,
      OrderStatistics values least greatest middle height) ∧
    (∀ value : ℚ, ∀ percent ∈ Set.Icc (0 : ℚ) 100, Aggregate.percentile [value] percent = .ok value) ∧
    ∀ (values : List ℚ) (place : ℕ) (inside : place < values.length) (raised : ℚ),
      values[place] ≤ raised →
      (∀ percent ∈ Set.Icc (0 : ℚ) 100, ∃ low high, Aggregate.percentile values percent = .ok low ∧
        Aggregate.percentile (values.set place raised) percent = .ok high ∧ low ≤ high) ∧
      ∃ low high, Aggregate.median values = .ok low ∧
        Aggregate.median (values.set place raised) = .ok high ∧ low ≤ high := by
  refine ⟨fun values percent within => ?_,fun values => ?_,fun values some => ?_,
    fun value percent within => ?_,fun values place inside raised higher => ?_⟩
  · exact failure_iff (Aggregate.percentile · percent) (percentile_eq · within)
      (percentile_nil percent)
  · exact failure_iff Aggregate.median median_eq median_nil
  · exact ⟨_,_,_,_,orderStatistics some⟩
  · rw [percentile_eq (List.cons_ne_nil value []) within,quantile_single value within]
  · have some : values ≠ [] := List.length_pos_iff.mp (by omega)
    have some' : values.set place raised ≠ [] := by simpa using some
    have larger := raised_larger inside higher
    constructor
    · intro percent within
      exact ⟨_,_,percentile_eq some within,percentile_eq some' within,quantile_mono larger within⟩
    · have half : (50 : ℚ) ∈ Set.Icc 0 100 := ⟨by norm_num,by norm_num⟩
      exact ⟨_,_,median_eq some,median_eq some',quantile_mono larger half⟩

theorem order_statistics_sample : ∃ least greatest height,
    OrderStatistics [3,1,2,10] least greatest (5/2) height ∧
    least ≤ height 95 ∧ height 95 ≤ greatest ∧
    Aggregate.percentile [(7 : ℚ)] 95 = .ok 7 ∧
    ∃ low high, Aggregate.median [3,1,2,(10 : ℚ)] = .ok low ∧
      Aggregate.median [3,4,2,(10 : ℚ)] = .ok high ∧ low ≤ high := by
  obtain ⟨_,_,told,single,raised⟩ := order_statistics
  obtain ⟨least,greatest,middle,height,tells⟩ := told [3,1,2,10] (by simp)
  have sorted : Scalar.sorted [3,1,2,(10 : ℚ)] = [1,2,3,10] :=
    (Scalar.sorted_perm (by decide)).trans (sorted_ascending (by decide))
  have halfway : Aggregate.median [3,1,2,(10 : ℚ)] = .ok (5/2) := by
    rw [Aggregate.median,sorted]
    decide +kernel
  cases halfway.symm.trans tells.median
  have within : (95 : ℚ) ∈ Set.Icc 0 100 := ⟨by norm_num,by norm_num⟩
  obtain ⟨low,high⟩ := tells.within 95 within
  obtain ⟨_,higher⟩ := raised [3,1,2,10] 1 (by decide) 4 (by norm_num)
  exact ⟨least,greatest,height,tells,low,high,single 7 95 within,higher⟩

end JoinTrace.Exact
